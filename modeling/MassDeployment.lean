import MassDeployment.Lib.Calendar
import MassDeployment.Lib.Choice
import MassDeployment.Lib.Suffix
import MassDeployment.Lib.Dict
import MassDeployment.Lib.Prog
import MassDeployment.Lib.Run
import MassDeployment.Lib.Triple
import MassDeployment.Lib.Finish
import MassDeployment.Lib.History
import MassDeployment.Lib.Wp
import MassDeployment.Lib.Faults
import MassDeployment.Lib.DurableQueue
import MassDeployment.Lib.JsValue
import MassDeployment.Controller.Schema
import MassDeployment.Controller.State
import MassDeployment.Controller.Queue
import MassDeployment.Controller.Nodes
import MassDeployment.Controller.Selects
import MassDeployment.Controller.Members
import MassDeployment.Controller.Placements
import MassDeployment.Controller.Labs
import MassDeployment.Controller.Csv
import MassDeployment.Controller.CsvRoundTrip
import MassDeployment.Controller.RosterImport
import MassDeployment.Controller.Ingest
import MassDeployment.Controller.Hub
import MassDeployment.Controller.Acts
import MassDeployment.Controller.Waits
import MassDeployment.Controller.Sockets
import MassDeployment.Controller.Lifecycle
import MassDeployment.Controller.Quiet
import MassDeployment.Controller.ImportPlan
import MassDeployment.Controller.ImportCommit
import MassDeployment.Controller.ImportTwice
import MassDeployment.Controller.ImportLines
import MassDeployment.Controller.PiRoster
import MassDeployment.Controller.LabDeletion
import MassDeployment.Controller.Refusals
import MassDeployment.Controller.Quotas
import MassDeployment.Controller.Accounts
import MassDeployment.Controller.Throws
import MassDeployment.Controller.Heartbeats
import MassDeployment.Controller.Walk
import MassDeployment.Controller.Enrols
import MassDeployment.Controller.Writes
import MassDeployment.Controller.Calls
import MassDeployment.Controller.Results
import MassDeployment.Controller.Steady
import MassDeployment.Controller.Connections
import MassDeployment.Controller.Delivery
import MassDeployment.Controller.ConnectionTable
import MassDeployment.Controller.Leftovers
import MassDeployment.Controller.Teardown
import MassDeployment.Controller.Generations
import MassDeployment.Controller.Credentials
import MassDeployment.Controller.OneTime
import MassDeployment.Controller.Removals
import MassDeployment.Controller.Mirror
import MassDeployment.Controller.Completion
import MassDeployment.Controller.Cleanups
import MassDeployment.Controller.ColdCleanup
import MassDeployment.Controller.CompletionMail
import MassDeployment.Controller.ColdOwners
import MassDeployment.Controller.Tokens
import MassDeployment.Controller.Sessions
import MassDeployment.Controller.Scrubs
import MassDeployment.Controller.NodeUsage
import MassDeployment.Controller.Backups
import MassDeployment.Agent.Users
import MassDeployment.Agent.Frames
import MassDeployment.Agent.Capabilities
import MassDeployment.Agent.Pools
import MassDeployment.Agent.StudentStorage
import MassDeployment.Agent.Containers
import MassDeployment.Agent.Recreate
import MassDeployment.Agent.Patching
import MassDeployment.Agent.Edge
import MassDeployment.Agent.GpuKiller
import MassDeployment.Agent.IdleSpells
import MassDeployment.Agent.GpuMonitor
import MassDeployment.Controller.GpuPolicies
import MassDeployment.Controller.BackupSchedule
import MassDeployment.Controller.BackupSpacing
import MassDeployment.Controller.BackupRetention
import MassDeployment.Controller.LogRotation
import MassDeployment.Controller.PoisonedJobs
import MassDeployment.Agent.DockerStorage
import MassDeployment.Controller.Samples
import MassDeployment.Controller.Sampling
import MassDeployment.Agent.Worker
import MassDeployment.Controller.Queued
import MassDeployment.Link.System
import MassDeployment.Link.Order
import MassDeployment.Link.Verdicts
import MassDeployment.Agent.Names
import MassDeployment.Agent.UsageReport
import MassDeployment.Controller.UsageReport
import MassDeployment.Agent.Config
import MassDeployment.Controller.RateLimit
import MassDeployment.Controller.AlertCounts
import MassDeployment.Controller.QuotaAlerts
import MassDeployment.Agent.UsageScan
import MassDeployment.Controller.Announcements
import MassDeployment.Controller.Addresses
import MassDeployment.Agent.Datasets
import MassDeployment.Agent.Subids
import MassDeployment.Agent.ContainerNames
import MassDeployment.Agent.ProcStat
import MassDeployment.Controller.WallClock
import MassDeployment.Agent.ColdFs
import MassDeployment.Controller.Redaction
import MassDeployment.Controller.Isolation
import MassDeployment.Controller.DataDeletion
import MassDeployment.Link.Deletion
import MassDeployment.Agent.LabDatasets
import MassDeployment.Agent.LabData
import MassDeployment.Controller.Admission
