import MassDeployment.Lib.Table
import MassDeployment.Lib.JsValue

set_option autoImplicit false

/-! # The database schema

The tables of `controller.db` after the last migration, with the columns the modelled code
reads or writes. Every table with an autoincrement key that is read by key or by a `UNIQUE`
column is a `Table`; the tables that are only appended to, filtered and emptied
(`storage_samples`, the alerts, `gpu_events`, `logs`, `audit_log`) are lists in insertion
order. Foreign keys are not part of a row; the operations that delete or insert rows carry
out their `ON DELETE` actions and checks.

`Row.grows` says what no statement of the program ever does to a row: a node, lab or
student is never renamed, a placement or member never moves, and a task row keeps its
identity and only moves forward in its lifecycle.
-/

namespace MassDeployment

open Js

/-! ## Enumerations -/

/-- The actions of a task frame. -/
inductive Action where
  | labCreate | labSetQuota | labDestroy
  | studentAdd | studentRemove | studentDeleteCold
  | containerRecreate | gpuPolicyUpdate
  | nodeReportState | nodeScrub | nodeCheck | nodeRepair | nodeReboot
  | usageScan
  deriving DecidableEq, Repr

/-- The action as it is written on the wire and in `task_log`. -/
def Action.text : Action → String
  | .labCreate => "lab.create"
  | .labSetQuota => "lab.set_quota"
  | .labDestroy => "lab.destroy"
  | .studentAdd => "student.add"
  | .studentRemove => "student.remove"
  | .studentDeleteCold => "student.delete_cold"
  | .containerRecreate => "container.recreate"
  | .gpuPolicyUpdate => "gpu.policy.update"
  | .nodeReportState => "node.report_state"
  | .nodeScrub => "node.scrub"
  | .nodeCheck => "node.check"
  | .nodeRepair => "node.repair"
  | .nodeReboot => "node.reboot"
  | .usageScan => "usage.scan"

/-- `task_log.state`. -/
inductive TaskState where
  | queued | sent | ok | failed
  deriving DecidableEq, Repr

/-- `state IN ('ok', 'failed')`. -/
def TaskState.terminal : TaskState → Bool
  | .ok | .failed => true
  | .queued | .sent => false

/-- How far along its lifecycle a task is. -/
def TaskState.rank : TaskState → Nat
  | .queued => 0
  | .sent => 1
  | .ok | .failed => 2

inductive PlacementState where
  | queued | provisioning | active | failed | deleting
  deriving DecidableEq, Repr

/-- The state as it is written in an error message. -/
def PlacementState.text : PlacementState → String
  | .queued => "queued"
  | .provisioning => "provisioning"
  | .active => "active"
  | .failed => "failed"
  | .deleting => "deleting"

inductive MemberState where
  | queued | provisioning | active | failed | removing
  deriving DecidableEq, Repr

inductive ColdBackend where
  | localZfs | smb
  deriving DecidableEq, Repr

def ColdBackend.text : ColdBackend → String
  | .localZfs => "local_zfs"
  | .smb => "smb"

/-- `container_options`, stored as JSON text and read back whole. -/
structure ContainerOptions where
  cpus : String
  memory : String
  shmSize : String
  rootfsQuota : String
  restart : String
  deriving DecidableEq, Repr

/-! ## Rows -/

structure NodeRow where
  id : Nat
  name : String
  lastSeen : Option Nat := none
  online : Bool := false
  capabilities : JsonText := .null
  pools : JsonText := .null
  createdAt : Nat
  lastScrub : Option Nat := none
  scrubStatus : JsonText := .null
  tokenHash : Option String := none
  allowed : Bool := false
  /-- The `alias` column. -/
  nodeAlias : Option String := none
  coldBackend : ColdBackend := .localZfs
  coldOwnerNodeId : Option Nat := none
  coldMountPath : Option String := none
  coldReady : Bool := false

structure LabRow where
  id : Nat
  name : String
  piName : Option String
  piEmail : Option String
  piStudentId : Option Nat := none
  createdAt : Nat
  updatedAt : Nat
  deriving DecidableEq, Repr

structure StudentRow where
  id : Nat
  studentId : Option String
  username : String
  email : Option String
  name : Option String
  linuxUid : Nat
  createdAt : Nat
  updatedAt : Nat
  deriving DecidableEq, Repr

structure LabMemberRow where
  id : Nat
  labId : Nat
  studentId : Nat
  createdAt : Nat
  deriving DecidableEq, Repr

structure PlacementRow where
  id : Nat
  labId : Nat
  nodeId : Nat
  fastQuotaBytes : Int
  coldQuotaBytes : Option Int
  studentFastQuotaBytes : Option Int
  studentColdQuotaBytes : Option Int
  sshPort : Nat
  image : String
  containerOptions : ContainerOptions
  state : PlacementState
  lastError : Option String := none
  usageScannedAt : Option Number := none
  createdAt : Nat
  updatedAt : Nat
  /-- `-1` while a completion mail is being sent. -/
  completionEmailSentAt : Option Int := none
  deriving DecidableEq

structure PlacementMemberRow where
  id : Nat
  placementId : Nat
  studentId : Nat
  state : MemberState
  lastError : Option String := none
  credentialSecret : Option String
  credentialDeliveredAt : Option Nat := none
  createdAt : Nat
  updatedAt : Nat
  deriving DecidableEq, Repr

structure TaskRow where
  id : Nat
  taskUuid : String
  jobId : Nat
  node : String
  action : Action
  params : JsonText
  requestedBy : Option String
  state : TaskState
  result : JsonText := .null
  error : Option String := none
  receivedAt : Option Nat := none
  attempts : Nat := 0
  resultCached : Bool := false
  createdAt : Nat
  updatedAt : Nat

structure StorageSampleRow where
  placementId : Nat
  labId : Nat
  studentId : Option Nat
  pool : String
  usedBytes : Number
  quotaBytes : SqlValue
  ts : Nat
  deriving DecidableEq

structure QuotaAlertRow where
  placementId : Nat
  labId : Nat
  pool : String
  pct : Number
  ts : Nat
  deriving DecidableEq

structure StudentQuotaAlertRow where
  placementId : Nat
  studentId : Nat
  pool : String
  pct : Number
  ts : Nat
  deriving DecidableEq

/-- `pid` and `ts` are never `NULL`; a placement that is named exists. -/
structure GpuSnapshotRow where
  node : String
  pid : SqlValue
  user : SqlValue
  lab : SqlValue
  placementId : Option Nat
  vramBytes : SqlValue
  util : SqlValue
  ts : SqlValue
  cmd : SqlValue
  startedAt : SqlValue
  deriving DecidableEq

structure GpuEventRow where
  node : String
  pid : Option Number
  user : Option String
  lab : Option String
  placementId : Option Nat
  vramBytes : Option Number
  state : String
  ts : Number
  cmd : Option String
  idleS : Option Number
  deriving DecidableEq

structure LogRow where
  ts : Number
  node : Option String := none
  level : String
  source : Option String
  lab : SqlValue := .null
  user : SqlValue := .null
  taskId : Option String := none
  msg : String
  detail : SqlValue := .null
  deriving DecidableEq

structure AuditRow where
  ts : Nat
  actor : Option String
  action : String
  target : Option String
  detail : Option String
  deriving DecidableEq, Repr

structure AdminRow where
  email : String
  isActive : Bool
  deriving DecidableEq, Repr

/-! ## Constraints and lifecycles -/

instance : Row NodeRow where
  id := NodeRow.id
  clash a b := a.name = b.name
  clash_symm _ _ h := h.symm
  decClash _ _ := inferInstance
  grows a b := b.id = a.id ∧ b.name = a.name
  grows_id _ _ h := h.1
  grows_refl _ := ⟨rfl, rfl⟩
  grows_trans _ _ _ h h' := ⟨h'.1.trans h.1, h'.2.trans h.2⟩

instance : Row LabRow where
  id := LabRow.id
  clash a b := a.name = b.name
  clash_symm _ _ h := h.symm
  decClash _ _ := inferInstance
  grows a b := b.id = a.id ∧ b.name = a.name
  grows_id _ _ h := h.1
  grows_refl _ := ⟨rfl, rfl⟩
  grows_trans _ _ _ h h' := ⟨h'.1.trans h.1, h'.2.trans h.2⟩

/-- The `UNIQUE` columns of `students`; `student_id` may be `NULL` in any number of rows. -/
instance : Row StudentRow where
  id := StudentRow.id
  clash a b := a.username = b.username ∨ a.linuxUid = b.linuxUid ∨
    (a.studentId = b.studentId ∧ a.studentId ≠ none)
  clash_symm a b h := by
    rcases h with h | h | ⟨h, hn⟩
    · exact .inl h.symm
    · exact .inr (.inl h.symm)
    · exact .inr (.inr ⟨h.symm, h ▸ hn⟩)
  decClash _ _ := inferInstance
  grows a b := b.id = a.id ∧ b.username = a.username ∧ b.linuxUid = a.linuxUid
  grows_id _ _ h := h.1
  grows_refl _ := ⟨rfl, rfl, rfl⟩
  grows_trans _ _ _ h h' := ⟨h'.1.trans h.1, h'.2.1.trans h.2.1, h'.2.2.trans h.2.2⟩

instance : Row LabMemberRow where
  id := LabMemberRow.id
  clash a b := a.labId = b.labId ∧ a.studentId = b.studentId
  clash_symm _ _ h := ⟨h.1.symm, h.2.symm⟩
  decClash _ _ := inferInstance
  grows a b := b = a
  grows_id _ _ h := h ▸ rfl
  grows_refl _ := rfl
  grows_trans _ _ _ h h' := h'.trans h

/-- One placement per lab and node, one placement per port of a node. -/
instance : Row PlacementRow where
  id := PlacementRow.id
  clash a b := a.nodeId = b.nodeId ∧ (a.labId = b.labId ∨ a.sshPort = b.sshPort)
  clash_symm _ _ h := ⟨h.1.symm, h.2.imp Eq.symm Eq.symm⟩
  decClash _ _ := inferInstance
  grows a b := b.id = a.id ∧ b.labId = a.labId ∧ b.nodeId = a.nodeId
  grows_id _ _ h := h.1
  grows_refl _ := ⟨rfl, rfl, rfl⟩
  grows_trans _ _ _ h h' := ⟨h'.1.trans h.1, h'.2.1.trans h.2.1, h'.2.2.trans h.2.2⟩

instance : Row PlacementMemberRow where
  id := PlacementMemberRow.id
  clash a b := a.placementId = b.placementId ∧ a.studentId = b.studentId
  clash_symm _ _ h := ⟨h.1.symm, h.2.symm⟩
  decClash _ _ := inferInstance
  grows a b := b.id = a.id ∧ b.placementId = a.placementId ∧ b.studentId = a.studentId
  grows_id _ _ h := h.1
  grows_refl _ := ⟨rfl, rfl, rfl⟩
  grows_trans _ _ _ h h' := ⟨h'.1.trans h.1, h'.2.1.trans h.2.1, h'.2.2.trans h.2.2⟩

/-- **The lifecycle of a task.** Its identity is fixed, its state moves forward or stays, and
once the state is terminal the verdict (state, result, error, cached flag) is fixed too. -/
structure TaskRow.Grows (a b : TaskRow) : Prop where
  id : b.id = a.id
  taskUuid : b.taskUuid = a.taskUuid
  node : b.node = a.node
  action : b.action = a.action
  params : b.params = a.params
  requestedBy : b.requestedBy = a.requestedBy
  forward : b.state = a.state ∨ a.state.rank < b.state.rank
  final : a.state.terminal = true →
    b.state = a.state ∧ b.result = a.result ∧ b.error = a.error ∧ b.resultCached = a.resultCached

namespace TaskRow.Grows

theorem refl (a : TaskRow) : Grows a a :=
  ⟨rfl, rfl, rfl, rfl, rfl, rfl, .inl rfl, fun _ => ⟨rfl, rfl, rfl, rfl⟩⟩

theorem trans {a b c : TaskRow} (h : Grows a b) (h' : Grows b c) : Grows a c where
  id := h'.id.trans h.id
  taskUuid := h'.taskUuid.trans h.taskUuid
  node := h'.node.trans h.node
  action := h'.action.trans h.action
  params := h'.params.trans h.params
  requestedBy := h'.requestedBy.trans h.requestedBy
  forward := by
    rcases h.forward with e | e <;> rcases h'.forward with e' | e'
    · exact .inl (e'.trans e)
    · exact .inr (e ▸ e')
    · exact .inr (e' ▸ e)
    · exact .inr (e.trans e')
  final ht := by
    obtain ⟨e1, e2, e3, e4⟩ := h.final ht
    obtain ⟨f1, f2, f3, f4⟩ := h'.final (e1 ▸ ht)
    exact ⟨f1.trans e1, f2.trans e2, f3.trans e3, f4.trans e4⟩

/-- A task that is open was open before. -/
theorem isOpen {a b : TaskRow} (h : Grows a b) (hb : b.state.terminal = false) :
    a.state.terminal = false := by
  cases ha : a.state.terminal with
  | false => rfl
  | true =>
      rw [(h.final ha).1, ha] at hb
      cases hb

end TaskRow.Grows

instance : Row TaskRow where
  id := TaskRow.id
  clash a b := a.taskUuid = b.taskUuid
  clash_symm _ _ h := h.symm
  decClash _ _ := inferInstance
  grows := TaskRow.Grows
  grows_id _ _ h := h.id
  grows_refl := TaskRow.Grows.refl
  grows_trans _ _ _ := TaskRow.Grows.trans

/-- The authoritative database. -/
structure Db where
  nodes : Table NodeRow := .empty
  labs : Table LabRow := .empty
  students : Table StudentRow := .empty
  labMembers : Table LabMemberRow := .empty
  labPlacements : Table PlacementRow := .empty
  placementMembers : Table PlacementMemberRow := .empty
  taskLog : Table TaskRow := .empty
  storageSamples : List StorageSampleRow := []
  quotaAlerts : List QuotaAlertRow := []
  studentQuotaAlerts : List StudentQuotaAlertRow := []
  gpuSnapshot : List GpuSnapshotRow := []
  gpuEvents : List GpuEventRow := []
  logs : List LogRow := []
  auditLog : List AuditRow := []
  admins : List AdminRow := []

end MassDeployment
