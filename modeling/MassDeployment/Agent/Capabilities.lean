import MassDeployment.Agent.Frames

set_option autoImplicit false

/-! # What a node says of itself (`system.py`)

The health report of an agent as data. It goes out in the hello frame and in the results of
`node.check` and `node.repair`, as the nested dictionary `asdict` makes of it.
-/

namespace MassDeployment.Agent

open Js

structure HealthIssue where
  code : String
  severity : String
  message : String
  repairable : Bool := false

structure RuntimeHealth where
  dockerOk : Bool
  storageDriver : String
  usernsOk : Bool
  usernsUser : String
  usernsStart : Nat
  usernsSize : Nat
  bwrapOk : Bool
  cudaToolkitOk : Bool

structure NvidiaHealth where
  gpuCount : Nat
  nvmlOk : Bool
  loadedDriverVersion : String
  userspaceDriverVersion : String
  cdiOk : Bool
  cdiDevices : List String := []

structure StorageHealth where
  zfsOk : Bool
  fastOk : Bool
  coldOk : Bool
  coldBackend : String

structure Health where
  status : String
  issues : List HealthIssue

structure Capabilities where
  runtime : RuntimeHealth
  nvidia : NvidiaHealth
  storage : StorageHealth
  health : Health

/-! ## `asdict` -/

def HealthIssue.asdict (i : HealthIssue) : PyValue :=
  .dict [("code", .str i.code), ("severity", .str i.severity), ("message", .str i.message),
    ("repairable", .bool i.repairable)]

def RuntimeHealth.asdict (r : RuntimeHealth) : PyValue :=
  .dict [("docker_ok", .bool r.dockerOk), ("storage_driver", .str r.storageDriver),
    ("userns_ok", .bool r.usernsOk), ("userns_user", .str r.usernsUser),
    ("userns_start", .num r.usernsStart), ("userns_size", .num r.usernsSize),
    ("bwrap_ok", .bool r.bwrapOk), ("cuda_toolkit_ok", .bool r.cudaToolkitOk)]

def NvidiaHealth.asdict (n : NvidiaHealth) : PyValue :=
  .dict [("gpu_count", .num n.gpuCount), ("nvml_ok", .bool n.nvmlOk),
    ("loaded_driver_version", .str n.loadedDriverVersion),
    ("userspace_driver_version", .str n.userspaceDriverVersion), ("cdi_ok", .bool n.cdiOk),
    ("cdi_devices", .list (n.cdiDevices.map .str))]

def StorageHealth.asdict (s : StorageHealth) : PyValue :=
  .dict [("zfs_ok", .bool s.zfsOk), ("fast_ok", .bool s.fastOk), ("cold_ok", .bool s.coldOk),
    ("cold_backend", .str s.coldBackend)]

def Health.asdict (h : Health) : PyValue :=
  .dict [("status", .str h.status), ("issues", .list (h.issues.map HealthIssue.asdict))]

/-- `Capabilities.to_dict`. -/
def Capabilities.toDict (c : Capabilities) : List (String × PyValue) :=
  [("runtime", c.runtime.asdict), ("nvidia", c.nvidia.asdict), ("storage", c.storage.asdict),
    ("health", c.health.asdict)]

/-! ## What a reader finds in it -/

/-- The keys of a dictionary are the keys its reader finds. -/
theorem keys_parsedFields (d : Doubles) {fields : List (String × PyValue)}
    {js : List (String × Json)} (h : PyValue.parsedFields d fields = some js) :
    js.map Prod.fst = fields.map Prod.fst := by
  induction fields generalizing js with
  | nil =>
      cases h
      rfl
  | cons kv rest ih =>
      obtain ⟨k, v⟩ := kv
      simp only [PyValue.parsedFields, Option.bind_eq_bind, Option.bind_eq_some_iff] at h
      obtain ⟨j, -, js', hrest, hjs⟩ := h
      cases hjs
      rw [List.map_cons, List.map_cons, ih hrest]

end MassDeployment.Agent
