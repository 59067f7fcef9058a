import MassDeployment.Controller.Alerts
import MassDeployment.Controller.Queue

set_option autoImplicit false

/-! # Queries, validation and formatting (`placements.ts`, `format.ts`)

The joins the placement code reads, and the checks it makes before it queues work.
-/

namespace MassDeployment

open Js

/-! ## `fmtBytes` -/

/-- `q.toFixed(0)`. -/
def toFixed0 (q : ℚ) : String := toString ⌊q + 1 / 2⌋

/-- `q.toFixed(1)`, for a positive `q`. -/
def toFixed1 (q : ℚ) : String :=
  let tenths := ⌊q * 10 + 1 / 2⌋
  toString (tenths / 10) ++ "." ++ toString (tenths % 10)

/-- The loop of `fmtBytes` over the remaining units; `first` while still in bytes. -/
def fmtUnits (first : Bool) (v : ℚ) : List String → String
  | [] => ""
  | [u] => (if v ≥ 100 ∨ first then toFixed0 v else toFixed1 v) ++ " " ++ u
  | u :: rest =>
    if v ≥ 1024 then fmtUnits false (v / 1024) rest
    else (if v ≥ 100 ∨ first then toFixed0 v else toFixed1 v) ++ " " ++ u

def byteUnits : List String := ["B", "KB", "MB", "GB", "TB", "PB"]

def fmtBytes : Number → String
  | .fin q => fmtUnits true q byteUnits
  | .inf false => "Infinity PB"
  | .inf true => "-Infinity B"
  | .nan => "NaN B"

/-- `fmtBytes(v)` for a value of unknown type: `toFixed` is a method of numbers, and only the
division of the loop turns another value into one. -/
def fmtBytesOf (c : Conversions) (v : Value) : Except Error String :=
  match v with
  | none | some .null => .ok "—"
  | some (.num n) => .ok (fmtBytes n)
  | v =>
    if Number.le 1024 (v.toNumber c) then .ok (fmtBytes (v.toNumber c))
    else .error (.typeError "v.toFixed is not a function")

/-! ## Validation of a container configuration -/

def isDigit (c : Char) : Bool := '0' ≤ c && c ≤ '9'

def isAlnum (c : Char) : Bool :=
  isDigit c || ('a' ≤ c && c ≤ 'z') || ('A' ≤ c && c ≤ 'Z')

/-- `\s`. -/
def isJsSpace (c : Char) : Bool :=
  [0x9, 0xA, 0xB, 0xC, 0xD, 0x20, 0xA0, 0x1680, 0x2028, 0x2029, 0x202F, 0x205F, 0x3000,
    0xFEFF].contains c.toNat || (0x2000 ≤ c.toNat && c.toNat ≤ 0x200A)

def isLowerHex (c : Char) : Bool := isDigit c || ('a' ≤ c && c ≤ 'f')

/-- `(@sha256:[a-f0-9]{64})?$`. -/
def digestSuffix (s : List Char) : Bool :=
  s.isEmpty || ("@sha256:".toList.isPrefixOf s &&
    (s.drop 8).all isLowerHex && (s.drop 8).length == 64)

/-- `(:[a-zA-Z0-9._-]+)?(@sha256:[a-f0-9]{64})?$`. -/
def tagSuffix : List Char → Bool
  | ':' :: s =>
    let tagChar := fun c => isAlnum c || c == '.' || c == '_' || c == '-'
    !(s.takeWhile tagChar).isEmpty && digestSuffix (s.dropWhile tagChar)
  | s => digestSuffix s

/-- `DOCKER_IMAGE_RE`. -/
def dockerImage (image : String) : Bool :=
  match image.toList with
  | [] => false
  | c :: s =>
    isAlnum c && tagSuffix (s.dropWhile fun c =>
      isAlnum c || c == '.' || c == '_' || c == '/' || c == '-')

/-- What is left after `\d+(\.\d+)?`. -/
def afterNumber (s : List Char) : Option (List Char) :=
  if (s.takeWhile isDigit).isEmpty then none
  else
    match s.dropWhile isDigit with
    | '.' :: rest =>
      if (rest.takeWhile isDigit).isEmpty then some ('.' :: rest)
      else some (rest.dropWhile isDigit)
    | rest => some rest

/-- `/^\d+(\.\d+)?$/`. -/
def cpuCount (s : String) : Bool := afterNumber s.toList == some []

/-- Drop one leading character out of a set, where there is one. -/
def dropOne (p : Char → Bool) : List Char → List Char
  | c :: s => if p c then s else c :: s
  | [] => []

/-- `SIZE_RE = /^\d+(\.\d+)?\s*[kKmMgGtT]?[bB]?$/`. -/
def sizeValue (s : String) : Bool :=
  match afterNumber s.toList with
  | none => false
  | some rest =>
    let unit := dropOne (fun c => "kKmMgGtT".toList.contains c) (rest.dropWhile isJsSpace)
    (dropOne (fun c => c == 'b' || c == 'B') unit).isEmpty

/-- `RESTART_POLICIES`. -/
def restartPolicies : List String := ["no", "on-failure", "always", "unless-stopped"]

/-- Validate an image reference and all container resource values; throws on the first
invalid field. -/
def validateContainerConfig (image : String) (opts : ContainerOptions) : Op Unit :=
  if !dockerImage image || Js.length image > 256 then
    Op.failWith s!"Invalid image reference '{image}'"
  else if !cpuCount opts.cpus then Op.failWith "CPUs must be a number (e.g. 4 or 2.5)"
  else if !sizeValue opts.memory then Op.failWith "Invalid memory size (e.g. 8g, 512m)"
  else if !sizeValue opts.shmSize then Op.failWith "Invalid shared-memory size (e.g. 1g)"
  else if !sizeValue opts.rootfsQuota then Op.failWith "Invalid rootfs quota (e.g. 300g)"
  else if !restartPolicies.contains opts.restart then
    Op.failWith "Restart policy must be one of: no, on-failure, always, unless-stopped"
  else pure ()

/-! ## Joins -/

/-- The order of a `TEXT` column. -/
def textLe : List Char → List Char → Bool
  | [], _ => true
  | _ :: _, [] => false
  | a :: as, b :: bs => a.toNat < b.toNat || (a.toNat == b.toNat && textLe as bs)

/-- `ORDER BY` a text column. -/
def orderBy {α : Type} (key : α → String) : List α → List α
  | [] => []
  | a :: l => place a (orderBy key l)
where
  /-- Put a row in front of the first one that is not smaller. -/
  place (a : α) : List α → List α
    | [] => [a]
    | b :: l => if textLe (key a).toList (key b).toList then a :: b :: l else b :: place a l

theorem place_perm {α : Type} (key : α → String) (a : α) (l : List α) :
    (orderBy.place key a l).Perm (a :: l) := by
  induction l with
  | nil => exact .refl _
  | cons b l ih =>
      unfold orderBy.place
      split
      · exact .refl _
      · exact (ih.cons b).trans (.swap a b l)

/-- Sorting adds no row and drops none. -/
theorem orderBy_perm {α : Type} (key : α → String) (l : List α) : (orderBy key l).Perm l := by
  induction l with
  | nil => exact .refl _
  | cons a l ih => exact (place_perm key a _).trans (ih.cons a)

theorem mem_orderBy {α : Type} {key : α → String} {a : α} {l : List α} (h : a ∈ orderBy key l) :
    a ∈ l := (orderBy_perm key l).mem_iff.mp h

namespace Db

/-- `PLACEMENT_SELECT` for one row. -/
def joinPlacement (d : Db) (p : PlacementRow) : Option Placement :=
  match d.labs.get p.labId, d.nodes.get p.nodeId with
  | some lab, some node =>
    some
      { p with
        labName := lab.name
        nodeName := node.name
        online := node.online
        nodeColdBackend := node.coldBackend
        nodeColdOwnerNodeId := node.coldOwnerNodeId
        coldOwnerName := (node.coldOwnerNodeId.bind d.nodes.get).map NodeRow.name
        nodeColdReady := node.coldReady }
  | _, _ => none

/-- All placements, joined. -/
def placements (d : Db) : List Placement := d.labPlacements.rows.filterMap d.joinPlacement

def listPlacements (d : Db) (labId : Nat) : List Placement :=
  orderBy Placement.nodeName (d.placements.filter fun p => p.labId == labId)

def getPlacement (d : Db) (id : Nat) : Option Placement :=
  (d.labPlacements.get id).bind d.joinPlacement

/-- The students on a lab's roster. -/
def roster (d : Db) (labId : Nat) : List StudentRow :=
  ((d.labMembers.select fun m => m.labId == labId).filterMap fun m => d.students.get m.studentId)

def isMember (d : Db) (labId studentId : Nat) : Bool :=
  d.labMembers.rows.any fun m => m.labId == labId && m.studentId == studentId

end Db

/-- The condition `labs.name = ? AND nodes.name = ?`, with the parameters it is given. -/
def namesPlacement (c : Conversions) (labName : Value) (nodeName : String) :
    Except Error (String → String → Bool) := do
  match ← bindAll 2 [labName, some (.str nodeName)] with
  | [lab, node] => return fun l n => lab.isText c l && node.isText c n
  | _ => return fun _ _ => false

/-- The lookup of a placement by lab and node name. -/
def Db.lookupPlacement (d : Db) (c : Conversions) (labName : Value) (nodeName : String) :
    Except Error (Option Placement) := do
  let named ← namesPlacement c labName nodeName
  return d.placements.find? fun p => named p.labName p.nodeName

def getPlacementByLabNode (labName : Value) (nodeName : String) : Op (Option Placement) := do
  let s ← .read id
  Op.lift (s.db.lookupPlacement s.host.conversions labName nodeName)

/-- The placement a frame names, if it names a lab. -/
def placementNamed (labName : Option String) (nodeName : String) : Op (Option Placement) :=
  match labName with
  | some l => getPlacementByLabNode (some (.str l)) nodeName
  | none => pure none

/-! ## Task parameters -/

/-- A number in a task's parameters. -/
def jsonInt (n : Int) : Json := .num n

/-- A number or `null` in a task's parameters. -/
def jsonIntOrNull : Option Int → Json
  | some n => jsonInt n
  | none => .null

/-- The `container_options` payload of `lab.create` and `container.recreate`. -/
def taskContainerOptions (p : Placement) : Json :=
  .obj
    [("cpus", .str p.containerOptions.cpus), ("memory", .str p.containerOptions.memory),
      ("shm_size", .str p.containerOptions.shmSize),
      ("rootfs_quota", .str p.containerOptions.rootfsQuota),
      ("restart", .str p.containerOptions.restart),
      ("image", .str p.image), ("ssh_port", jsonInt p.sshPort)]

end MassDeployment
