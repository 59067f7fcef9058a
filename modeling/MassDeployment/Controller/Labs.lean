import MassDeployment.Controller.Students

set_option autoImplicit false

/-! # Logical labs (`labs.ts`) -/

namespace MassDeployment

open Js

/-- `LAB_NAME_RE = /^[a-zA-Z0-9][a-zA-Z0-9_-]{0,39}$/`. -/
def isValidLabName (name : String) : Bool :=
  match name.toList with
  | [] => false
  | c :: rest => isAlnum c && rest.all (fun c => isAlnum c || c == '_' || c == '-') &&
      rest.length ≤ 39

def createLab (name : String) (piName piEmail : Option String) (actor : Option String) :
    Op LabRow := do
  if !isValidLabName name then
    Op.failWith "Invalid lab name (use letters, digits, hyphen or underscore; max 40 chars)"
  else
    match ← Op.query fun d => d.labs.find fun l => l.name == name with
    | some _ => Op.failWith s!"A lab named '{name}' already exists"
    | none =>
      let now ← Op.now
      let row := fun i : Nat =>
        { id := i, name, piName, piEmail, createdAt := now, updatedAt := now : LabRow }
      let id ← Slot.labs.insert row fun _ => rfl
      audit actor "lab.create" (some name) none
      return row id

/-- A text to store, with the empty one stored as `NULL`. -/
def orNull (text : Option String) : Option String :=
  match text with
  | some t => if t = "" then none else some t
  | none => none

/-- Edit a lab's PI metadata; `none` leaves a field as it is. -/
def updateLabMeta (labId : Nat) (piName piEmail : Option (Option String))
    (actor : Option String) : Op Unit := do
  match ← Op.query fun d => d.labs.get labId with
  | none => Op.failWith "Unknown lab"
  | some lab =>
    let now ← Op.now
    updateLab labId fun l =>
      { l with
        piName := (piName.map orNull).getD l.piName
        piEmail := (piEmail.map orNull).getD l.piEmail
        updatedAt := now }
    audit actor "lab.update_meta" (some lab.name) none

/-- `DELETE FROM labs WHERE id = ?`, with its cascades. -/
def deleteLabRow (labId : Nat) : Op Unit := do
  deletePlacements fun p => p.labId == labId
  Slot.labMembers.delete fun m => m.labId == labId
  Op.writeLists fun d =>
    { d with
      storageSamples := d.storageSamples.filter fun r => r.labId != labId
      quotaAlerts := d.quotaAlerts.filter fun r => r.labId != labId }
  Slot.labs.delete fun l => l.id == labId

/-- `DELETE FROM students WHERE id = ?`, with its cascades; a lab whose PI it is holds it
back. -/
def deleteStudentRow (studentId : Nat) : Op Unit := do
  if ← Op.query fun d => d.labs.rows.any fun l => l.piStudentId == some studentId then
    throw (.sqliteError "FOREIGN KEY constraint failed")
  else
    Slot.labMembers.delete fun m => m.studentId == studentId
    Slot.placementMembers.delete fun m => m.studentId == studentId
    Op.writeLists fun d =>
      { d with
        storageSamples := d.storageSamples.map fun r =>
          if r.studentId == some studentId then { r with studentId := none } else r
        studentQuotaAlerts := d.studentQuotaAlerts.filter fun r => r.studentId != studentId }
    Slot.students.delete fun s => s.id == studentId

/-- Delete a logical lab: tear its placements down (SMB clients before their owners); with
none left to wait for, remove the lab, its roster and every student left without a lab. -/
def destroyLab (labId : Nat) (actor : Option String) (force : Bool) : Op Unit := do
  match ← Op.query fun d => d.labs.get labId with
  | none => pure ()
  | some lab =>
    let placements ← Op.query fun d => d.listPlacements labId
    let sorted := placements.filter (fun p => p.nodeColdBackend == .smb) ++
      placements.filter (fun p => p.nodeColdBackend != .smb)
    sorted.forM fun p =>
      if force && !p.online then forceDeletePlacement p.id actor
      else destroyPlacement p.id actor
    if sorted.any fun p => !(force && !p.online) then pure ()
    else
      let memberIds ← Op.query fun d =>
        (d.labMembers.select fun m => m.labId == labId).map LabMemberRow.studentId
      deleteLabRow labId
      let orphans ← memberIds.mapM removeOrphan
      let orphansRemoved := (orphans.filter id).length
      audit actor "lab.delete" (some lab.name)
        (if orphansRemoved = 0 then none else some s!"{orphansRemoved} students removed")
where
  /-- Delete a student that is left without a lab; returns whether it was. -/
  removeOrphan (sid : Nat) : Op Bool := do
    if ← Op.query fun d => d.labMembers.rows.any fun m => m.studentId == sid then return false
    else
      deleteStudentRow sid
      return true

end MassDeployment
