import MassDeployment.Controller.Placements

set_option autoImplicit false

/-! # Students and lab rosters (`students.ts`)

A student is global; adding a student to a lab records the membership and provisions them on
every placement of the lab, and removal reverses every placement.
-/

namespace MassDeployment

open Js

/-! ## Student records -/

structure StudentInput where
  username : String
  email : Option String := none
  name : Option String := none
  studentId : Option String := none

/-- An address for storage and lookup; blank is no address. -/
def normalizeEmail (h : Host) (email : Option String) : Option String :=
  match email with
  | none => none
  | some e => let e := h.toLowerCase (h.trim e); if e = "" then none else some e

/-- `text?.trim() || null`. -/
def trimmedOrNull (h : Host) (text : Option String) : Option String :=
  match text with
  | none => none
  | some t => let t := h.trim t; if t = "" then none else some t

theorem keeps_student (p : StudentRow → Bool) (f : StudentRow → StudentRow)
    (h : ∀ r, (f r).id = r.id ∧ (f r).username = r.username ∧ (f r).linuxUid = r.linuxUid ∧
      (f r).studentId = r.studentId) : Row.Keeps p f where
  grows r _ := ⟨(h r).1, (h r).2.1, (h r).2.2.1⟩
  clash a _ hc := by
    obtain ⟨_, h2, h3, h4⟩ := h a
    exact hc.imp h2.symm.trans (.imp h3.symm.trans fun e => ⟨h4.symm.trans e.1, h4 ▸ e.2⟩)

theorem keeps_lab (p : LabRow → Bool) (f : LabRow → LabRow)
    (h : ∀ r, (f r).id = r.id ∧ (f r).name = r.name) : Row.Keeps p f :=
  ⟨fun r _ => h r, fun a _ hc => (h a).2.symm.trans hc⟩

/-- `UPDATE labs SET … WHERE id = ?`. -/
def updateLab (id : Nat) (f : LabRow → LabRow)
    (h : ∀ r, (f r).id = r.id ∧ (f r).name = r.name := by intro r; exact ⟨rfl, rfl⟩) : Op Unit :=
  Slot.labs.update (fun l => l.id == id) f (keeps_lab _ f h)

/-- The lowest uid in `10000..59999` that no student has. -/
def Db.firstFreeUid (d : Db) : Option Nat :=
  let used := d.students.rows.map StudentRow.linuxUid
  (List.range' 10000 50000).find? fun uid => !used.contains uid

/-- Insert a student under a fresh uid. -/
def insertStudent (username : String) (studentId email name : Option String) : Op StudentRow := do
  let s ← .read id
  match s.db.firstFreeUid with
  | none => Op.failWith "student UID range 10000..59999 is exhausted"
  | some linuxUid =>
    let row := fun i : Nat =>
      { id := i, studentId, username, email, name, linuxUid, createdAt := s.now,
        updatedAt := s.now : StudentRow }
    let id ← Slot.students.insert row fun _ => rfl
    return row id

/-- Find a student by student id, then by username; create the record if neither matches. -/
def findOrCreateStudent (input : StudentInput) : Op StudentRow := do
  let s ← .read id
  let username := s.host.toLowerCase (s.host.trim input.username)
  let byId := match input.studentId with
    | some sid => if sid = "" then none else s.db.students.find fun r => r.studentId == some sid
    | none => none
  match byId with
  | some r => return r
  | none =>
    match s.db.students.find fun r => r.username == username with
    | some r => return r
    | none =>
      Prog.atomically
        (insertStudent username input.studentId (normalizeEmail s.host input.email) input.name)

/-! ## The roster -/

/-- Insert a roster row; lab and student have to exist. -/
def insertLabMember (labId studentId : Nat) : Op Unit := do
  let s ← .read id
  match s.db.labs.get labId, s.db.students.get studentId with
  | some _, some _ =>
    let _ ← Slot.labMembers.insert
      (fun i => { id := i, labId, studentId, createdAt := s.now }) fun _ => rfl
  | _, _ => throw (.sqliteError "FOREIGN KEY constraint failed")

/-- The roster of a lab, by username. -/
def Db.listMembers (d : Db) (labId : Nat) : List Member :=
  orderBy (fun m => m.student.username)
    ((d.labMembers.select fun m => m.labId == labId).filterMap fun m =>
      match d.students.get m.studentId, d.labs.get labId with
      | some s, some lab => some ⟨s, m.id, lab.piStudentId == some s.id⟩
      | _, _ => none)

/-- Add a student to a lab's roster and provision them on every placement, up to the first
`await`. -/
def addStudentToLab (labId : Nat) (student : StudentInput) (actor : Option String) : Op Thread := do
  match ← Op.query fun d => d.labs.get labId with
  | none => Op.failWith "Unknown lab"
  | some lab =>
    let record ← findOrCreateStudent student
    let labName := lab.name
    let username := record.username
    if ← Op.query fun d => d.isMember labId record.id then
      Op.failWith s!"{username} is already a member of {labName}"
    else
      insertLabMember labId record.id
      audit actor "member.add" (some s!"{labName}/{username}") none
      let placements ← Op.query fun d => d.listPlacements labId
      provisionOn placements (.ofRow record) actor

/-- The loop of `copyMembers`, up to its first `await`. -/
def copyEach (toLabId : Nat) (actor : Option String) : List Member → Op Thread
  | [] => pure []
  | m :: rest => do
    if ← Op.query fun d => d.isMember toLabId m.student.id then copyEach toLabId actor rest
    else
      let waiting ← addStudentToLab toLabId
        { username := m.student.username, email := m.student.email, name := m.student.name,
          studentId := m.student.studentId }
        actor
      return waiting ++ [.copyRest toLabId rest actor]

/-- Enroll every member of one lab into another, up to the first `await`. -/
def copyMembers (fromLabId toLabId : Nat) (actor : Option String) : Op Thread := do
  let members ← Op.query fun d => d.listMembers fromLabId
  copyEach toLabId actor members

/-- Designate and provision a PI account, up to the first `await`. -/
def ensurePiAccess (labId : Nat) (input : StudentInput) (actor : Option String) : Op Thread := do
  match ← Op.query fun d => d.labs.get labId with
  | none => Op.failWith "Unknown lab"
  | some lab =>
    let host ← .read Controller.host
    if host.trim input.username = "" then
      Op.failWith "PI username is required to grant placement access"
    else
      let record ← findOrCreateStudent input
      if lab.piStudentId.any (· ≠ record.id) then
        Op.failWith "The PI login username cannot be changed after it has been provisioned"
      else
        let now ← Op.now
        let email := normalizeEmail host input.email
        let name := trimmedOrNull host input.name
        Slot.students.update (fun r => r.id == record.id)
          (fun r => { r with email := email, name := name, updatedAt := now })
          (keeps_student _ _ fun _ => ⟨rfl, rfl, rfl, rfl⟩)
        updateLab labId fun l =>
          { l with
            piStudentId := some record.id, piName := name, piEmail := email, updatedAt := now }
        enroll record.id
        let labName := lab.name
        let username := record.username
        audit actor "pi.access.ensure" (some s!"{labName}/{username}") none
        let placements ← Op.query fun d => d.listPlacements labId
        provisionOn placements (.ofRow record) actor
where
  /-- Put the PI on the roster, if it is not there. -/
  enroll (studentId : Nat) : Op Unit := do
    if ← Op.query fun d => d.isMember labId studentId then pure ()
    else insertLabMember labId studentId

/-- Remove a student from a lab: deprovision them on every placement, drop the membership and
notify them. -/
def removeStudentFromLab (labId studentId : Nat) (deleteData : Bool) (actor : Option String) :
    Op Unit := do
  match ← Op.query fun d => d.labs.get labId with
  | none => Op.failWith "Unknown lab"
  | some lab =>
    if lab.piStudentId = some studentId then
      Op.failWith "The PI account is protected and cannot be removed from the lab"
    else
      match ← Op.query fun d =>
        if d.isMember labId studentId then d.students.get studentId else none with
      | none => Op.failWith "Student is not a member of this lab"
      | some member =>
        let placements ← Op.query fun d => d.listPlacements labId
        let removal ← drawRemoval placements
        placements.forM fun p =>
          removeMemberFromPlacement p studentId member.username deleteData actor removal
        Slot.labMembers.delete fun m => m.labId == labId && m.studentId == studentId
        let labName := lab.name
        let username := member.username
        audit actor "member.remove" (some s!"{labName}/{username}")
          (if deleteData then some "data deleted" else none)
        notify member labName
where
  /-- The id of a deleting removal, and the nodes whose cold data it cleans up. -/
  drawRemoval (placements : List Placement) : Op (Option (String × List String)) := do
    if deleteData && !placements.isEmpty then
      let removalId ← Op.draw Host.uuid
      return some (removalId,
        (placements.filter fun p => p.nodeColdBackend == .localZfs).map Placement.nodeName)
    else return none
  /-- Tell the student. -/
  notify (member : StudentRow) (labName : String) : Op Unit :=
    match member.email with
    | some email => if email = "" then pure () else Op.emit (.removalMail email labName deleteData)
    | none => pure ()

/-! ## Roster import (`labimport.ts`) -/

structure PiUpdate where
  piUsername : Option String := none
  piName : Option String := none
  piEmail : Option String := none

structure StudentCreate where
  username : String
  studentId : Option String := none
  name : Option String := none
  email : Option String := none

structure StudentUpdate where
  username : String
  studentId : Option String := none
  name : Option String := none
  email : Option String := none

/-- A plan `planRosterImport` accepted. -/
structure RosterPlan where
  lab : String
  piUpdate : Option PiUpdate := none
  studentsToCreate : List StudentCreate := []
  studentsToUpdate : List StudentUpdate := []
  membershipsToAdd : List String := []

/-- Write the changed fields of one student. -/
def updateImported (u : StudentUpdate) : Op Unit := do
  let now ← Op.now
  u.studentId.forM fun sid =>
    Slot.students.tryUpdate (fun r => r.username == u.username)
      (fun r => { r with studentId := some sid }) fun _ _ => ⟨rfl, rfl, rfl⟩
  Slot.students.update (fun r => r.username == u.username)
    (fun r =>
      { r with
        name := u.name.orElse fun _ => r.name
        email := u.email.orElse fun _ => r.email
        updatedAt := now })
    (keeps_student _ _ fun _ => ⟨rfl, rfl, rfl, rfl⟩)

/-- Add one membership of the plan; the student if it is new on the roster. -/
def addImported (labId : Nat) (username : String) : Op (List ProvisionStudent) := do
  match ← Op.query fun d => d.students.find fun r => r.username == username with
  | none => throw (.sqliteError "NOT NULL constraint failed: lab_members.student_id")
  | some row =>
    if ← Op.query fun d => d.isMember labId row.id then return []
    else
      insertLabMember labId row.id
      return [.ofRow row]

/-- The transaction of `applyRosterImport`: the PI change, the students, the memberships. -/
def commitRosterPlan (labId : Nat) (plan : RosterPlan) : Op (List ProvisionStudent) := do
  let now ← Op.now
  plan.piUpdate.forM fun pi =>
    updateLab labId fun l =>
      { l with
        piName := pi.piName.orElse fun _ => l.piName
        piEmail := pi.piEmail.orElse fun _ => l.piEmail
        updatedAt := now }
  plan.studentsToCreate.forM fun c => do
    let _ ← insertStudent c.username c.studentId c.email c.name
  plan.studentsToUpdate.forM updateImported
  (plan.piUpdate.bind PiUpdate.piUsername).forM fun username => do
    match ← Op.query fun d => d.students.find fun r => r.username == username with
    | none => Op.failWith "PI account was not created during roster import"
    | some row => updateLab labId fun l => { l with piStudentId := some row.id }
  let added ← plan.membershipsToAdd.mapM (addImported labId)
  return added.flatten

/-- The provisioning loop after the transaction, up to its first `await`. -/
def provisionImported (labId : Nat) (actor : Option String) : List ProvisionStudent → Op Thread
  | [] => pure []
  | student :: rest => do
    match ← Op.query fun d => d.listPlacements labId with
    | [] => provisionImported labId actor rest
    | placement :: others =>
      provisionMemberOnPlacement placement student actor
      return [.importRest labId others student rest actor]

/-- The rest of `applyRosterImport`, with a plan that is committable: one transaction, then
provisioning, up to the first `await`. -/
def applyRosterPlan (labId : Nat) (plan : RosterPlan) (actor : Option String) : Op Thread := do
  let added ← Prog.atomically (commitRosterPlan labId plan)
  let jsonText ← .read fun s => s.host.conversions.jsonText
  audit actor "lab.roster_import" (some plan.lab)
    (some (jsonText (.obj
      [("piUpdated", .bool plan.piUpdate.isSome),
        ("studentsCreated", jsonInt plan.studentsToCreate.length),
        ("studentsUpdated", jsonInt plan.studentsToUpdate.length),
        ("membershipsAdded", jsonInt added.length), ("provisioned", jsonInt 0)])))
  provisionImported labId actor added

end MassDeployment
