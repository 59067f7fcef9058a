import MassDeployment.Controller.Selects

set_option autoImplicit false

/-! # Placement members and their credentials (`placements.ts`)

A placement member is one student's account on one placement. Its password is generated
when `student.add` is queued, stays encrypted in the row until the agent confirms, and is
then mailed or revealed once.
-/

namespace MassDeployment

open Js

def ProvisionStudent.ofRow (s : StudentRow) : ProvisionStudent :=
  { id := s.id, username := s.username, email := s.email, name := s.name,
    studentId := s.studentId, linuxUid := s.linuxUid }

theorem keeps_member (p : PlacementMemberRow → Bool) (f : PlacementMemberRow → PlacementMemberRow)
    (h : ∀ r, (f r).id = r.id ∧ (f r).placementId = r.placementId ∧
      (f r).studentId = r.studentId) : Row.Keeps p f where
  grows r _ := h r
  clash a _ hc := ⟨(h a).2.1.symm.trans hc.1, (h a).2.2.symm.trans hc.2⟩

/-- `UPDATE placement_members SET … WHERE id = ?`. -/
def updateMember (id : Nat) (f : PlacementMemberRow → PlacementMemberRow)
    (h : ∀ r, (f r).id = r.id ∧ (f r).placementId = r.placementId ∧
      (f r).studentId = r.studentId := by intro r; exact ⟨rfl, rfl, rfl⟩) : Op Unit :=
  Slot.placementMembers.update (fun m => m.id == id) f (keeps_member _ f h)

/-- The parameters of `student.add`. -/
def studentAddParams (p : Placement) (username : String) (password : String) (linuxUid : Nat) :
    Params :=
  [("lab", .str p.labName), ("username", .str username), ("password", .str password),
    ("uid", jsonInt linuxUid), ("gid", jsonInt linuxUid),
    ("student_fast_quota_bytes", jsonIntOrNull p.studentFastQuotaBytes),
    ("student_cold_quota_bytes", jsonIntOrNull p.studentColdQuotaBytes)]

/-! ## Provisioning -/

/-- Insert a placement member; placement and student have to exist. -/
def insertMember (placementId studentId : Nat) (secret : String) : Op Unit := do
  let s ← .read id
  match s.db.labPlacements.get placementId, s.db.students.get studentId with
  | some _, some _ =>
    let _ ← Slot.placementMembers.insert
      (fun i =>
        { id := i, placementId, studentId, state := .provisioning,
          credentialSecret := some secret, createdAt := s.now, updatedAt := s.now })
      fun _ => rfl
  | _, _ => throw (.sqliteError "FOREIGN KEY constraint failed")

/-- Provision one student on one placement: record the member and enqueue `student.add` with
a fresh password. A student already provisioned is skipped. -/
def provisionMemberOnPlacement (placement : Placement) (student : ProvisionStudent)
    (actor : Option String) : Op Unit := do
  let existing ← Op.query fun d => d.placementMembers.rows.any fun m =>
    m.placementId == placement.id && m.studentId == student.id
  if existing then pure ()
  else
    let password ← Op.draw Host.password
    let secret ← Op.draw fun h n => h.encryptSecret n password
    insertMember placement.id student.id secret
    let _ ← enqueueTask placement.nodeName .studentAdd
      (studentAddParams placement student.username password student.linuxUid) actor

/-- The loop of `createPlacement` over the roster, up to its first `await`. -/
def provisionRoster (placement : Placement) (students : List ProvisionStudent)
    (actor : Option String) : Op Thread :=
  match students with
  | [] => pure []
  | student :: rest => do
    provisionMemberOnPlacement placement student actor
    return [.provisionRoster placement rest actor]

/-- The loop of `addStudentToLab` and `ensurePiAccess` over the placements, up to its first
`await`. -/
def provisionOn (placements : List Placement) (student : ProvisionStudent)
    (actor : Option String) : Op Thread :=
  match placements with
  | [] => pure []
  | placement :: rest => do
    provisionMemberOnPlacement placement student actor
    return [.provisionOn rest student actor]

/-- Give one member of a placement a fresh password and enqueue its `student.add`. -/
def reprovisionMember (placement : Placement) (actor : Option String)
    (m : PlacementMemberRow × StudentRow) : Op Unit := do
  let password ← Op.draw Host.password
  let secret ← Op.draw fun h n => h.encryptSecret n password
  let now ← Op.now
  updateMember m.1.id fun r =>
    { r with
      state := .provisioning, lastError := none, credentialSecret := some secret
      updatedAt := now }
  let _ ← enqueueTask placement.nodeName .studentAdd
    (studentAddParams placement m.2.username password m.2.linuxUid) actor

/-- The members of a placement, joined with their students. -/
def Db.membersOf (d : Db) (placementId : Nat) : List (PlacementMemberRow × StudentRow) :=
  orderBy (fun m => m.2.username)
    ((d.placementMembers.select fun m => m.placementId == placementId).filterMap fun m =>
      (d.students.get m.studentId).map fun s => (m, s))

/-- Re-add every current member of a placement after its container was recreated. -/
def reprovisionPlacementMembers (placement : Placement) (actor : Option String) : Op Unit := do
  let members ← Op.query fun d => d.membersOf placement.id
  members.forM (reprovisionMember placement actor)

/-! ## Credentials -/

/-- A member row joined with everything a lookup by names compares. -/
structure JoinedMember where
  member : PlacementMemberRow
  placement : Placement
  student : StudentRow

/-- `placement_members` joined with placement, lab, node and student. -/
def Db.joinedMembers (d : Db) : List JoinedMember :=
  d.placementMembers.rows.filterMap fun m =>
    match d.getPlacement m.placementId, d.students.get m.studentId with
    | some p, some s => some ⟨m, p, s⟩
    | _, _ => none

/-- The condition `labs.name = ? AND nodes.name = ? AND students.username = ?`, with the
parameters it is given. -/
def namesMember (c : Conversions) (labName : Value) (nodeName : String) (username : Value) :
    Except Error (String → String → String → Bool) := do
  match ← bindAll 3 [labName, some (.str nodeName), username] with
  | [lab, node, user] => return fun l n u => lab.isText c l && node.isText c n && user.isText c u
  | _ => return fun _ _ _ => false

/-- The lookup of a member by names that the result path makes. -/
def Db.lookupMember (d : Db) (c : Conversions) (labName : Value) (nodeName : String)
    (username : Value) : Except Error (Option JoinedMember) := do
  let named ← namesMember c labName nodeName username
  return d.joinedMembers.find? fun m =>
    named m.placement.labName m.placement.nodeName m.student.username

def memberByNames (labName : Value) (nodeName : String) (username : Value) :
    Op (Option JoinedMember) := do
  let s ← .read id
  Op.lift (s.db.lookupMember s.host.conversions labName nodeName username)

/-- Burn a stored credential. -/
def clearCredential (memberId : Nat) : Op Unit := do
  let now ← Op.now
  updateMember memberId fun r =>
    { r with credentialSecret := none, credentialDeliveredAt := some now }

/-- Deliver the credential of an active member by mail, up to the mailer's answer. -/
def deliverPlacementCredential (labName : Value) (nodeName : String) (username : Value) :
    Op Thread := do
  match ← memberByNames labName nodeName username with
  | none => return []
  | some pending =>
    match pending.member.state, pending.member.credentialSecret, pending.student.email with
    | .active, some secret, some email =>
      let password ← .read fun s => s.host.decryptSecret secret
      if secret = "" ∨ email = "" ∨ password = "" then return []
      else
        Op.emit (.credentialMail pending.member.id pending.placement.labName
          pending.placement.nodeName pending.student.username password email)
        return [.credentialSent pending.member.id password nodeName labName username]
    | _, _, _ => return []

/-- Burn and return a provisioned member's password for a one-time reveal. -/
def consumePlacementCredential (placementId studentId : Nat) (actor : Option String) :
    Op (String × String) := do
  let row ← Op.query fun d => d.joinedMembers.find? fun m =>
    m.member.placementId == placementId && m.member.studentId == studentId
  match row with
  | none => Op.failWith "Credentials are available only after provisioning succeeds"
  | some row =>
    if row.member.state ≠ .active then
      Op.failWith "Credentials are available only after provisioning succeeds"
    else
      match row.member.credentialSecret with
      | none => Op.failWith "Credential was already delivered or revealed"
      | some secret =>
        let password ← .read fun s => s.host.decryptSecret secret
        if secret = "" then Op.failWith "Credential was already delivered or revealed"
        else if password = "" then Op.failWith "Credential could not be decrypted"
        else
          clearCredential row.member.id
          let labName := row.placement.labName
          let nodeName := row.placement.nodeName
          let username := row.student.username
          audit actor "placement.credential_reveal" (some s!"{labName}/{username}@{nodeName}") none
          Op.emit (.credentialReveal row.member.id labName nodeName username password)
          return (username, password)

/-! ## Removal -/

/-- The parameters of `student.remove`. -/
def studentRemoveParams (p : Placement) (username : String) (deleteData : Bool)
    (removal : Option (String × List String)) : Params :=
  [("lab", .str p.labName), ("username", .str username), ("delete_data", .bool deleteData)] ++
    match removal with
    | some (id, nodes) =>
      [("removal_id", .str id), ("cold_cleanup_nodes", .arr (nodes.map .str))]
    | none => []

/-- Remove one student account from one placement. -/
def removeMemberFromPlacement (placement : Placement) (studentId : Nat) (username : String)
    (deleteData : Bool) (actor : Option String) (removal : Option (String × List String)) :
    Op Unit := do
  let _ ← enqueueTask placement.nodeName .studentRemove
    (studentRemoveParams placement username deleteData removal) actor
  Slot.placementMembers.delete fun m =>
    m.placementId == placement.id && m.studentId == studentId

/-- The parameters of `student.delete_cold`. -/
def deleteColdParams (lab username removalId : Json) : Params :=
  [("lab", lab), ("username", username), ("removal_id", removalId)]

/-- Enqueue the cold cleanup of one node, unless the removal already has one there. -/
def enqueueColdCleanup (lab username removalId : Json) (requestedBy : Option String)
    (node : String) : Op Unit := do
  let s ← .read id
  let values ← Op.lift (bindAll 2 [some (.str node), some removalId])
  let cleanups ← Op.lift (s.db.taskLog.rows.filterMapM fun t =>
    if t.node = node ∧ t.action = .studentDeleteCold then
      (jsonExtract s.host.conversions t.params "removal_id").map some
    else .ok none)
  match values with
  | [_, rid] =>
    if cleanups.any fun v => v.same rid then pure ()
    else
      let _ ← enqueueTask node .studentDeleteCold (deleteColdParams lab username removalId)
        requestedBy
  | _ => pure ()

/-- The string elements of `new Set(nodes ?? [])`. -/
def coldCleanupNodes (nodes : Value) : Except Error (List String) := do
  let items ← Value.iterate (nodes.orElse (some (.arr [])))
  let names ← items.mapM fun j =>
    match Value.asString (some j) with
    | some s => .ok s
    | none => .error (.typeError "SQLite3 can only bind numbers, strings, bigints, buffers, and null")
  return names.eraseDups

/-- The states of all `student.remove` tasks of a removal. -/
def removalStates (c : Conversions) (d : Db) (removalId : SqlValue) :
    Except Error (List TaskState) := do
  let rows ← d.taskLog.rows.filterMapM fun t =>
    if t.action = .studentRemove then
      (jsonExtract c t.params "removal_id").map fun v =>
        if v.same removalId then some t.state else none
    else .ok none
  return rows

/-- Enqueue one cleanup for each locally owned cold store, but only after every placement
removal of the operation succeeded. -/
def completeStudentRemoval (taskUuid : String) : Op Unit := do
  let s ← .read id
  let task := s.db.taskLog.find fun t =>
    t.taskUuid == taskUuid && decide (t.action = .studentRemove) && decide (t.state = .ok)
  match task with
  | none => pure ()
  | some task =>
    match task.params.parse with
    | none => pure ()
    | some json =>
      let removalId ← Op.lift (Value.get (some json) "removal_id")
      let lab ← Op.lift (Value.get (some json) "lab")
      let username ← Op.lift (Value.get (some json) "username")
      if !removalId.truthy || !lab.truthy || !username.truthy then pure ()
      else
        let values ← Op.lift (bindAll 1 [removalId])
        match values with
        | [rid] =>
          let states ← Op.lift (removalStates s.host.conversions s.db rid)
          if states.isEmpty || states.any (· ≠ .ok) then pure ()
          else
            let nodes ← Op.lift (coldCleanupNodes (Value.field "cold_cleanup_nodes" json))
            nodes.forM (enqueueColdCleanup (lab.getD .null) (username.getD .null)
              (removalId.getD .null) task.requestedBy)
        | _ => pure ()

end MassDeployment
