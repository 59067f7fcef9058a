import MassDeployment.Controller.Members
import MassDeployment.Controller.Nodes

set_option autoImplicit false

/-! # Lab placements (`placements.ts`)

One logical lab running on one node: creation, quota changes, recreation, retry, teardown,
and the marks the result path makes.
-/

namespace MassDeployment

open Js

theorem keeps_placement (p : PlacementRow → Bool) (f : PlacementRow → PlacementRow)
    (h : ∀ r, (f r).id = r.id ∧ (f r).labId = r.labId ∧ (f r).nodeId = r.nodeId ∧
      (f r).sshPort = r.sshPort) : Row.Keeps p f where
  grows r _ := ⟨(h r).1, (h r).2.1, (h r).2.2.1⟩
  clash a _ hc := by
    obtain ⟨_, h2, h3, h4⟩ := h a
    exact ⟨h3.symm.trans hc.1, hc.2.imp h2.symm.trans h4.symm.trans⟩

/-- `UPDATE lab_placements SET … WHERE id = ?`. -/
def updatePlacement (id : Nat) (f : PlacementRow → PlacementRow)
    (h : ∀ r, (f r).id = r.id ∧ (f r).labId = r.labId ∧ (f r).nodeId = r.nodeId ∧
      (f r).sshPort = r.sshPort := by intro r; exact ⟨rfl, rfl, rfl, rfl⟩) : Op Unit :=
  Slot.labPlacements.update (fun p => p.id == id) f (keeps_placement _ f h)

def touch (placementId : Nat) : Op Unit := do
  let now ← Op.now
  updatePlacement placementId fun p => { p with updatedAt := now }

/-! ## Creation -/

/-- Enqueue `lab.create` with the placement's authoritative settings. -/
def enqueuePlacementCreate (p : Placement) (actor : Option String) : Op Unit := do
  let _ ← enqueueTask p.nodeName .labCreate
    [("lab", .str p.labName), ("fast_quota_bytes", jsonInt p.fastQuotaBytes),
      ("slow_quota_bytes", jsonInt (p.coldQuotaBytes.getD 0)),
      ("student_fast_quota_bytes", jsonIntOrNull p.studentFastQuotaBytes),
      ("student_cold_quota_bytes", jsonIntOrNull p.studentColdQuotaBytes),
      ("image", .str p.image), ("ssh_port", jsonInt p.sshPort),
      ("container_options", taskContainerOptions p)]
    actor

structure CreatePlacementInput where
  labId : Nat
  nodeId : Nat
  fastQuotaBytes : Int
  /-- `none` for SMB-client placements. -/
  coldQuotaBytes : Option Int
  studentFastQuotaBytes : Option Int
  studentColdQuotaBytes : Option Int
  sshPort : Nat
  image : String
  containerOptions : ContainerOptions

/-- `Number.isInteger(v)`, and the integer. -/
def integerOf (v : Value) : Option Int :=
  match v.asNumber with
  | some (.fin q) => if q.den = 1 then some q.num else none
  | _ => none

/-- The Docker user-namespace mapping in a node's reported capabilities. -/
def usernsMapping (capabilities : JsonText) : Option (Int × Int) :=
  match capabilities.parse with
  | none | some .null => none
  | some json =>
    let runtime := Value.field "runtime" json
    match integerOf (runtime.getOpt "userns_start"), integerOf (runtime.getOpt "userns_size") with
    | some start, some size => some (start, size)
    | _, _ => none

/-- The assignment rules of an SMB client: its owner hosts the lab, is active, the mount is
live, and both report the same user-namespace mapping. -/
def checkSmbClient (labId : Nat) (node : NodeRow) : Op Unit := do
  let nodeName := node.name
  match node.coldOwnerNodeId with
  | none =>
    Op.failWith
      s!"node '{nodeName}' is an SMB client without a cold-storage owner — configure it on the Nodes page"
  | some ownerId =>
    match ← Op.query fun d => d.nodes.get ownerId with
    | none => throw (.typeError "Cannot read properties of undefined (reading 'name')")
    | some owner =>
      let ownerName := owner.name
      match ← Op.query fun d =>
        d.labPlacements.find fun p => p.labId == labId && p.nodeId == ownerId with
      | none =>
        Op.failWith
          s!"grant the cold-storage owner '{ownerName}' access to this lab first (its cold dataset must exist before an SMB client)"
      | some ownerPlacement =>
        let ownerState := ownerPlacement.state.text
        if ownerPlacement.state ≠ .active then
          Op.failWith
            s!"the owner '{ownerName}' placement is '{ownerState}'; wait until it is active before adding the SMB client"
        else if !node.coldReady then
          Op.failWith s!"the SMB cold-storage mount on '{nodeName}' is not an active mount yet"
        else
          let clientMapping := usernsMapping node.capabilities
          if clientMapping.isNone || clientMapping != usernsMapping owner.capabilities then
            Op.failWith
              s!"SMB client '{nodeName}' and owner '{ownerName}' must report the same Docker userns numeric mapping"
          else pure ()

/-- A per-student quota is positive and within the placement's. -/
def studentQuotaWithin (studentQuota quota : Int) : Bool := 0 < studentQuota && studentQuota ≤ quota

/-- Insert a placement row; lab and node have to exist. -/
def insertPlacement (labId nodeId : Nat) (mk : Nat → PlacementRow) (hmk : ∀ i, (mk i).id = i) :
    Op Nat := do
  let s ← .read id
  match s.db.labs.get labId, s.db.nodes.get nodeId with
  | some _, some _ => Slot.labPlacements.insert mk hmk
  | _, _ => throw (.sqliteError "FOREIGN KEY constraint failed")

/-- The new placement row. -/
def CreatePlacementInput.row (input : CreatePlacementInput)
    (coldQuota studentColdQuota : Option Int) (now id : Nat) : PlacementRow :=
  { id, labId := input.labId, nodeId := input.nodeId, fastQuotaBytes := input.fastQuotaBytes
    coldQuotaBytes := coldQuota, studentFastQuotaBytes := input.studentFastQuotaBytes
    studentColdQuotaBytes := studentColdQuota, sshPort := input.sshPort, image := input.image
    containerOptions := input.containerOptions, state := .provisioning
    createdAt := now, updatedAt := now }

/-- Grant a lab access to a node: insert the placement, enqueue `lab.create`, then provision
every current roster member, up to the first `await`. -/
def createPlacement (input : CreatePlacementInput) (actor : Option String) : Op Thread := do
  match ← Op.query fun d => d.nodes.get input.nodeId with
  | none => Op.failWith "Unknown node"
  | some node =>
    validateContainerConfig input.image input.containerOptions
    checkColdStorage node
    let smb := decide (node.coldBackend = .smb)
    let coldQuota := if smb then none else input.coldQuotaBytes
    let studentColdQuota := if smb then none else input.studentColdQuotaBytes
    if input.studentFastQuotaBytes.any fun q => !studentQuotaWithin q input.fastQuotaBytes then
      Op.failWith
        "Per-student fast quota must be positive and cannot exceed the placement fast quota"
    else if studentColdQuota.any fun q => coldQuota.any fun c => !studentQuotaWithin q c then
      Op.failWith
        "Per-student cold quota must be positive and cannot exceed the placement cold quota"
    else
      let now ← Op.now
      let id ← insertPlacement input.labId input.nodeId
        (input.row coldQuota studentColdQuota now) fun _ => rfl
      match ← Op.query fun d => d.getPlacement id with
      | none => throw (.typeError "Cannot read properties of undefined (reading 'node_name')")
      | some placement =>
        enqueuePlacementCreate placement actor
        let labName := placement.labName
        let nodeName := placement.nodeName
        audit actor "placement.create" (some s!"{labName}@{nodeName}") none
        let roster ← Op.query fun d =>
          (orderBy StudentRow.username (d.roster input.labId)).map ProvisionStudent.ofRow
        provisionRoster placement roster actor
where
  /-- The rules of the node's cold-storage backend. -/
  checkColdStorage (node : NodeRow) : Op Unit :=
    if node.coldBackend = .smb then checkSmbClient input.labId node
    else if input.coldQuotaBytes.isNone then
      Op.failWith "a local-ZFS placement requires a cold quota"
    else pure ()

/-! ## Quota changes and recreation -/

/-- One pool size of the latest heartbeat. -/
def poolSize (v : Option Json) : Option Number :=
  v.bind fun j => Value.asNumber (Value.field "size" j)

/-- The node's pool sizes; `none` for a pool that was not reported. -/
def Db.nodePoolCapacityBytes (d : Db) (nodeId : Nat) : Option Number × Option Number :=
  match (d.nodes.get nodeId).bind fun n => n.pools.parse with
  | some (.arr pools) => (poolSize pools[0]?, poolSize pools[1]?)
  | _ => (none, none)

/-- `quota > capacity`, for a capacity that was reported. -/
def exceeds (quota : Option Int) (capacity : Option Number) : Bool :=
  match quota, capacity with
  | some q, some c => c.lt (q : Number)
  | _, _ => false

/-- A live quota change. `none` leaves a quota as it is; `some none` clears the cold quota. -/
def updatePlacementQuota (placementId : Nat) (fastQuotaBytes : Option Int)
    (coldQuotaBytes : Option (Option Int)) (actor : Option String) : Op Unit := do
  match ← Op.query fun d => d.getPlacement placementId with
  | none => Op.failWith "Unknown placement"
  | some p =>
    let (fastCapacity, coldCapacity) ← Op.query fun d => d.nodePoolCapacityBytes p.nodeId
    let nodeName := p.nodeName
    if exceeds fastQuotaBytes fastCapacity then
      let quota := fmtBytes ((fastQuotaBytes.getD 0 : Int) : Number)
      let capacity := fmtBytes (fastCapacity.getD 0)
      Op.failWith s!"Fast quota {quota} exceeds node '{nodeName}'s fast pool capacity of {capacity}"
    else if exceeds coldQuotaBytes.join coldCapacity then
      let quota := fmtBytes ((coldQuotaBytes.join.getD 0 : Int) : Number)
      let capacity := fmtBytes (coldCapacity.getD 0)
      Op.failWith s!"Cold quota {quota} exceeds node '{nodeName}'s cold pool capacity of {capacity}"
    else
      fastQuotaBytes.forM fun q =>
        updatePlacement placementId fun r => { r with fastQuotaBytes := q }
      coldQuotaBytes.forM fun q =>
        updatePlacement placementId fun r => { r with coldQuotaBytes := q }
      touch placementId
      let params : Params :=
        [("lab", .str p.labName)] ++
          (fastQuotaBytes.map fun q => ("fast_quota_bytes", jsonInt q)).toList ++
          (coldQuotaBytes.join.map fun q => ("slow_quota_bytes", jsonInt q)).toList
      let _ ← enqueueTask p.nodeName .labSetQuota params actor
      let jsonText ← .read fun s => s.host.conversions.jsonText
      let labName := p.labName
      audit actor "placement.set_quota" (some s!"{labName}@{nodeName}") (some (jsonText (.obj params)))

structure RecreateInput where
  image : Option String := none
  containerOptions : Option ContainerOptions := none
  studentFastQuotaBytes : Option (Option Int) := none
  studentColdQuotaBytes : Option (Option Int) := none

/-- The columns `recreatePlacement` writes before it enqueues. -/
def RecreateInput.apply (input : RecreateInput) (p : PlacementRow) : PlacementRow :=
  { p with
    image := input.image.getD p.image
    containerOptions := input.containerOptions.getD p.containerOptions
    studentFastQuotaBytes := input.studentFastQuotaBytes.getD p.studentFastQuotaBytes
    studentColdQuotaBytes := input.studentColdQuotaBytes.getD p.studentColdQuotaBytes }

/-- Recreate the container with a (possibly changed) image and options, and re-add every
member. -/
def recreatePlacement (placementId : Nat) (input : RecreateInput) (actor : Option String) :
    Op Unit := do
  match ← Op.query fun d => d.getPlacement placementId with
  | none => Op.failWith "Unknown placement"
  | some p =>
    validateContainerConfig (input.image.getD p.image)
      (input.containerOptions.getD p.containerOptions)
    if input.studentFastQuotaBytes.join.any fun q => !studentQuotaWithin q p.fastQuotaBytes then
      Op.failWith
        "Per-student fast quota must be positive and cannot exceed the placement fast quota"
    else if p.nodeColdBackend = .smb ∧ input.studentColdQuotaBytes.join.isSome then
      Op.failWith "Per-student cold quota is managed by the SMB owner placement"
    else if input.studentColdQuotaBytes.join.any fun q =>
        p.coldQuotaBytes.any fun c => !studentQuotaWithin q c then
      Op.failWith
        "Per-student cold quota must be positive and cannot exceed the placement cold quota"
    else
      updatePlacement placementId input.apply
      touch placementId
      updatePlacement placementId fun r => { r with completionEmailSentAt := none }
      match ← Op.query fun d => d.getPlacement placementId with
      | none => throw (.typeError "Cannot read properties of undefined (reading 'node_name')")
      | some fresh =>
        let _ ← enqueueTask fresh.nodeName .containerRecreate
          [("lab", .str fresh.labName), ("image", .str fresh.image),
            ("ssh_port", jsonInt fresh.sshPort),
            ("container_options", taskContainerOptions fresh),
            ("student_fast_quota_bytes", jsonIntOrNull fresh.studentFastQuotaBytes),
            ("student_cold_quota_bytes", jsonIntOrNull fresh.studentColdQuotaBytes)]
          actor
        reprovisionPlacementMembers fresh actor
        let labName := fresh.labName
        let nodeName := fresh.nodeName
        audit actor "placement.recreate" (some s!"{labName}@{nodeName}") none

/-- Retry a failed `lab.create`. -/
def retryPlacement (placementId : Nat) (actor : Option String) : Op Unit := do
  match ← Op.query fun d => d.getPlacement placementId with
  | none => Op.failWith "Unknown placement"
  | some p =>
    if p.state ≠ .failed then Op.failWith "Only a failed placement can be retried"
    else
      let now ← Op.now
      updatePlacement placementId fun r =>
        { r with state := .provisioning, lastError := none, updatedAt := now }
      enqueuePlacementCreate p actor
      let labName := p.labName
      let nodeName := p.nodeName
      audit actor "placement.retry" (some s!"{labName}@{nodeName}") none

/-! ## Teardown -/

/-- Refuse to tear down a placement that owns the cold storage of live SMB clients. -/
def assertNoSmbDependents (p : Placement) : Op Unit :=
  if p.nodeColdBackend ≠ .localZfs then pure ()
  else do
    let dependents ← Op.query fun d => d.placements.filter fun q =>
      q.labId == p.labId && q.nodeColdOwnerNodeId == some p.nodeId && q.state != .deleting
    if dependents.isEmpty then pure ()
    else
      let labName := p.labName
      let nodeName := p.nodeName
      let names := ", ".intercalate (dependents.map Placement.nodeName)
      Op.failWith
        s!"'{labName}' on '{nodeName}' owns the shared cold storage for SMB client(s): {names} — remove those placements first"

/-- Tear a placement down: mark it `deleting` and enqueue `lab.destroy`. The row is kept until
the agent confirms. -/
def destroyPlacement (placementId : Nat) (actor : Option String) : Op Unit := do
  match ← Op.query fun d => d.getPlacement placementId with
  | none => pure ()
  | some p =>
    assertNoSmbDependents p
    let now ← Op.now
    updatePlacement placementId fun r => { r with state := .deleting, updatedAt := now }
    let _ ← enqueueTask p.nodeName .labDestroy [("lab", .str p.labName)] actor
    let labName := p.labName
    let nodeName := p.nodeName
    audit actor "placement.destroy" (some s!"{labName}@{nodeName}") none

/-- Force-remove a placement whose node is offline, without waiting for the agent. -/
def forceDeletePlacement (placementId : Nat) (actor : Option String) : Op Unit := do
  match ← Op.query fun d => d.getPlacement placementId with
  | none => pure ()
  | some p =>
    let labName := p.labName
    let nodeName := p.nodeName
    if p.online then
      Op.failWith
        s!"node '{nodeName}' is online — use the normal remove so its container and data are torn down cleanly"
    else
      assertNoSmbDependents p
      let _ ← enqueueTask p.nodeName .labDestroy [("lab", .str p.labName)] actor
      deletePlacements fun r => r.id == placementId
      audit actor "placement.force_delete" (some s!"{labName}@{nodeName}") none

/-! ## Marks of the result path -/

/-- A placement with a lifecycle state and an error. -/
def PlacementRow.marked (state : PlacementState) (lastError : Option String) (now : Nat)
    (r : PlacementRow) : PlacementRow :=
  { r with state := state, lastError := lastError, updatedAt := now }

/-- A member with a lifecycle state and an error. -/
def PlacementMemberRow.marked (state : MemberState) (lastError : Option String) (now : Nat)
    (r : PlacementMemberRow) : PlacementMemberRow :=
  { r with state := state, lastError := lastError, updatedAt := now }

/-- Set a placement's lifecycle state and error by id. -/
def markPlacementState (placementId : Nat) (state : PlacementState) (lastError : Option String) :
    Op Unit := do
  let now ← Op.now
  updatePlacement placementId (PlacementRow.marked state lastError now)

/-- Set a placement's state by lab and node name. -/
def markPlacementStateByLabNode (labName : Value) (nodeName : String) (state : PlacementState)
    (lastError : Option String) : Op Unit := do
  match ← getPlacementByLabNode labName nodeName with
  | none => pure ()
  | some p => markPlacementState p.id state lastError

/-- Set a placement member's state by lab, node and user name. -/
def markPlacementMemberState (labName : Value) (nodeName : String) (username : Value)
    (state : MemberState) (lastError : Option String) : Op Unit := do
  match ← memberByNames labName nodeName username with
  | none => pure ()
  | some m =>
    let now ← Op.now
    updateMember m.member.id (PlacementMemberRow.marked state lastError now)

/-- The agent confirmed a `lab.destroy`: drop the row, if it is still `deleting`. -/
def confirmPlacementDestroyed (labName : Value) (nodeName : String) : Op Unit := do
  match ← getPlacementByLabNode labName nodeName with
  | none => pure ()
  | some p =>
    if p.state = .deleting then deletePlacements fun r => r.id == p.id
    else pure ()

/-! ## Completion mail -/

/-- The roster of a placement's members, with their states. -/
def Db.memberStates (d : Db) (placementId : Nat) : List (String × MemberState) :=
  (d.membersOf placementId).map fun m => (m.2.username, m.1.state)

/-- Send the PI one completion message once the placement and every account are active, up to
the mailer's answer. The claim of the timestamp follows its check without an `await`, so the
`WHERE completion_email_sent_at IS NULL` of the claim always matches. -/
def maybeDeliverPlacementCompletion (labName : Value) (nodeName : String) : Op Thread := do
  match ← getPlacementByLabNode labName nodeName with
  | none => return []
  | some row =>
    let s ← .read id
    let lab := s.db.labs.get row.labId
    let piEmail := lab.bind LabRow.piEmail
    let pi := (lab.bind LabRow.piStudentId).bind s.db.students.get
    match piEmail, pi with
    | some email, some _ =>
      let members := s.db.memberStates row.id
      if row.state ≠ .active ∨ row.completionEmailSentAt ≠ none ∨ email = "" then return []
      else if members.isEmpty ∨ members.any (fun m => m.2 ≠ .active) then return []
      else
        updatePlacement row.id fun r => { r with completionEmailSentAt := some (-1) }
        Op.emit (.completionMail row.id row.labName nodeName email (members.map Prod.fst))
        return [.completionSent row.id nodeName labName]
    | _, _ => return []

end MassDeployment
