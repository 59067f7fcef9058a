import MassDeployment.Controller.Alerts
import MassDeployment.Controller.Queue

set_option autoImplicit false

/-! # The node registry (`nodes.ts`, and the registry half of `hub.ts`)

Credentials, the allow-list, cold-storage configuration, deletion, and the `online` flag.
-/

namespace MassDeployment

open Js

/-! ## Names and credentials -/

/-- A lowercase letter or digit of `NODE_NAME_RE`. -/
def nodeNameStart (c : Char) : Bool := ('a' ≤ c && c ≤ 'z') || ('0' ≤ c && c ≤ '9')

/-- `NODE_NAME_RE = /^[a-z0-9][a-z0-9-]{0,62}$/`. -/
def isValidNodeName (name : String) : Bool :=
  match name.toList with
  | [] => false
  | c :: rest => nodeNameStart c && rest.all (fun c => nodeNameStart c || c == '-') &&
      rest.length ≤ 62

/-- The row of a node by name. -/
def Db.node (d : Db) (name : String) : Option NodeRow := d.nodes.find fun n => n.name == name

/-- Verify a hello frame's name and token; the stored hash, or the reason of the refusal. -/
def verifyNodeAuth (s : Controller) (name token : String) : Except String String :=
  if !isValidNodeName name then .error "invalid node name"
  else if token = "" then .error "missing token"
  else
    match s.db.node name with
    | none => .error "unknown or blocked node"
    | some row =>
      if !row.allowed then .error "unknown or blocked node"
      else
        match row.tokenHash with
        | none => .error "node not provisioned"
        | some hash =>
          if hash = "" then .error "node not provisioned"
          else if s.host.nodeTokenHash name token ≠ hash then .error "bad node token"
          else .ok hash

/-- Whether a live connection may stay open. -/
def Db.nodeStillAuthorized (d : Db) (name tokenHash : String) : Bool :=
  match d.node name with
  | none => false
  | some row => row.allowed && row.tokenHash == some tokenHash

theorem keeps_node (p : NodeRow → Bool) (f : NodeRow → NodeRow)
    (h : ∀ r, (f r).id = r.id ∧ (f r).name = r.name) : Row.Keeps p f :=
  ⟨fun r _ => h r, fun a _ hc => (h a).2.symm.trans hc⟩

/-- Looking a name up after an update of some rows. -/
theorem node_update (p : NodeRow → Bool) (f : NodeRow → NodeRow) (h : Row.Keeps p f)
    (hname : ∀ r, (f r).name = r.name) (s : Controller) (n : String) :
    ((Slot.nodes.update p f h).after s).db.node n =
      (s.db.node n).map fun r => if p r then f r else r := by
  refine @Table.find_update NodeRow _ s.db.nodes p (fun r => r.name == n) f h fun r _ => ?_
  rw [hname]

/-- `UPDATE nodes SET … WHERE name = ?`. -/
def updateNode (name : String) (f : NodeRow → NodeRow)
    (h : ∀ r, (f r).id = r.id ∧ (f r).name = r.name := by intro r; exact ⟨rfl, rfl⟩) : Op Unit :=
  Slot.nodes.update (fun n => n.name == name) f (keeps_node _ f h)

/-- Register (or pre-register) a node and issue it a token; returns the plaintext token. -/
def provisionNode (name : String) (actor : Option String) : Op String := do
  if isValidNodeName name then
    let token ← Op.draw Host.token
    let s ← .read id
    let hash := s.host.nodeTokenHash name token
    match s.db.node name with
    | some _ => updateNode name fun n => { n with allowed := true, tokenHash := some hash }
    | none =>
      let _ ← Slot.nodes.insert
        (fun i => { id := i, name, allowed := true, tokenHash := some hash, createdAt := s.now })
        fun _ => rfl
    audit actor "node.provision" name none
    return token
  else Op.failWith s!"invalid node name '{name}'"

/-- Rotate an existing node's token. -/
def rotateNodeToken (name : String) (actor : Option String) : Op String := do
  match ← Op.query fun d => d.node name with
  | none => Op.failWith s!"unknown node '{name}'"
  | some _ => provisionNode name actor

/-- Set (or clear) a node's alias. -/
def setNodeAlias (name newAlias : String) (actor : Option String) : Op Unit := do
  match ← Op.query fun d => d.node name with
  | none => Op.failWith s!"unknown node '{name}'"
  | some _ =>
    let trim ← .read fun s => s.host.trim
    let text := slice 64 (trim newAlias)
    let clean := if text = "" then none else some text
    updateNode name fun n => { n with nodeAlias := clean }
    audit actor "node.alias" name (some (clean.getD "(cleared)"))

/-- Remove a node from the allow-list. -/
def revokeNode (name : String) (actor : Option String) : Op Unit := do
  updateNode name fun n => { n with allowed := false }
  audit actor "node.revoke" name none

/-! ## Deletion -/

/-- `DELETE FROM lab_placements WHERE victim`, with its foreign-key actions: members, samples
and alerts go with the placement, GPU rows lose their attribution. -/
def deletePlacements (victim : PlacementRow → Bool) : Op Unit := do
  let ids ← Op.query fun d => (d.labPlacements.select victim).map PlacementRow.id
  Slot.labPlacements.delete victim
  Slot.placementMembers.delete fun m => ids.contains m.placementId
  Op.writeLists fun d =>
    { d with
      storageSamples := d.storageSamples.filter fun r => !ids.contains r.placementId
      quotaAlerts := d.quotaAlerts.filter fun r => !ids.contains r.placementId
      studentQuotaAlerts := d.studentQuotaAlerts.filter fun r => !ids.contains r.placementId
      gpuSnapshot := d.gpuSnapshot.map fun r =>
        if r.placementId.any ids.contains then { r with placementId := none } else r
      gpuEvents := d.gpuEvents.map fun r =>
        if r.placementId.any ids.contains then { r with placementId := none } else r }

/-- `DELETE FROM nodes WHERE id = ?`; placements and cold-storage clients hold it back. -/
def deleteNodeRow (nodeId : Nat) : Op Unit := do
  let referenced ← Op.query fun d =>
    d.labPlacements.rows.any (fun p => p.nodeId == nodeId) ||
      d.nodes.rows.any fun n => n.id != nodeId && n.coldOwnerNodeId == some nodeId
  if referenced then throw (.sqliteError "FOREIGN KEY constraint failed")
  else Slot.nodes.delete fun n => n.id == nodeId

/-- Permanently delete a node. `force` purges the placements of an offline node and detaches
its cold-storage clients. -/
def deleteNode (name : String) (actor : Option String) (force : Bool) : Op Unit := do
  match ← Op.query fun d => d.node name with
  | none => Op.failWith s!"unknown node '{name}'"
  | some row =>
    if force && row.online then
      Op.failWith
        s!"node '{name}' is online — remove its placements normally instead of force-deleting"
    else
      let placementCount ← Op.query fun d =>
        (d.labPlacements.select fun p => p.nodeId == row.id).length
      let dependents ← Op.query fun d => d.nodes.select fun n => n.coldOwnerNodeId == some row.id
      let names := ", ".intercalate (dependents.map NodeRow.name)
      if !force && placementCount > 0 then
        Op.failWith
          s!"node '{name}' still hosts {placementCount} lab placement(s); remove them before deleting the node"
      else if !force && dependents.length > 0 then
        Op.failWith s!"node '{name}' is the cold-storage owner for: {names}; reassign them first"
      else
        Prog.atomically do
          if force then
            deletePlacements fun p => p.nodeId == row.id
            Slot.nodes.update (fun n => n.coldOwnerNodeId == some row.id)
              (fun n => { n with coldOwnerNodeId := none, coldReady := false })
              (keeps_node _ _ fun _ => ⟨rfl, rfl⟩)
          deleteTasks fun t => t.node == name
          Op.writeLists fun d =>
            { d with gpuSnapshot := d.gpuSnapshot.filter fun g => g.node != name }
          deleteNodeRow row.id
        let purged := if placementCount > 0 then [s!"{placementCount} placement(s) purged"] else []
        let cleared :=
          if dependents.length > 0 then [s!"cold owner cleared on: {names}"] else []
        let detail := "; ".intercalate (purged ++ cleared)
        audit actor (if force then "node.force_delete" else "node.delete") name
          (if force ∧ detail ≠ "" then some detail else none)

/-! ## Cold storage -/

/-- Configure a node's cold-storage backend. -/
def setNodeColdStorage (name : String) (backend : ColdBackend) (ownerName : Option String)
    (actor : Option String) : Op Unit := do
  match ← Op.query fun d => d.node name with
  | none => Op.failWith s!"unknown node '{name}'"
  | some node =>
    let placementCount ← Op.query fun d =>
      (d.labPlacements.select fun p => p.nodeId == node.id).length
    if placementCount > 0 then
      Op.failWith
        s!"node '{name}' hosts {placementCount} placement(s); remove them before changing cold storage"
    else
      let ownerId ← coldOwner node
      Slot.nodes.update (fun n => n.id == node.id)
        (fun n => { n with coldBackend := backend, coldOwnerNodeId := ownerId })
        (keeps_node _ _ fun _ => ⟨rfl, rfl⟩)
      let backendText := backend.text
      audit actor "node.cold_storage" name
        (some (match ownerName with
          | some o => if o = "" then backendText else s!"{backendText} owner={o}"
          | none => backendText))
where
  /-- The owner an SMB client is given, after its checks. -/
  coldOwner (node : NodeRow) : Op (Option Nat) := do
    match backend with
    | .localZfs => return none
    | .smb =>
      match ownerName with
      | none => Op.failWith "an SMB node requires a cold-storage owner node"
      | some ownerText =>
        if ownerText = "" then Op.failWith "an SMB node requires a cold-storage owner node"
        else
          match ← Op.query fun d => d.node ownerText with
          | none => Op.failWith s!"unknown owner node '{ownerText}'"
          | some owner =>
            let dependents ← Op.query fun d =>
              d.nodes.select fun n => n.coldOwnerNodeId == some node.id
            let names := ", ".intercalate (dependents.map NodeRow.name)
            if owner.id = node.id then
              Op.failWith "a node cannot be its own cold-storage owner"
            else if owner.coldBackend ≠ .localZfs then
              Op.failWith s!"owner '{ownerText}' must use local ZFS cold storage"
            else if dependents.length > 0 then
              Op.failWith s!"node '{name}' is the cold owner for {names}; reassign them first"
            else return some owner.id

/-! ## The `online` flag -/

/-- Record that a node connected: insert its row, or mark it online with its capabilities. -/
def registerNode (name : String) (capabilities : Json) : Op Unit := do
  let s ← .read id
  match s.db.node name with
  | some _ =>
    updateNode name fun n =>
      { n with lastSeen := some s.now, online := true, capabilities := .text capabilities }
  | none =>
    let _ ← Slot.nodes.insert
      (fun i =>
        { id := i, name, lastSeen := some s.now, online := true
          capabilities := .text capabilities, createdAt := s.now })
      fun _ => rfl

/-- Record that a node's connection is gone. -/
def markNodeOffline (name : String) : Op Unit := do
  let now ← Op.now
  updateNode name fun n => { n with online := false, lastSeen := some now }

end MassDeployment
