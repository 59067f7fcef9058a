import MassDeployment.Controller.Calls

set_option autoImplicit false

/-! # What the rest of the controller leaves alone

Two relations that no guard matters for, carried through the controller by `FreeWalk`. No act
outside the registry of nodes changes the standing of a node (whether it is allowed, with
which token, whether it counts as online, and its cold storage). And no act at all puts a job
into a queue but with a task id that was drawn for it: a job that is in a queue was there
before, or its task is new.
-/

namespace MassDeployment

open Js Prog

/-! ## The standing of nodes -/

/-- The columns of a node's row that only the registry writes. -/
def NodeRow.standing (r : NodeRow) :
    Nat × String × Bool × Option String × Bool × ColdBackend × Option Nat :=
  (r.id, r.name, r.allowed, r.tokenHash, r.online, r.coldBackend, r.coldOwnerNodeId)

/-- The nodes and their standing are what they were. -/
def SameStanding (s s' : Controller) : Prop :=
  s'.db.nodes.rows.map NodeRow.standing = s.db.nodes.rows.map NodeRow.standing

instance : IsPreorder Controller SameStanding where
  refl _ := rfl
  trans _ _ _ h h' := h'.trans h

theorem SameStanding.of_nodes {s s' : Controller} (h : s'.db.nodes = s.db.nodes) :
    SameStanding s s' := by rw [SameStanding, h]

/-- A row has a row of the same standing before. -/
theorem SameStanding.row {s s' : Controller} (h : SameStanding s s') {r' : NodeRow}
    (hr : r' ∈ s'.db.nodes.rows) : ∃ r ∈ s.db.nodes.rows, r.standing = r'.standing := by
  have hmem : r'.standing ∈ s.db.nodes.rows.map NodeRow.standing := by
    rw [← h]
    exact List.mem_map.mpr ⟨r', hr, rfl⟩
  simpa using hmem

/-- A row has a row of the same standing after. -/
theorem SameStanding.row' {s s' : Controller} (h : SameStanding s s') {r : NodeRow}
    (hr : r ∈ s.db.nodes.rows) : ∃ r' ∈ s'.db.nodes.rows, r'.standing = r.standing := by
  have hmem : r.standing ∈ s'.db.nodes.rows.map NodeRow.standing := by
    rw [show s'.db.nodes.rows.map NodeRow.standing = _ from h]
    exact List.mem_map.mpr ⟨r, hr, rfl⟩
  simpa using hmem

/-- Looking a node up by name finds a row of the same standing. -/
theorem SameStanding.node {s s' : Controller} (h : SameStanding s s') (name : String) :
    (s'.db.node name).map NodeRow.standing = (s.db.node name).map NodeRow.standing := by
  have lookup : ∀ rows : List NodeRow, (rows.find? fun r => r.name == name).map NodeRow.standing =
      (rows.map NodeRow.standing).find? fun x => x.2.1 == name := fun rows => by
    rw [List.find?_map]
    rfl
  calc (s'.db.node name).map NodeRow.standing
      = (s'.db.nodes.rows.map NodeRow.standing).find? fun x => x.2.1 == name := lookup _
    _ = (s.db.nodes.rows.map NodeRow.standing).find? fun x => x.2.1 == name := by rw [show _ = _ from h]
    _ = (s.db.node name).map NodeRow.standing := (lookup _).symm

theorem sameStanding_updateNode (name : String) (f : NodeRow → NodeRow) (h)
    (hf : ∀ r, NodeRow.Alike r (f r)) : Respects SameStanding (updateNode name f h) := by
  intro s
  show ((s.db.nodes.rows.map fun r => if r.name == name then f r else r).map NodeRow.standing) = _
  rw [List.map_map]
  refine List.map_congr_left fun r _ => ?_
  show NodeRow.standing (if r.name == name then f r else r) = r.standing
  split
  · obtain ⟨h1, h2, h3, h4, h5⟩ := hf r
    simp only [NodeRow.standing, (h r).1, (h r).2, h1, h2, h3, h4, h5]
  · rfl

theorem sameStanding_enqueueTask (node : String) (action : Action) (params : Params)
    (requestedBy : Option String) :
    Respects SameStanding (enqueueTask node action params requestedBy) := by
  intro s
  simp only [enqueueTask]
  split <;> exact .of_nodes rfl

theorem sameStanding_claimTask (node workerId : String) :
    Respects SameStanding (claimTask node workerId) := by
  refine .bind (.read _) fun claimed => ?_
  split
  · exact .pure _
  · exact .bind (fun _ => .of_nodes rfl) fun _ => .bind (respects_lift _) fun _ => .pure _

/-- **No function outside the registry changes the standing of a node.** -/
theorem standingWalk : FreeWalk SameStanding where
  anyLists _ h s := .of_nodes (h s.db).1
  emit _ _ := .of_nodes rfl
  alertState _ _ _ := .of_nodes rfl
  gpuMailState _ _ _ := .of_nodes rfl
  draw _ _ := .of_nodes rfl
  spawn _ _ := .of_nodes rfl
  takeThread _ _ := .of_nodes rfl
  clock f h hf s := by
    obtain ⟨now, settings, -, he⟩ := hf s
    exact .of_nodes (congrArg (fun s => s.db.nodes) he)
  claimTask := sameStanding_claimTask
  ackTask _ _ _ _ := .of_nodes rfl
  retryTask _ _ _ := .bind (.read _) fun _ _ => .of_nodes rfl
  updateTasks _ _ _ _ := .of_nodes rfl
  enqueueTask := sameStanding_enqueueTask
  updateNode := sameStanding_updateNode
  labs _ _ := .of_nodes rfl
  students _ _ := .of_nodes rfl
  labMembers _ _ := .of_nodes rfl
  labPlacements _ _ := .of_nodes rfl
  placementMembers _ _ := .of_nodes rfl

/-! ## Where jobs come from -/

/-- A task whose id was drawn between `s` and `s'`. -/
def Controller.drewId (s s' : Controller) (id : String) : Prop :=
  ∃ d, s.draws ≤ d ∧ d < s'.draws ∧ id = s.host.uuid d

/-- Every job of a queue was there before, or its task id was drawn since. -/
structure Supplied (s s' : Controller) : Prop where
  host : s'.host = s.host
  draws : s.draws ≤ s'.draws
  jobs : ∀ node frame, Payload.sealed frame ∈ (s'.queues node).payloads →
    Payload.sealed frame ∈ (s.queues node).payloads ∨ s.drewId s' frame.id

namespace Supplied

theorem refl (s : Controller) : Supplied s s := ⟨rfl, le_rfl, fun _ _ h => .inl h⟩

theorem trans {s s' s'' : Controller} (h : Supplied s s') (h' : Supplied s' s'') :
    Supplied s s'' where
  host := h'.host.trans h.host
  draws := h.draws.trans h'.draws
  jobs node frame hmem := by
    rcases h'.jobs node frame hmem with hmem | ⟨d, h1, h2, h3⟩
    · rcases h.jobs node frame hmem with hmem | ⟨d, h1, h2, h3⟩
      · exact .inl hmem
      · exact .inr ⟨d, h1, h2.trans_le h'.draws, h3⟩
    · exact .inr ⟨d, h.draws.trans h1, h2, h.host ▸ h3⟩

instance : IsPreorder Controller Supplied where
  refl := refl
  trans _ _ _ := trans

/-- A write to something else than the queues. -/
theorem frame {s s' : Controller} (hh : s'.host = s.host) (hd : s.draws ≤ s'.draws)
    (hq : s'.queues = s.queues) : Supplied s s' :=
  ⟨hh, hd, fun _ _ h => .inl (hq ▸ h)⟩

/-- A write to one queue that only takes jobs away. -/
theorem writeQueue {node : String} {f : DurableQueue Payload → DurableQueue Payload} {s : Controller}
    (h : ∀ a ∈ (f (s.queues node)).payloads, a ∈ (s.queues node).payloads) :
    Supplied s ((MassDeployment.writeQueue node f).run s).2 where
  host := rfl
  draws := le_rfl
  jobs node' frame hmem := by
    left
    replace hmem : Payload.sealed frame ∈
        (if node' = node then f (s.queues node) else s.queues node').payloads := hmem
    split at hmem
    · subst node'
      exact h _ hmem
    · exact hmem

end Supplied

theorem supplied_enqueueTask (node : String) (action : Action) (params : Params)
    (requestedBy : Option String) :
    Respects Supplied (enqueueTask node action params requestedBy) := by
  intro s
  -- the job is in the queue whether or not the log takes the row
  have key : ∀ s', s'.host = s.host → s'.draws = s.draws + 1 →
      s'.queues = (s.withJob node (s.nextFrame action params requestedBy)).queues →
      Supplied s s' := by
    intro s' hh hd hq
    refine ⟨hh, by omega, fun node' frame hmem => ?_⟩
    rw [hq] at hmem
    simp only [Controller.withJob] at hmem
    split at hmem
    · subst node'
      rw [DurableQueue.payloads_enqueue] at hmem
      rcases List.mem_append.mp hmem with hmem | hmem
      · exact .inl hmem
      · cases List.mem_singleton.mp hmem
        exact .inr ⟨s.draws, le_rfl, by omega, rfl⟩
    · exact .inl hmem
  simp only [enqueueTask]
  split <;> exact key _ rfl rfl rfl

theorem supplied_claimTask (node workerId : String) :
    Respects Supplied (claimTask node workerId) := by
  intro s
  unfold claimTask
  rw [run_read_bind]
  cases hc : (s.queues node).claimOne s.now workerId with
  | none => exact .refl s
  | some claimed =>
      obtain ⟨job, queue⟩ := claimed
      refine (@Supplied.writeQueue node (fun _ => queue) s fun a ha => ?_).trans ?_
      · rwa [DurableQueue.payloads_claimOne hc] at ha
      · exact Respects.bind (respects_lift _) (fun _ => .pure _) _

/-- **Every function supplies the queues with new tasks only.** -/
theorem supplyWalk : FreeWalk Supplied where
  anyLists _ _ _ := .frame rfl le_rfl rfl
  emit _ _ := .frame rfl le_rfl rfl
  alertState _ _ _ := .frame rfl le_rfl rfl
  gpuMailState _ _ _ := .frame rfl le_rfl rfl
  draw _ _ := .frame rfl (Nat.le_succ _) rfl
  spawn _ _ := .frame rfl le_rfl rfl
  takeThread _ _ := .frame rfl le_rfl rfl
  clock f h hf s := by
    obtain ⟨now, settings, -, he⟩ := hf s
    show Supplied s (f s)
    rw [he]
    exact .frame rfl le_rfl rfl
  claimTask := supplied_claimTask
  ackTask node jobId workerId _ := Supplied.writeQueue fun a ha => by
    simp only [DurableQueue.payloads, List.mem_map] at ha ⊢
    obtain ⟨j, hj, rfl⟩ := ha
    exact ⟨j, (Table.mem_delete.mp hj).1, rfl⟩
  retryTask node jobId workerId := .bind (.read _) fun _ _ => Supplied.writeQueue fun a ha => by
    rwa [DurableQueue.payloads_retry] at ha
  updateTasks _ _ _ _ := .frame rfl le_rfl rfl
  enqueueTask := supplied_enqueueTask
  updateNode _ _ _ _ _ := .frame rfl le_rfl rfl
  labs _ _ := .frame rfl le_rfl rfl
  students _ _ := .frame rfl le_rfl rfl
  labMembers _ _ := .frame rfl le_rfl rfl
  labPlacements _ _ := .frame rfl le_rfl rfl
  placementMembers _ _ := .frame rfl le_rfl rfl

/-- **Every act supplies the queues with new tasks only.** -/
theorem supplied_step (s : Controller) (a : Act) : Supplied s (step s a) :=
  supplyWalk.anyAct (a := a) (fun _ _ => .frame rfl le_rfl rfl)
    (fun _ _ _ _ _ => .frame rfl le_rfl rfl) s

/-- An act outside the registry keeps the standing of every node. -/
theorem standing_step {s : Controller} {a : Act} (ha : ¬ a.Registry) : SameStanding s (step s a) :=
  standingWalk.act ha s

end MassDeployment
