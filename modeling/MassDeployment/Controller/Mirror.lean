import MassDeployment.Controller.Steady
import MassDeployment.Controller.Removals

set_option autoImplicit false

/-! # The log and the tasks behind it

`task_log` mirrors the queues: every row is that of a task that was issued, and a task that
was issued keeps its row until its node is deleted. Whatever the controller computes from the
log is thereby about the tasks themselves. This holds in every run; the parameters a removal
or a cold deletion was issued with are part of it.
-/

namespace MassDeployment

open Js Prog

/-! ## Every task has its row -/

/-- Every task issued for a node in `K` has its row. -/
def Controller.Mirrors (K : String → Prop) (s : Controller) : Prop :=
  ∀ x ∈ s.issued, K x.1 → ∃ t ∈ s.db.taskLog.rows, t.node = x.1 ∧ x.2.Issues t

theorem TaskFrame.Issues.grows {frame : TaskFrame} {t t' : TaskRow} (h : frame.Issues t)
    (hg : t.Grows t') : frame.Issues t' :=
  ⟨hg.taskUuid.trans h.taskUuid, hg.action.trans h.action, hg.params.trans h.params⟩

section

variable {K : String → Prop}

theorem mirrors_congr {s s' : Controller} (ht : s'.db.taskLog = s.db.taskLog)
    (hi : s'.issued = s.issued) : Keeping (Controller.Mirrors K) s s' := by
  intro h x hx hk
  rw [ht]
  exact h x (hi ▸ hx) hk

theorem mirrors_writeLists (f : Db → Db) (h) :
    Respects (Keeping (Controller.Mirrors K)) (Op.writeLists f h) :=
  fun s => mirrors_congr (h s.db).2.2.2.2.2.2 rfl

theorem mirrors_updateTasks (p : TaskRow → Bool) (f : TaskRow → TaskRow) (h : Row.Keeps p f) :
    Respects (Keeping (Controller.Mirrors K)) (updateTasks p f h) := by
  intro s hs x hx hk
  obtain ⟨t, ht, hnode, hissues⟩ := hs x hx hk
  refine ⟨_, List.mem_map.mpr ⟨t, ht, rfl⟩, ?_⟩
  split
  · have hg : t.Grows (f t) := h.grows t ‹_›
    exact ⟨hg.node.trans hnode, hissues.grows hg⟩
  · exact ⟨hnode, hissues⟩

theorem mirrors_enqueueTask (node : String) (action : Action) (params : Params)
    (requestedBy : Option String) :
    Respects (Keeping (Controller.Mirrors K)) (enqueueTask node action params requestedBy) := by
  intro s hs x hx hk
  rcases enqueueTask_run node action params requestedBy s with
    ⟨T, s', hT, hrun, hdb, _, _, hissued, _⟩ | ⟨e, s', _, hrun, hdb, hissued⟩
  · rw [hrun] at hx ⊢
    rw [hdb]
    rw [hissued] at hx
    obtain ⟨hrows, _⟩ := Table.insert_eq_some hT
    show ∃ t ∈ T.rows, _
    rw [hrows]
    rcases List.mem_cons.mp hx with rfl | hx
    · exact ⟨_, List.mem_append_right _ (List.mem_singleton_self _), rfl, rfl, rfl, rfl⟩
    · obtain ⟨t, ht, h⟩ := hs x hx hk
      exact ⟨t, List.mem_append_left _ ht, h⟩
  · rw [hrun] at hx ⊢
    rw [hdb]
    exact hs x (hissued ▸ hx) hk

theorem mirrors_claimTask (node workerId : String) :
    Respects (Keeping (Controller.Mirrors K)) (claimTask node workerId) := by
  refine .bind (.read _) fun claimed => ?_
  split
  · exact .pure _
  · exact .bind (fun _ => mirrors_congr rfl rfl) fun _ => .bind (respects_lift _) fun _ => .pure _

theorem mirrorWalk : FreeWalk (Keeping (Controller.Mirrors K)) where
  anyLists := mirrors_writeLists
  emit _ _ := mirrors_congr rfl rfl
  alertState _ _ _ := mirrors_congr rfl rfl
  gpuMailState _ _ _ := mirrors_congr rfl rfl
  draw _ _ := mirrors_congr rfl rfl
  spawn _ _ := mirrors_congr rfl rfl
  takeThread _ _ := mirrors_congr rfl rfl
  clock f h hf s := by
    obtain ⟨now, settings, -, he⟩ := hf s
    show Keeping _ s (f s)
    rw [he]
    exact mirrors_congr rfl rfl
  claimTask := mirrors_claimTask
  ackTask _ _ _ _ := mirrors_congr rfl rfl
  retryTask _ _ _ := .bind (.read _) fun _ _ => mirrors_congr rfl rfl
  updateTasks := mirrors_updateTasks
  enqueueTask := mirrors_enqueueTask
  updateNode _ _ _ _ _ := mirrors_congr rfl rfl
  labs _ _ := mirrors_congr rfl rfl
  students _ _ := mirrors_congr rfl rfl
  labMembers _ _ := mirrors_congr rfl rfl
  labPlacements _ _ := mirrors_congr rfl rfl
  placementMembers _ _ := mirrors_congr rfl rfl

/-- A step keeps the rows of the nodes it does not delete. -/
theorem mirrors_step {s : Controller} (h : s.Mirrors K) {a : Act}
    (ha : ∀ name actor force, a = .deleteNode name actor force → ¬ K name) :
    (step s a).Mirrors K := by
  refine mirrorWalk.anyAct (a := a) (fun _ _ => mirrors_congr rfl rfl) ?_ s h
  intro name actor force he s hs x hx hk
  obtain ⟨t, ht, hnode, hissues⟩ := hs x hx hk
  refine ⟨t, Table.mem_delete.mpr ⟨ht, ?_⟩, hnode, hissues⟩
  have hne : t.node ≠ name := fun h => ha name actor force he (h ▸ hnode ▸ hk)
  simpa using hne

end

/-! ## Task ids are unique -/

/-- The tasks that were issued have different ids, drawn so far. -/
structure Numbered (s : Controller) : Prop where
  drawn : ∀ x ∈ s.issued, ∃ d < s.draws, x.2.id = s.host.uuid d
  distinct : s.issued.Pairwise fun x y => x.2.id ≠ y.2.id

theorem numbered_congr {s s' : Controller} (hh : s'.host = s.host) (hd : s.draws ≤ s'.draws)
    (hi : s'.issued = s.issued) : Keeping Numbered s s' := by
  intro h
  refine ⟨fun x hx => ?_, hi ▸ h.distinct⟩
  obtain ⟨d, hlt, he⟩ := h.drawn x (hi ▸ hx)
  exact ⟨d, hlt.trans_le hd, hh ▸ he⟩

theorem numbered_enqueueTask (node : String) (action : Action) (params : Params)
    (requestedBy : Option String) :
    Respects (Keeping Numbered) (enqueueTask node action params requestedBy) := by
  intro s h
  simp only [enqueueTask]
  split
  · refine ⟨fun x hx => ?_, List.pairwise_cons.mpr ⟨fun x hx he => ?_, h.distinct⟩⟩
    · rcases List.mem_cons.mp hx with rfl | hx
      · exact ⟨s.draws, Nat.lt_succ_self _, rfl⟩
      · obtain ⟨d, hlt, he⟩ := h.drawn x hx
        exact ⟨d, hlt.trans (Nat.lt_succ_self _), he⟩
    · obtain ⟨d, hlt, hid⟩ := h.drawn x hx
      have := s.host.uuid_injective _ _ ((show s.host.uuid s.draws = x.2.id from he).trans hid)
      omega
  · exact numbered_congr (s := s) rfl (Nat.le_succ _) rfl h

theorem numberWalk : FreeWalk (Keeping Numbered) where
  anyLists _ _ _ := numbered_congr rfl le_rfl rfl
  emit _ _ := numbered_congr rfl le_rfl rfl
  alertState _ _ _ := numbered_congr rfl le_rfl rfl
  gpuMailState _ _ _ := numbered_congr rfl le_rfl rfl
  draw _ _ := numbered_congr rfl (Nat.le_succ _) rfl
  spawn _ _ := numbered_congr rfl le_rfl rfl
  takeThread _ _ := numbered_congr rfl le_rfl rfl
  clock f h hf s := by
    obtain ⟨now, settings, -, he⟩ := hf s
    show Keeping _ s (f s)
    rw [he]
    exact numbered_congr rfl le_rfl rfl
  claimTask node workerId := by
    refine .bind (.read _) fun claimed => ?_
    split
    · exact .pure _
    · exact .bind (fun _ => numbered_congr rfl le_rfl rfl) fun _ =>
        .bind (respects_lift _) fun _ => .pure _
  ackTask _ _ _ _ := numbered_congr rfl le_rfl rfl
  retryTask _ _ _ := .bind (.read _) fun _ _ => numbered_congr rfl le_rfl rfl
  updateTasks _ _ _ _ := numbered_congr rfl le_rfl rfl
  enqueueTask := numbered_enqueueTask
  updateNode _ _ _ _ _ := numbered_congr rfl le_rfl rfl
  labs _ _ := numbered_congr rfl le_rfl rfl
  students _ _ := numbered_congr rfl le_rfl rfl
  labMembers _ _ := numbered_congr rfl le_rfl rfl
  labPlacements _ _ := numbered_congr rfl le_rfl rfl
  placementMembers _ _ := numbered_congr rfl le_rfl rfl

theorem numbered_step {s : Controller} (h : Numbered s) (a : Act) : Numbered (step s a) :=
  numberWalk.anyAct (a := a) (fun _ _ => numbered_congr rfl le_rfl rfl)
    (fun _ _ _ _ _ => numbered_congr rfl le_rfl rfl) s h

/-- A task is known by its id. -/
theorem Numbered.eq_of_id {s : Controller} (h : Numbered s) {x y : String × TaskFrame}
    (hx : x ∈ s.issued) (hy : y ∈ s.issued) (hid : x.2.id = y.2.id) : x = y := by
  by_contra hne
  rcases List.pairwise_iff_getElem.mp h.distinct with hp
  obtain ⟨i, hi, rfl⟩ := List.getElem_of_mem hx
  obtain ⟨j, hj, rfl⟩ := List.getElem_of_mem hy
  rcases Nat.lt_trichotomy i j with hlt | rfl | hlt
  · exact hp i j hi hj hlt hid
  · exact hne rfl
  · exact hp j i hj hi hlt hid.symm

end MassDeployment
