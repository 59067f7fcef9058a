import MassDeployment.Controller.Acts

set_option autoImplicit false

/-! # The lifecycle of a task

What the arrow of time says about `task_log` over whole runs: a row only moves forward and
its verdict is final, and of all the result frames that name a task at most one takes
effect. The key to the second half is that task ids are drawn, never chosen: no later row
can carry the id of a task that was settled.
-/

namespace MassDeployment

/-! ## Rows across a step -/

/-- Every task id in the log was drawn. -/
def Drawn (s : Controller) : Prop :=
  ∀ t ∈ s.db.taskLog.rows, ∃ d < s.draws, t.taskUuid = s.host.uuid d

/-- The task id was drawn, and no task under it is open. -/
def Spent (taskUuid : String) (s : Controller) : Prop :=
  (∃ d < s.draws, taskUuid = s.host.uuid d) ∧
    ∀ t ∈ s.db.taskLog.rows, t.taskUuid = taskUuid → t.state.terminal = true

/-- **Where a row comes from.** A row of the log was there before and has grown, or its task
id was drawn since. -/
theorem Controller.Evolves.row {s s' : Controller} (h : s.Evolves s') {t' : TaskRow}
    (ht' : t' ∈ s'.db.taskLog.rows) :
    (∃ t ∈ s.db.taskLog.rows, t.Grows t') ∨
      ∃ d, s.draws ≤ d ∧ d < s'.draws ∧ t'.taskUuid = s.host.uuid d := by
  by_cases hle : t'.id ≤ s.db.taskLog.seq
  · exact .inl (h.taskLog.grows t' ht' hle)
  · obtain ⟨new, _, hdrawn, hrows⟩ := h.issued
    obtain ⟨frame, hmem, hf⟩ := hrows t' ht' (Nat.not_le.mp hle)
    obtain ⟨d, h1, h2, h3⟩ := hdrawn _ hmem
    exact .inr ⟨d, h1, h2, hf.taskUuid.trans h3⟩

theorem Drawn.evolves {s s' : Controller} (hs : Drawn s) (h : s.Evolves s') : Drawn s' := by
  intro t' ht'
  rw [h.host]
  rcases h.row ht' with ⟨t, ht, hg⟩ | ⟨d, _, h2, h3⟩
  · obtain ⟨d, hd, he⟩ := hs t ht
    exact ⟨d, hd.trans_le h.draws, hg.taskUuid.trans he⟩
  · exact ⟨d, h2, h3⟩

theorem Spent.evolves {taskUuid : String} {s s' : Controller} (hs : Spent taskUuid s)
    (h : s.Evolves s') : Spent taskUuid s' := by
  obtain ⟨⟨d, hd, he⟩, hterm⟩ := hs
  refine ⟨⟨d, hd.trans_le h.draws, by rw [h.host, he]⟩, fun t' ht' hu => ?_⟩
  rcases h.row ht' with ⟨t, ht, hg⟩ | ⟨d', h1, _, h3⟩
  · have ht := hterm t ht (hg.taskUuid ▸ hu)
    rw [(hg.final ht).1]
    exact ht
  · -- a draw is made once, so a fresh id is not the spent one
    have : d = d' := s.host.uuid_injective d d' (by rw [← he, ← h3, hu])
    omega

/-- No row carries the id of a task before it is issued. -/
theorem issued_fresh {s base : Controller} (hd : Drawn s) (h : s.Evolves base) {node : String}
    {task : TaskFrame} (hi : base.issued = (node, task) :: s.issued) {t : TaskRow}
    (ht : t ∈ s.db.taskLog.rows) : t.taskUuid ≠ task.id := by
  intro hu
  obtain ⟨new, hnew, hdrawn, _⟩ := h.issued
  have : new = [(node, task)] :=
    List.append_cancel_right (hnew.symm.trans (hi.trans (List.singleton_append).symm))
  subst this
  obtain ⟨d, hd₁, _, hid⟩ := hdrawn _ (List.mem_singleton_self _)
  obtain ⟨d', hd', hid'⟩ := hd t ht
  have := s.host.uuid_injective d d' (by rw [← hid, ← hid', hu])
  omega

/-- A row that carries the id of a task is the row of that task. -/
theorem issued_task {s base s' : Controller} (hd : Drawn s) (h : s.Evolves base) {node : String}
    {task : TaskFrame} (hi : base.issued = (node, task) :: s.issued) (h' : base.Evolves s')
    {t : TaskRow} (ht : t ∈ s'.db.taskLog.rows) (hu : t.taskUuid = task.id) :
    t.node = node ∧ task.Issues t := by
  obtain ⟨new, hnew, hdrawn, hrows⟩ := h.issued
  have : new = [(node, task)] :=
    List.append_cancel_right (hnew.symm.trans (hi.trans (List.singleton_append).symm))
  subst this
  obtain ⟨d, hd₁, hd₂, hid⟩ := hdrawn _ (List.mem_singleton_self _)
  rcases h'.row ht with ⟨b, hb, hg⟩ | ⟨d', hd', _, hid'⟩
  · have hbu : b.taskUuid = task.id := hg.taskUuid.symm.trans hu
    by_cases hle : b.id ≤ s.db.taskLog.seq
    · obtain ⟨a, ha, hga⟩ := h.taskLog.grows b hb hle
      have hga : a.Grows b := hga
      exact absurd (hga.taskUuid.symm.trans hbu) (issued_fresh hd h hi ha)
    · obtain ⟨frame, hmem, hf⟩ := hrows b hb (Nat.not_le.mp hle)
      cases List.mem_singleton.mp hmem
      exact ⟨hg.node, hu, hg.action.trans hf.action, hg.params.trans hf.params⟩
  · -- a later row has a later id
    rw [h.host] at hid'
    have := s.host.uuid_injective d d' (by rw [← hid, ← hid', hu])
    omega

theorem drawn_init (host : Host) : Drawn (.init host) := by
  intro t ht
  cases ht

/-! ## Results -/

/-- A result frame that takes effect: it names an open task of the node it came from. -/
def Accepts (taskUuid : String) (s : Controller) : Act → Prop
  | .frame node (.result frame) =>
    frame.id = taskUuid ∧ s.db.taskLog.rows.any (TaskRow.openFor node taskUuid) = true
  | _ => False

instance (taskUuid : String) (s : Controller) : (a : Act) → Decidable (Accepts taskUuid s a) := by
  intro a
  unfold Accepts
  split <;> infer_instance

/-- What an agent reports of a task. -/
def Act.report? : Act → Option (String × ResultFrame)
  | .frame node (.result res) => some (node, res)
  | _ => none

theorem onReports_iff {P : Act → Prop}
    (hother : ∀ a, (∀ node frame, a ≠ .frame node (.result frame)) → P a) (a : Act) :
    (∀ x ∈ a.report?, P (.frame x.1 (.result x.2))) ↔ P a := by
  unfold Act.report?
  split
  · simp
  · exact iff_of_true (fun _ hx => absurd hx (Option.not_mem_none _)) (hother _ ‹_›)

/-- A condition on reports is decidable where it is on each of them. -/
@[reducible] def decidableOnReports {P : Act → Prop}
    (hreport : (node : String) → (frame : ResultFrame) → Decidable (P (.frame node (.result frame))))
    (hother : ∀ a, (∀ node frame, a ≠ .frame node (.result frame)) → P a) (a : Act) :
    Decidable (P a) :=
  let _ (x : String × ResultFrame) : Decidable (P (.frame x.1 (.result x.2))) := hreport x.1 x.2
  decidable_of_iff _ (onReports_iff hother a)

/-- The log after a result: the open row of the task has its verdict. -/
def Controller.settleTask (s : Controller) (node : String) (frame : ResultFrame) : Controller :=
  { s with
    db := { s.db with
      taskLog := s.db.taskLog.update (TaskRow.openFor node frame.id)
        (TaskRow.marked (.done frame.ok) frame.result (if frame.ok then none else frame.error)
          (frame.cached == some true) s.now)
        (keeps_marked ..) } }

theorem mem_settleTask {s : Controller} {node : String} {frame : ResultFrame} {t : TaskRow} :
    t ∈ (s.settleTask node frame).db.taskLog.rows ↔
      ∃ a ∈ s.db.taskLog.rows,
        (if a.openFor node frame.id then
          a.marked (.done frame.ok) frame.result (if frame.ok then none else frame.error)
            (frame.cached == some true) s.now
        else a) = t :=
  Table.mem_update (h := keeps_marked ..)

theorem handleResult_run (node : String) (frame : ResultFrame) (s : Controller) :
    (handleResult node frame).run s =
      (if s.db.taskLog.rows.any (TaskRow.openFor node frame.id) then do
          Op.emit (.settled node frame.id frame.ok)
          applyResult node frame
        else pure () : Op Unit).run (s.settleTask node frame) := rfl

/-- **Every other result is dropped whole**: nothing the controller holds changes. -/
theorem handleResult_ignored {node : String} {frame : ResultFrame} {s : Controller}
    (h : s.db.taskLog.rows.any (TaskRow.openFor node frame.id) = false) :
    (handleResult node frame).after s = s := by
  rw [Prog.after, handleResult_run, h]
  show s.settleTask node frame = s
  simp only [Controller.settleTask, Table.update_of_none h]

theorem evolves_settleTask (s : Controller) (node : String) (frame : ResultFrame) :
    s.Evolves (s.settleTask node frame) :=
  (updateTasks (TaskRow.openFor node frame.id) _ (keeps_marked ..)).keeps s

/-- The verdict is in the log before any effect is performed. -/
theorem spent_settleTask {node : String} {frame : ResultFrame} {s : Controller} (hs : Drawn s)
    (h : s.db.taskLog.rows.any (TaskRow.openFor node frame.id) = true) :
    Spent frame.id (s.settleTask node frame) := by
  obtain ⟨t, ht, hopen⟩ := List.any_eq_true.mp h
  have hu : t.taskUuid = frame.id := by
    simp only [TaskRow.openFor, Bool.and_eq_true, beq_iff_eq] at hopen
    exact hopen.1.1
  obtain ⟨d, hd, he⟩ := hs t ht
  refine ⟨⟨d, hd, hu.symm.trans he⟩, fun t' ht' hu' => ?_⟩
  obtain ⟨a, ha, rfl⟩ := mem_settleTask.mp ht'
  -- the rows under this id are the one that was open
  have hau : a.taskUuid = frame.id := by
    split at hu' <;> exact hu'
  have hat : a = t := s.db.taskLog.eq_of_clash ha ht (hau.trans hu.symm)
  rw [hat, if_pos hopen]
  show (Mark.done frame.ok).state.terminal = true
  cases frame.ok <;> rfl

theorem Accepts.spent {taskUuid : String} {s : Controller} {a : Act} (hs : Drawn s)
    (h : Accepts taskUuid s a) : Spent taskUuid (step s a) := by
  unfold Accepts at h
  split at h
  · rename_i node frame
    obtain ⟨rfl, hopen⟩ := h
    refine (spent_settleTask hs hopen).evolves ?_
    show Controller.Evolves _ ((handleResult node frame).run s).2
    rw [handleResult_run]
    exact Prog.keeps _ _
  · exact h.elim

/-- Under a spent id no result takes effect. -/
theorem Spent.not_accepts {taskUuid : String} {s : Controller} (hs : Spent taskUuid s) (a : Act) :
    ¬ Accepts taskUuid s a := by
  intro h
  unfold Accepts at h
  split at h
  · obtain ⟨t, ht, hopen⟩ := List.any_eq_true.mp h.2
    simp only [TaskRow.openFor, Bool.and_eq_true, beq_iff_eq, Bool.not_eq_true'] at hopen
    have hterm := hs.2 t ht hopen.1.1
    rw [hopen.2] at hterm
    cases hterm
  · exact h.elim

/-- Between two moments of a run a row of the log has moved forward, and its verdict is kept
once it has one. -/
theorem task_forward {s s' : Controller} (h : s.Evolves s') {t t' : TaskRow}
    (ht : t ∈ s.db.taskLog.rows) (ht' : t' ∈ s'.db.taskLog.rows) (hid : t'.id = t.id) :
    (t'.state = t.state ∨ t.state.rank < t'.state.rank) ∧
      (t.state.terminal = true → t'.state = t.state ∧ t'.result = t.result ∧
        t'.error = t.error ∧ t'.resultCached = t.resultCached) :=
  have hg := h.task ht ht' hid
  ⟨hg.forward, hg.final⟩

/-- Of all the frames of a run that carry the result of one task, at most one takes effect. -/
theorem accepts_once (taskUuid : String) {s : Controller} (hs : Drawn s) (acts : List Act) :
    Run.countAlong step (Accepts taskUuid) s acts ≤ 1 :=
  Run.countAlong_le_one (fun s a hs => hs.evolves (step_evolves s a))
    (fun _ _ hs h => h.spent hs) (fun s a hs => hs.evolves (step_evolves s a))
    (fun _ a hs => hs.not_accepts a) hs

/-- **The lifecycle of a task is monotone, and its effects happen once.** In every run, a row
of the log moves `queued`, `sent`, `ok` or `failed` in this order and keeps its verdict; a
result frame for a task that is not open changes nothing; and per task at most one result
frame finds it open. -/
theorem task_lifecycle (host : Host) (before after : List Act) :
    (∀ t ∈ (Run.run step (.init host) before).db.taskLog.rows,
      ∀ t' ∈ (Run.run step (.init host) (before ++ after)).db.taskLog.rows, t'.id = t.id →
        (t'.state = t.state ∨ t.state.rank < t'.state.rank) ∧
          (t.state.terminal = true → t'.state = t.state ∧ t'.result = t.result ∧
            t'.error = t.error ∧ t'.resultCached = t.resultCached)) ∧
      (∀ node frame,
        ¬ Accepts frame.id (Run.run step (.init host) before) (.frame node (.result frame)) →
          step (Run.run step (.init host) before) (.frame node (.result frame)) =
            Run.run step (.init host) before) ∧
      ∀ taskUuid, Run.countAlong step (Accepts taskUuid) (.init host) before ≤ 1 := by
  refine ⟨fun t ht t' ht' hid => ?_, fun node frame h => ?_, fun taskUuid => ?_⟩
  · rw [Run.run_append] at ht'
    exact task_forward (run_evolves _ after) ht ht' hid
  · refine handleResult_ignored ?_
    simpa [Accepts] using h
  · exact accepts_once taskUuid (drawn_init host) before

end MassDeployment
