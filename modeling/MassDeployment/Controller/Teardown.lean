import MassDeployment.Controller.Results

set_option autoImplicit false

/-! # Tearing a placement down

`destroyPlacement` marks a placement `deleting` and queues `lab.destroy`; the row goes when
the agent confirms. The mark is meant to last until then, but a `lab.create` that was under
way reports in between and overwrites it. This file shows that nothing else does, and what
follows for the confirmation.
-/

namespace MassDeployment

open Js Prog

/-! ## What the call does -/

theorem assertNoSmbDependents_run (p : Placement) (s : Controller) :
    ∃ out, (assertNoSmbDependents p).run s = (out, s) := by
  unfold assertNoSmbDependents
  split
  · exact ⟨_, rfl⟩
  · simp only [Op.query, run_read_bind]
    split <;> exact ⟨_, rfl⟩

/-- A `destroyPlacement` that issues a task issues the `lab.destroy` of the placement, and
leaves the placement `deleting`. -/
theorem destroyPlacement_issued {s : Controller} {placementId : Nat} {actor : Option String}
    {node : String} {task : TaskFrame}
    (h : (step s (.destroyPlacement placementId actor)).issued = (node, task) :: s.issued) :
    ∃ p, s.db.getPlacement placementId = some p ∧ node = p.nodeName ∧
      task.action = .labDestroy ∧ task.params = [("lab", .str p.labName)] ∧
      ∀ r ∈ (step s (.destroyPlacement placementId actor)).db.labPlacements.rows,
        r.id = placementId → r.state = .deleting := by
  have hne : s.issued ≠ (node, task) :: s.issued := (List.cons_ne_self _ _).symm
  change ((MassDeployment.destroyPlacement placementId actor).run s).2.issued = _ at h
  show ∃ p, _ ∧ _ ∧ _ ∧ _ ∧
    ∀ r ∈ ((MassDeployment.destroyPlacement placementId actor).run s).2.db.labPlacements.rows, _
  revert h
  unfold MassDeployment.destroyPlacement
  simp only [Op.query, run_read_bind]
  cases hp : s.db.getPlacement placementId with
  | none => exact fun h => absurd h hne
  | some p =>
      obtain ⟨out, hout⟩ := assertNoSmbDependents_run p s
      rcases out with e | _
      · simp only [run_bind, hout, andThen_error]
        exact fun h => absurd h hne
      · rw [run_bind_ok hout]
        -- the row is marked, then the task is enqueued on what the mark left
        let s₁ := (updatePlacement placementId fun r =>
          { r with state := .deleting, updatedAt := s.now }).after s
        have hrows : ∀ r ∈ s₁.db.labPlacements.rows, r.id = placementId → r.state = .deleting := by
          intro r hr hid
          obtain ⟨a, ha, rfl⟩ := List.mem_map.mp hr
          split at hid
          · rw [if_pos ‹_›]
          · exact absurd (beq_iff_eq.mpr hid) ‹_›
        show ((do
            let _ ← enqueueTask p.nodeName .labDestroy [("lab", .str p.labName)] actor
            audit actor "placement.destroy" (some (toString p.labName ++ toString "@" ++
              toString p.nodeName)) none : Op Unit).run s₁).2.issued = _ → ∃ q, _ ∧ _ ∧ _ ∧ _ ∧
          ∀ r ∈ ((do
            let _ ← enqueueTask p.nodeName .labDestroy [("lab", .str p.labName)] actor
            audit actor "placement.destroy" (some (toString p.labName ++ toString "@" ++
              toString p.nodeName)) none : Op Unit).run s₁).2.db.labPlacements.rows, _
        rcases enqueueTask_run p.nodeName .labDestroy [("lab", .str p.labName)] actor s₁ with
          ⟨T, s₂, -, hrun, hdb, -, -, hiss, -⟩ | ⟨e, s₂, -, hrun, hdb, hiss⟩
        · rw [run_bind_ok hrun]
          intro h
          have hhead : (p.nodeName, s₁.nextFrame .labDestroy [("lab", .str p.labName)] actor) =
              (node, task) := (List.cons.inj (hiss.symm.trans h)).1
          cases hhead
          have hkeep : s₂.db.labPlacements = s₁.db.labPlacements := hdb ▸ rfl
          exact ⟨p, rfl, rfl, rfl, rfl, fun r hr => hrows r (hkeep ▸ hr)⟩
        · rw [run_bind_error hrun]
          exact fun h => absurd (hiss.symm.trans h) hne

/-! ## Looking a placement up by its own names -/

/-- The names of a placement lead back to it. -/
theorem Db.lookupPlacement_self {d : Db} (c : Conversions) {q : Placement} (hq : q ∈ d.placements) :
    d.lookupPlacement c (some (.str q.labName)) q.nodeName = .ok (some q) := by
  have hrun : d.lookupPlacement c (some (.str q.labName)) q.nodeName =
      .ok (d.placements.find? fun p => q.labName == p.labName && q.nodeName == p.nodeName) := rfl
  rw [hrun]
  cases hf : d.placements.find? fun p => q.labName == p.labName && q.nodeName == p.nodeName with
  | none =>
      have := List.find?_eq_none.mp hf q hq
      simp at this
  | some p =>
      have hp := List.mem_of_find?_eq_some hf
      have hnames := List.find?_some hf
      simp only [Bool.and_eq_true, beq_iff_eq] at hnames
      obtain ⟨hqr, hqj⟩ := Db.mem_placements.mp hq
      obtain ⟨hpr, hpj⟩ := Db.mem_placements.mp hp
      obtain ⟨_, l, hl, hli, hln, n, hn, hni, hnn, _⟩ := Db.joinPlacement_eq_some hqj
      obtain ⟨_, l', hl', hli', hln', n', hn', hni', hnn', _⟩ := Db.joinPlacement_eq_some hpj
      -- one lab and one node have these names, and one placement joins them
      have hll : l = l' := d.labs.eq_of_clash hl hl' (hln.symm.trans (hnames.1.trans hln'))
      have hnode : n = n' := d.nodes.eq_of_clash hn hn' (hnn.symm.trans (hnames.2.trans hnn'))
      subst hll hnode
      have hrow : p.toPlacementRow = q.toPlacementRow :=
        d.labPlacements.eq_of_clash hpr hqr ⟨hni'.symm.trans hni, .inl (hli'.symm.trans hli)⟩
      rw [hrow, hqj] at hpj
      rw [Option.some.inj hpj]

/-- Redaction leaves a single `lab` parameter alone. -/
theorem labParam_redacted (lab : String) :
    Value.get (safeParams (.text (redactSecrets (.obj [("lab", .str lab)])))) "lab" =
      .ok (some (.str lab)) := by
  have : secretKey "lab" = false := by decide
  simp [safeParams, redactSecrets, redactFields, this, Value.get, Value.field]

/-! ## The teardown as an invariant -/

/-- No `lab.create` result is accepted while the placement it names is `deleting`, and a
`lab.destroy` result names the lab of its task. -/
def Punctual (s : Controller) : Act → Prop
  | .frame node (.result frame) =>
    ∀ t ∈ s.db.taskLog.rows, t.openFor node frame.id = true →
      (t.action = .labCreate → ∀ lab p, resultLab frame t = .ok lab →
        s.db.lookupPlacement s.host.conversions lab node = .ok (some p) → p.state ≠ .deleting) ∧
      (t.action = .labDestroy → resultLab frame t = Value.get (safeParams t.params) "lab")
  | _ => True

/-- What is known of a teardown: where the placement is, and which task it waits for. -/
structure Teardown (base : Controller) (placementId : Nat) (lab node taskUuid : String) : Prop where
  linked : base.db.Linked
  seq : placementId ≤ base.db.labPlacements.seq
  names : ∀ q ∈ base.db.placements, q.id = placementId → q.labName = lab ∧ q.nodeName = node
  task : ∀ s, base.Evolves s → ∀ t ∈ s.db.taskLog.rows, t.taskUuid = taskUuid →
    t.action = .labDestroy ∧ t.node = node ∧
      t.params = .text (redactSecrets (.obj [("lab", .str lab)]))

theorem Teardown.names_at {base s : Controller} {placementId : Nat} {lab node taskUuid : String}
    (hT : Teardown base placementId lab node taskUuid) (h : base.Evolves s) {q : Placement}
    (hq : q ∈ s.db.placements) (hid : q.id = placementId) : q.labName = lab ∧ q.nodeName = node := by
  obtain ⟨p, hp, hg⟩ := h.labPlacements.grows _ (Db.mem_placements.mp hq).1 (hid.trans_le hT.seq)
  obtain ⟨q₀, hq₀, hrow, hlab, hnode⟩ := h.placement_names hT.linked hq hp hg.1
  have := hT.names q₀ hq₀ ((congrArg PlacementRow.id hrow).trans (hg.1.symm.trans hid))
  exact ⟨hlab.symm.trans this.1, hnode.symm.trans this.2⟩

/-- The placement is `deleting`, or the task was confirmed and it is gone. -/
structure Tearing (base : Controller) (placementId : Nat) (taskUuid : String) (s : Controller) :
    Prop where
  evolves : base.Evolves s
  linked : s.db.Linked
  deleting : ∀ r ∈ s.db.labPlacements.rows, r.id = placementId → r.state = .deleting
  gone : ∀ t ∈ s.db.taskLog.rows, t.taskUuid = taskUuid → t.state = .ok →
    ∀ r ∈ s.db.labPlacements.rows, r.id ≠ placementId

theorem Controller.Evolves.placement_absent {s s' : Controller} (h : s.Evolves s')
    {placementId : Nat} (hseq : placementId ≤ s.db.labPlacements.seq)
    (habs : ∀ r ∈ s.db.labPlacements.rows, r.id ≠ placementId) :
    ∀ r ∈ s'.db.labPlacements.rows, r.id ≠ placementId := by
  intro r' hr' hid
  obtain ⟨r, hr, hg⟩ := h.labPlacements.grows r' hr' (hid.trans_le hseq)
  exact habs r hr (hg.1.symm.trans hid)

section

variable {A : String → TaskFrame → Prop} {K : String → Prop}

/-- A quiet stretch leaves a placement `deleting`. -/
theorem Quiet.deleting {s s' : Controller} (h : Quiet A K s s') {placementId : Nat}
    (hseq : placementId ≤ s.db.labPlacements.seq)
    (hdel : ∀ r ∈ s.db.labPlacements.rows, r.id = placementId → r.state = .deleting) :
    ∀ r ∈ s'.db.labPlacements.rows, r.id = placementId → r.state = .deleting := by
  intro r' hr' hid
  rcases h.placements.rows r' hr' with ⟨r, hr, hrid, hq⟩ | ⟨hlt, _⟩
  · have hst := hdel r hr (hrid.symm.trans hid)
    rcases hq with hq | ⟨hq, _⟩ | hq
    · exact hq.trans hst
    · rw [hst] at hq
      cases hq
    · exact hq
  · exact absurd hid (hseq.trans_lt hlt).ne'

/-- A quiet stretch settles no task. -/
theorem Quiet.settled_before {s s' : Controller} (h : Quiet A K s s') {t' : TaskRow}
    (ht' : t' ∈ s'.db.taskLog.rows) (hok : t'.state = .ok) :
    ∃ t ∈ s.db.taskLog.rows, t.state = .ok ∧ t.Grows t' := by
  obtain ⟨t, ht, hid, hterm⟩ := h.tasks t' ht' (by rw [hok]; rfl)
  have hg := h.evolves.task ht ht' hid.symm
  exact ⟨t, ht, (hg.final hterm).1.symm.trans hok, hg⟩

end

theorem Tearing.quiet {base s s' : Controller} {placementId : Nat} {taskUuid : String}
    (hseq : placementId ≤ base.db.labPlacements.seq) (h : Tearing base placementId taskUuid s)
    {A : String → TaskFrame → Prop} {K : String → Prop} (hq : Quiet A K s s') :
    Tearing base placementId taskUuid s' where
  evolves := h.evolves.trans hq.evolves
  linked := hq.linked h.linked
  deleting := hq.deleting (hseq.trans h.evolves.labPlacements.seq) h.deleting
  gone t' ht' hu hok := by
    obtain ⟨t, ht, hst, hg⟩ := hq.settled_before ht' hok
    exact hq.evolves.placement_absent (hseq.trans h.evolves.labPlacements.seq)
      (h.gone t ht (hg.taskUuid.symm.trans hu) hst)

/-- A result leaves a placement `deleting` if it is no late `lab.create`. -/
theorem ResultWrite.deleting {node : String} {frame : ResultFrame} {t : TaskRow}
    {s s' : Controller} (h : ResultWrite node frame t s s') {placementId : Nat}
    (hlate : t.action = .labCreate → ∀ lab p, resultLab frame t = .ok lab →
      s.db.lookupPlacement s.host.conversions lab node = .ok (some p) → p.state ≠ .deleting)
    (hdel : ∀ r ∈ s.db.labPlacements.rows, r.id = placementId → r.state = .deleting) :
    ∀ r ∈ s'.db.labPlacements.rows, r.id = placementId → r.state = .deleting := by
  cases h with
  | none _ => exact hdel
  | created lab p error ha hlab hp _ =>
      intro r hr hid
      obtain ⟨a, ha', rfl⟩ := List.mem_map.mp hr
      split at hid
      · -- the placement that is marked is not the one being torn down
        rename_i hap
        obtain ⟨_, _, hmem, _⟩ := Db.lookupPlacement_eq_some hp
        have hst := hdel _ (Db.mem_placements.mp hmem).1 ((beq_iff_eq.mp hap).symm.trans hid)
        exact absurd hst (hlate ha lab p hlab hp)
      · rw [if_neg ‹_›]
        exact hdel a ha' hid
  | destroyFailed lab p error _ _ _ _ _ =>
      intro r hr hid
      obtain ⟨a, ha', rfl⟩ := List.mem_map.mp hr
      split at hid
      · rw [if_pos ‹_›]
        rfl
      · rw [if_neg ‹_›]
        exact hdel a ha' hid
  | destroyed lab p _ _ _ _ _ _ => exact fun r hr => hdel r (Table.mem_delete.mp hr).1
  | added lab user j error _ _ _ _ => exact hdel

theorem Tearing.result {base s : Controller} {placementId : Nat} {lab node taskUuid : String}
    (hT : Teardown base placementId lab node taskUuid) (h : Tearing base placementId taskUuid s)
    {n : String} {frame : ResultFrame} (hp : Punctual s (.frame n (.result frame))) :
    Tearing base placementId taskUuid (step s (.frame n (.result frame))) := by
  by_cases hex : ∃ t ∈ s.db.taskLog.rows, t.openFor n frame.id = true
  swap
  · rw [ignored_step (by simpa using hex)]
    exact h
  obtain ⟨t, ht, hopen⟩ := hex
  obtain ⟨s₁, s₂, _, hm, hw, hq, _⟩ := accepted_step ht hopen
  obtain ⟨hlate, hown⟩ := hp t ht hopen
  have hseq := hT.seq.trans h.evolves.labPlacements.seq
  have hrows : s₁.db.labPlacements = s.db.labPlacements := hm.1 ▸ rfl
  have hlookup : ∀ l, s₁.db.lookupPlacement s₁.host.conversions l n =
      s.db.lookupPlacement s.host.conversions l n := fun l => by
    rw [hm.1, hm.2.1]
    rfl
  have hdel : ∀ r ∈ s₂.db.labPlacements.rows, r.id = placementId → r.state = .deleting :=
    hw.deleting (fun ha l p hl hlp => hlate ha l p hl (hlookup l ▸ hlp)) (hrows ▸ h.deleting)
  have hevs := step_evolves s (.frame n (.result frame))
  refine ⟨h.evolves.trans hevs, linked_step h.linked _,
    hq.deleting (hseq.trans (hrows ▸ hw.evolves.labPlacements.seq)) hdel, fun t' ht' hu hok => ?_⟩
  by_cases habs : ∀ r ∈ s.db.labPlacements.rows, r.id ≠ placementId
  · exact hevs.placement_absent hseq habs
  -- the row is still there, so it is this result that confirmed the task
  simp only [not_forall, not_not] at habs
  obtain ⟨r₀, hr₀, hid₀⟩ := habs
  obtain ⟨t₂, ht₂, hok₂, hg⟩ := hq.settled_before ht' hok
  rw [hw.taskLog, hm.1] at ht₂
  obtain ⟨a, ha, rfl⟩ := mem_settleTask.mp ht₂
  have hau : a.taskUuid = taskUuid := by
    rw [← hu, hg.taskUuid]
    split <;> rfl
  by_cases hao : a.openFor n frame.id = true
  swap
  · rw [if_neg hao] at hok₂
    exact absurd hid₀ (h.gone a ha hau hok₂ r₀ hr₀)
  rw [if_pos hao] at hok₂
  have hat : a = t := s.db.taskLog.eq_of_clash ha ht
    ((TaskRow.openFor_iff.mp hao).1.trans (TaskRow.openFor_iff.mp hopen).1.symm)
  subst hat
  have hfok : frame.ok = true := by
    cases hfo : frame.ok with
    | true => rfl
    | false =>
        simp only [TaskRow.marked, hfo, Mark.state] at hok₂
        cases hok₂
  obtain ⟨hact, hnode, hparams⟩ := hT.task s h.evolves a ha hau
  -- the names of the task lead to the placement
  have hres : resultLab frame a = .ok (some (.str lab)) := by
    rw [hown hact, hparams, labParam_redacted]
  obtain ⟨q, hq₀⟩ := h.linked.joinPlacement hr₀
  have hqr := (Db.joinPlacement_eq_some hq₀).1
  have hqmem : q ∈ s.db.placements :=
    Db.mem_placements.mpr ⟨hqr.symm ▸ hr₀, hqr.symm ▸ hq₀⟩
  have hqid : q.id = placementId := (congrArg PlacementRow.id hqr).trans hid₀
  obtain ⟨hqlab, hqnode⟩ := hT.names_at h.evolves hqmem hqid
  have hself : s.db.lookupPlacement s.host.conversions (some (.str lab)) n = .ok (some q) := by
    have := Db.lookupPlacement_self s.host.conversions hqmem
    rwa [hqlab, hqnode, ← hnode, (TaskRow.openFor_iff.mp hopen).2.1] at this
  have hqst : q.state = .deleting := h.deleting _ (Db.mem_placements.mp hqmem).1 hqid
  have hne : lab ≠ "" := by
    obtain ⟨_, l, hl, _, hln, _⟩ := Db.joinPlacement_eq_some hq₀
    exact fun he => h.linked.labName l hl (hln.symm.trans (hqlab.trans he))
  have hgone : ∀ r ∈ s₂.db.labPlacements.rows, r.id ≠ placementId := by
    cases hw with
    | none hnot =>
        exact absurd hqst (hnot hact hfok _ q hres (by simpa [Value.truthy] using hne)
          (by rw [hlookup]; exact hself))
    | created l p e hact' _ _ _ =>
        rw [hact] at hact'
        cases hact'
    | destroyFailed l p e _ hno _ _ _ =>
        rw [hfok] at hno
        cases hno
    | destroyed l p _ _ hl hlp _ _ =>
        cases hl.symm.trans hres
        rw [hlookup, hself] at hlp
        cases hlp
        intro r hr hid
        have := (Table.mem_delete.mp hr).2
        rw [hid, hqid, beq_self_eq_true] at this
        cases this
    | added l u j e hact' _ _ _ =>
        rw [hact] at hact'
        cases hact'
  exact hq.evolves.placement_absent (hseq.trans (hrows ▸ hw.evolves.labPlacements.seq)) hgone

/-- The call starts a teardown. -/
theorem teardown_of_call {s : Controller} (hl : s.db.Linked) (hd : Drawn s) {placementId : Nat}
    {actor : Option String} {node : String} {task : TaskFrame}
    (h : (step s (.destroyPlacement placementId actor)).issued = (node, task) :: s.issued) :
    ∃ lab, Teardown (step s (.destroyPlacement placementId actor)) placementId lab node task.id ∧
      Tearing (step s (.destroyPlacement placementId actor)) placementId task.id
        (step s (.destroyPlacement placementId actor)) := by
  obtain ⟨p, hp, rfl, hact, hparams, hdel⟩ := destroyPlacement_issued h
  have hev := step_evolves s (.destroyPlacement placementId actor)
  have hlinked := linked_step hl (.destroyPlacement placementId actor)
  obtain ⟨hmem, hid⟩ := Db.getPlacement_eq_some hp
  have htask := fun s' (h' : Controller.Evolves _ s') t (ht : t ∈ s'.db.taskLog.rows) =>
    issued_task hd hev h h' ht
  refine ⟨p.labName, ⟨hlinked, ?_, fun q hq hqid => ?_, fun s' h' t ht hu => ?_⟩,
    .refl _, hlinked, hdel, fun t ht hu hok => ?_⟩
  · exact hid.ge.trans ((s.db.labPlacements.bounded _ (Db.mem_placements.mp hmem).1).trans
      hev.labPlacements.seq)
  · obtain ⟨q₀, hq₀, hrow, hlab, hnode⟩ := hev.placement_names hl hq (Db.mem_placements.mp hmem).1
      (hqid.trans hid.symm)
    have := (Db.mem_placements.mp hq₀).2
    rw [hrow, (Db.mem_placements.mp hmem).2] at this
    cases this
    exact ⟨hlab.symm, hnode.symm⟩
  · obtain ⟨hnode, hissues⟩ := htask s' h' t ht hu
    exact ⟨hissues.action.trans hact, hnode, hissues.params.trans (by rw [hparams])⟩
  · obtain ⟨t₀, ht₀, _, hg⟩ := (quiet_step (by rintro _ _ ⟨⟩)).settled_before ht hok
    exact absurd (hg.taskUuid.symm.trans hu) (issued_fresh hd hev h ht₀)

/-! ## Whole runs -/

/-- **`deleting` is absorbing until confirmed.** After a `destroyPlacement` that went through,
in every run without a late `lab.create`, the placement stays `deleting` or is gone, and it
is gone once its `lab.destroy` was confirmed. -/
theorem deleting_until_confirmed (host : Host) (before after : List Act) (placementId : Nat)
    (actor : Option String) (node : String) (task : TaskFrame)
    (hcall : (step (Run.run step (.init host) before) (.destroyPlacement placementId actor)).issued =
      (node, task) :: (Run.run step (.init host) before).issued)
    (hpunctual : Run.Along step Punctual
      (step (Run.run step (.init host) before) (.destroyPlacement placementId actor)) after) :
    (∀ r ∈ (Run.run step (.init host)
        (before ++ .destroyPlacement placementId actor :: after)).db.labPlacements.rows,
      r.id = placementId → r.state = .deleting) ∧
    ∀ t ∈ (Run.run step (.init host)
        (before ++ .destroyPlacement placementId actor :: after)).db.taskLog.rows,
      t.taskUuid = task.id → t.state = .ok →
      ∀ r ∈ (Run.run step (.init host)
        (before ++ .destroyPlacement placementId actor :: after)).db.labPlacements.rows,
        r.id ≠ placementId := by
  obtain ⟨lab, hT, h₀⟩ := teardown_of_call (linked_run host before) (drawn_run host before) hcall
  rw [Run.run_append, Run.run_cons]
  generalize step (Run.run step (.init host) before) (.destroyPlacement placementId actor) = base
    at hT h₀ hpunctual
  have hrun : Tearing base placementId task.id (Run.run step base after) := by
    refine Run.invariant (C := Punctual) (fun s a h hp => ?_) h₀ hpunctual
    by_cases ha : ∃ n frame, a = .frame n (.result frame)
    · obtain ⟨n, frame, rfl⟩ := ha
      exact h.result hT hp
    · exact h.quiet hT.seq (quiet_step fun n frame he => ha ⟨n, frame, he⟩)
  exact ⟨hrun.deleting, hrun.gone⟩

/-- A teardown after the `lab.create` has reported: the task goes out, and its confirmation
drops the placement. -/
theorem deleting_until_confirmed_placed :
    (∀ r ∈ (Run.run step (.init .plain) ((placedLab ++ [succeeded "n" "u"]) ++
        .destroyPlacement 1 none :: [.drainNode "n" [true, true],
          succeeded "n" "uu"])).db.labPlacements.rows, r.id = 1 → r.state = .deleting) ∧
    ∀ t ∈ (Run.run step (.init .plain) ((placedLab ++ [succeeded "n" "u"]) ++
        .destroyPlacement 1 none :: [.drainNode "n" [true, true],
          succeeded "n" "uu"])).db.taskLog.rows, t.taskUuid = "uu" → t.state = .ok →
      ∀ r ∈ (Run.run step (.init .plain) ((placedLab ++ [succeeded "n" "u"]) ++
        .destroyPlacement 1 none :: [.drainNode "n" [true, true],
          succeeded "n" "uu"])).db.labPlacements.rows, r.id ≠ 1 := by
  refine deleting_until_confirmed .plain (placedLab ++ [succeeded "n" "u"]) _ 1 none "n"
    ⟨"uu", .labDestroy, [("lab", .str "lab")], none, 0⟩ rfl
    ⟨trivial, fun t ht hopen => ⟨fun ha => ?_, fun _ => rfl⟩, trivial⟩
  have hdestroy : ∀ t ∈ (step (step (Run.run step (.init .plain)
      (placedLab ++ [succeeded "n" "u"])) (.destroyPlacement 1 none))
      (.drainNode "n" [true, true])).db.taskLog.rows,
      t.openFor "n" "uu" = true → t.action = .labDestroy := by
    decide +kernel
  rw [hdestroy t ht hopen] at ha
  cases ha

/-- The `lab.create` was under way when the placement was destroyed. Its result makes the
placement `active`, and the confirmation of the `lab.destroy` finds nothing to drop. -/
theorem late_create_revives :
    (Run.run step (.init .plain) (placedLab ++ [.destroyPlacement 1 none])).db.labPlacements.rows.map
        (·.state) = [.deleting] ∧
      (Run.run step (.init .plain) (placedLab ++ [.destroyPlacement 1 none,
        succeeded "n" "u"])).db.labPlacements.rows.map (·.state) = [.active] ∧
      (Run.run step (.init .plain) (placedLab ++ [.destroyPlacement 1 none, succeeded "n" "u",
        succeeded "n" "uu"])).db.labPlacements.rows.map (·.state) = [.active] ∧
      (Run.run step (.init .plain) (placedLab ++ [.destroyPlacement 1 none, succeeded "n" "u",
        succeeded "n" "uu"])).db.taskLog.rows.map (fun t => (t.action, t.state)) =
          [(.labCreate, .ok), (.labDestroy, .ok)] := by
  decide +kernel

end MassDeployment
