import MassDeployment.Controller.Teardown

set_option autoImplicit false

/-! # Results and generations

A result finds its placement or member by name. A task that outlives the row it was queued
for (on a node that is offline, say) can therefore report to a row of the same names that
was created after it. This file shows that nothing else is in the way: where no row is created
over an open task of its names, no result reaches a row younger than its task.
-/

namespace MassDeployment

open Js Prog

/-! ## The names of a task -/

/-- The parameters of the task name this placement. -/
def TaskRow.namesPlacement (c : Conversions) (t : TaskRow) (p : Placement) : Bool :=
  match Value.get (safeParams t.params) "lab" with
  | .error _ => false
  | .ok lab =>
    match MassDeployment.namesPlacement c lab t.node with
    | .error _ => false
    | .ok named => named p.labName p.nodeName

/-- The parameters of the task name this member: its placement and, for `student.add`, its
student. -/
def TaskRow.namesMember (c : Conversions) (t : TaskRow) (j : JoinedMember) : Bool :=
  if t.action = .studentAdd then
    match Value.get (safeParams t.params) "lab", Value.get (safeParams t.params) "username" with
    | .ok lab, .ok user =>
      match MassDeployment.namesMember c lab t.node user with
      | .error _ => false
      | .ok named => named j.placement.labName j.placement.nodeName j.student.username
    | _, _ => false
  else t.namesPlacement c j.placement

/-- A task whose result writes a placement. -/
def Action.ofPlacement (a : Action) : Bool := a == .labCreate || a == .labDestroy

/-- No placement is created over an open `lab.create` or `lab.destroy` of its names, and no
member over an open `student.add` of its names. -/
def Generational (s : Controller) (a : Act) : Prop :=
  (∀ p ∈ (step s a).db.placements, s.db.labPlacements.seq < p.id → ∀ t ∈ s.db.taskLog.rows,
    t.state.terminal = false → t.action.ofPlacement = true →
      t.namesPlacement s.host.conversions p = false) ∧
  ∀ j ∈ (step s a).db.joinedMembers, s.db.placementMembers.seq < j.member.id →
    ∀ t ∈ s.db.taskLog.rows, t.state.terminal = false → t.action = .studentAdd →
      t.namesMember s.host.conversions j = false

instance (s : Controller) (a : Act) : Decidable (Generational s a) :=
  inferInstanceAs (Decidable (_ ∧ _))

/-- A task is looked up by what never changes. -/
theorem TaskRow.Grows.namesPlacement {t t' : TaskRow} (h : t.Grows t') (c : Conversions)
    (p : Placement) : t'.namesPlacement c p = t.namesPlacement c p := by
  simp only [TaskRow.namesPlacement, h.params, h.node]

theorem TaskRow.Grows.namesMember {t t' : TaskRow} (h : t.Grows t') (c : Conversions)
    (j : JoinedMember) : t'.namesMember c j = t.namesMember c j := by
  simp only [TaskRow.namesMember, h.params, h.node, h.action, h.namesPlacement]

theorem TaskRow.namesPlacement_congr {c : Conversions} {t : TaskRow} {p q : Placement}
    (hlab : p.labName = q.labName) (hnode : p.nodeName = q.nodeName) :
    t.namesPlacement c p = t.namesPlacement c q := by
  simp only [TaskRow.namesPlacement, hlab, hnode]

theorem TaskRow.namesMember_congr {c : Conversions} {t : TaskRow} {i j : JoinedMember}
    (hlab : i.placement.labName = j.placement.labName)
    (hnode : i.placement.nodeName = j.placement.nodeName)
    (huser : i.student.username = j.student.username) :
    t.namesMember c i = t.namesMember c j := by
  simp only [TaskRow.namesMember, TaskRow.namesPlacement, hlab, hnode, huser]

/-! ## The invariant -/

/-- No open task of `base` names a placement or a member created since. -/
structure Apart (base s : Controller) : Prop where
  evolves : base.Evolves s
  linked : s.db.Linked
  placements : ∀ p ∈ s.db.placements, base.db.labPlacements.seq < p.id →
    ∀ t ∈ s.db.taskLog.rows, t.id ≤ base.db.taskLog.seq → t.state.terminal = false →
      t.action.ofPlacement = true → t.namesPlacement s.host.conversions p = false
  members : ∀ j ∈ s.db.joinedMembers, base.db.placementMembers.seq < j.member.id →
    ∀ t ∈ s.db.taskLog.rows, t.id ≤ base.db.taskLog.seq → t.state.terminal = false →
      t.action = .studentAdd → t.namesMember s.host.conversions j = false

theorem Apart.refl {s : Controller} (hl : s.db.Linked) : Apart s s where
  evolves := .refl s
  linked := hl
  placements _ hp hlt :=
    absurd (s.db.labPlacements.bounded _ (Db.mem_placements.mp hp).1) (Nat.not_le.mpr hlt)
  members _ hj hlt :=
    absurd (s.db.placementMembers.bounded _ (Db.mem_joinedMembers.mp hj).1) (Nat.not_le.mpr hlt)

/-- A row that survives a step has kept its names, and a task that is open after it was open
before; a row that is created meets no open task of its names. -/
theorem Apart.step {base s : Controller} (h : Apart base s) {a : Act} (hg : Generational s a) :
    Apart base (MassDeployment.step s a) := by
  have hev := step_evolves s a
  refine ⟨h.evolves.trans hev, linked_step h.linked a, fun p' hp' hlt t' ht' hle ho ha => ?_,
    fun j' hj' hlt t' ht' hle ho ha => ?_⟩
  all_goals
    obtain ⟨t, ht, hgrow⟩ := hev.taskLog.grows t' ht' (hle.trans h.evolves.taskLog.seq)
    have hgrow : t.Grows t' := hgrow
    rw [hgrow.action] at ha
    have hto := hgrow.isOpen ho
    have hte := hgrow.id ▸ hle
    rw [hev.host]
  · rw [hgrow.namesPlacement]
    by_cases hold : p'.id ≤ s.db.labPlacements.seq
    · obtain ⟨r, hr, hrg⟩ := hev.labPlacements.grows _ (Db.mem_placements.mp hp').1 hold
      obtain ⟨p, hp, hrow, hlab, hnode⟩ := hev.placement_names h.linked hp' hr hrg.1
      have hid : p.id = p'.id := (congrArg PlacementRow.id hrow).trans hrg.1.symm
      rw [← TaskRow.namesPlacement_congr hlab hnode]
      exact h.placements p hp (hid ▸ hlt) t ht hte hto ha
    · exact hg.1 p' hp' (Nat.not_le.mp hold) t ht hto ha
  · rw [hgrow.namesMember]
    by_cases hold : j'.member.id ≤ s.db.placementMembers.seq
    · obtain ⟨r, hr, hrg⟩ := hev.placementMembers.grows _ (Db.mem_joinedMembers.mp hj').1 hold
      obtain ⟨j, hj, hrow, hlab, hnode, huser⟩ := hev.member_names h.linked hj' hr hrg.1
      have hid : j.member.id = j'.member.id :=
        (congrArg PlacementMemberRow.id hrow).trans hrg.1.symm
      rw [← TaskRow.namesMember_congr hlab hnode huser]
      exact h.members j hj (hid ▸ hlt) t ht hte hto ha
    · exact hg.2 j' hj' (Nat.not_le.mp hold) t ht hto ha

/-! ## What a result reaches -/

/-- Where a result names the lab of its task, the placement it finds is one the task names. -/
theorem TaskRow.namesPlacement_of_lookup {d : Db} {c : Conversions} {t : TaskRow} {lab : Value}
    {p : Placement} (hlab : Value.get (safeParams t.params) "lab" = .ok lab)
    (h : d.lookupPlacement c lab t.node = .ok (some p)) :
    p ∈ d.placements ∧ t.namesPlacement c p = true := by
  obtain ⟨named, hn, hp, hyes⟩ := Db.lookupPlacement_eq_some h
  refine ⟨hp, ?_⟩
  simp only [TaskRow.namesPlacement, hlab, hn]
  exact hyes

theorem TaskRow.namesMember_of_lookup {d : Db} {c : Conversions} {t : TaskRow} {lab user : Value}
    {j : JoinedMember} (ha : t.action = .studentAdd)
    (hlab : Value.get (safeParams t.params) "lab" = .ok lab)
    (huser : Value.get (safeParams t.params) "username" = .ok user)
    (h : d.lookupMember c lab t.node user = .ok (some j)) :
    j ∈ d.joinedMembers ∧ t.namesMember c j = true := by
  obtain ⟨named, hn, hj, hyes⟩ := Db.lookupMember_eq_some h
  refine ⟨hj, ?_⟩
  simp only [TaskRow.namesMember, if_pos ha, hlab, huser, hn]
  exact hyes

/-- The write leaves a placement alone that it does not find. -/
theorem ResultWrite.placement_kept {node : String} {frame : ResultFrame} {t : TaskRow}
    {s s' : Controller} (h : ResultWrite node frame t s s') {r : PlacementRow}
    (hr : r ∈ s.db.labPlacements.rows)
    (hother : t.action.ofPlacement = true → ∀ lab p, resultLab frame t = .ok lab →
      s.db.lookupPlacement s.host.conversions lab node = .ok (some p) → p.id ≠ r.id) :
    r ∈ s'.db.labPlacements.rows := by
  have marked : ∀ (p : Placement) (state : PlacementState) (error : Option String),
      p.id ≠ r.id → r ∈ ((markPlacementState p.id state error).after s).db.labPlacements.rows :=
    fun p state error hne =>
      List.mem_map.mpr ⟨r, hr, if_neg fun he => hne (beq_iff_eq.mp he).symm⟩
  cases h with
  | none _ => exact hr
  | created lab p error ha hlab hp _ =>
      exact marked p _ error (hother (by rw [ha]; rfl) lab p hlab hp)
  | destroyFailed lab p error ha _ hlab hp _ =>
      exact marked p _ error (hother (by rw [ha]; rfl) lab p hlab hp)
  | destroyed lab p ha _ hlab hp _ _ =>
      have hne := hother (by rw [ha]; rfl) lab p hlab hp
      exact Table.mem_delete.mpr ⟨hr, beq_eq_false_iff_ne.mpr hne.symm⟩
  | added lab user j error _ _ _ _ => exact hr

/-- The write leaves a member alone that it does not find, unless its placement goes. -/
theorem ResultWrite.member_kept {node : String} {frame : ResultFrame} {t : TaskRow}
    {s s' : Controller} (h : ResultWrite node frame t s s') {m : PlacementMemberRow}
    (hm : m ∈ s.db.placementMembers.rows)
    (hplacement : t.action = .labDestroy → ∀ lab p, resultLab frame t = .ok lab →
      s.db.lookupPlacement s.host.conversions lab node = .ok (some p) → p.id ≠ m.placementId)
    (hother : t.action = .studentAdd → ∀ lab user j, resultLab frame t = .ok lab →
      Value.get (safeParams t.params) "username" = .ok user →
      s.db.lookupMember s.host.conversions lab node user = .ok (some j) → j.member.id ≠ m.id) :
    m ∈ s'.db.placementMembers.rows := by
  cases h with
  | none _ => exact hm
  | created lab p error _ _ _ _ => exact hm
  | destroyFailed lab p error _ _ _ _ _ => exact hm
  | destroyed lab p ha _ hlab hp _ _ =>
      refine Table.mem_delete.mpr ⟨hm, ?_⟩
      simp only [List.contains_eq_mem, List.mem_map, decide_eq_false_iff_not, not_exists, not_and]
      rintro r hr hid
      obtain ⟨_, hrid⟩ := Table.mem_select.mp hr
      exact hplacement ha lab p hlab hp ((beq_iff_eq.mp hrid).symm.trans hid)
  | added lab user j error ha hlab huser hj =>
      have hne := hother ha lab user j hlab huser hj
      exact List.mem_map.mpr ⟨m, hm, if_neg fun he => hne (beq_iff_eq.mp he).symm⟩

/-- What a result for `t` leaves alone on the way from `s` to `s'`: the placements and members
that were created after `base`, if the result names the lab of its task or they bear the
names of the task. Only a `lab.destroy` takes young members with its old placement. -/
structure Spared (base s s' : Controller) (frame : ResultFrame) (t : TaskRow) : Prop where
  placements : ∀ p ∈ s.db.placements, base.db.labPlacements.seq < p.id →
    resultLab frame t = Value.get (safeParams t.params) "lab" ∨
      t.namesPlacement s.host.conversions p = true →
    ∃ r ∈ s'.db.labPlacements.rows, r.id = p.id ∧ r.state = p.state ∧ r.lastError = p.lastError
  members : ∀ j ∈ s.db.joinedMembers, base.db.placementMembers.seq < j.member.id →
    (t.action = .labDestroy → base.db.labPlacements.seq < j.placement.id) →
    resultLab frame t = Value.get (safeParams t.params) "lab" ∨
      t.namesMember s.host.conversions j = true →
    j.member ∈ s'.db.placementMembers.rows

theorem Apart.result {base s : Controller} (h : Apart base s) {node : String} {frame : ResultFrame}
    {t : TaskRow} (ht : t ∈ s.db.taskLog.rows) (hu : t.taskUuid = frame.id)
    (hold : t.id ≤ base.db.taskLog.seq) :
    Spared base s (MassDeployment.step s (.frame node (.result frame))) frame t := by
  by_cases hex : ∃ a ∈ s.db.taskLog.rows, a.openFor node frame.id = true
  swap
  · rw [ignored_step (by simpa using hex)]
    exact ⟨fun p hp _ _ => ⟨_, (Db.mem_placements.mp hp).1, rfl, rfl, rfl⟩,
      fun j hj _ _ _ => (Db.mem_joinedMembers.mp hj).1⟩
  obtain ⟨a, ha, hopen⟩ := hex
  obtain ⟨hau, hnode, hterm⟩ := TaskRow.openFor_iff.mp hopen
  obtain rfl : a = t := s.db.taskLog.eq_of_clash ha ht (hau.trans hu.symm)
  obtain ⟨s₁, s₂, _, hm, hw, _, hstill⟩ := accepted_step ha hopen
  -- up to the write, only the verdict of the task was recorded
  have hplacements : s₁.db.labPlacements = s.db.labPlacements := hm.1 ▸ rfl
  have hmembers : s₁.db.placementMembers = s.db.placementMembers := hm.1 ▸ rfl
  have hlookup : ∀ lab, s₁.db.lookupPlacement s₁.host.conversions lab node =
      s.db.lookupPlacement s.host.conversions lab a.node := fun lab => by
    rw [hm.1, hm.2.1, hnode]
    rfl
  have hlookupMember : ∀ lab user, s₁.db.lookupMember s₁.host.conversions lab node user =
      s.db.lookupMember s.host.conversions lab a.node user := fun lab user => by
    rw [hm.1, hm.2.1, hnode]
    rfl
  -- a young placement is not one this task names
  have young : ∀ p ∈ s.db.placements, base.db.labPlacements.seq < p.id →
      a.action.ofPlacement = true → a.namesPlacement s.host.conversions p = false :=
    fun p hp hlt hact => h.placements p hp hlt a ha hold hterm hact
  refine ⟨fun p hp hlt hor => ?_, fun j hj hlt hdestroy hor => ?_⟩
  · have hkept := hw.placement_kept (hplacements ▸ (Db.mem_placements.mp hp).1)
      fun hact lab q hlab hq hid => by
        rcases hor with hown | hnamed
        · rw [hlookup] at hq
          obtain ⟨hqm, hnamed⟩ := TaskRow.namesPlacement_of_lookup (hown ▸ hlab) hq
          obtain rfl := Db.placements_key hqm hp hid
          rw [young q hp hlt hact] at hnamed
          cases hnamed
        · rw [young p hp hlt hact] at hnamed
          cases hnamed
    exact hstill.placements _ hkept
  · rw [hstill.members]
    refine hw.member_kept (hmembers ▸ (Db.mem_joinedMembers.mp hj).1) ?_ ?_
    · intro hact lab q hlab hq hid
      obtain ⟨hpm, hpid⟩ := Db.getPlacement_eq_some (Db.mem_joinedMembers.mp hj).2.1
      have hno := young j.placement hpm (hdestroy hact) (by rw [hact]; rfl)
      rcases hor with hown | hnamed
      · rw [hlookup] at hq
        obtain ⟨hqm, hnamed⟩ := TaskRow.namesPlacement_of_lookup (hown ▸ hlab) hq
        obtain rfl := Db.placements_key hqm hpm (hid.trans hpid.symm)
        rw [hno] at hnamed
        cases hnamed
      · rw [TaskRow.namesMember, if_neg (by rw [hact]; nofun), hno] at hnamed
        cases hnamed
    · intro hact lab user i hlab huser hi hid
      have hno := h.members j hj hlt a ha hold hterm hact
      rcases hor with hown | hnamed
      · rw [hlookupMember] at hi
        obtain ⟨him, hnamed⟩ := TaskRow.namesMember_of_lookup hact (hown ▸ hlab) huser hi
        obtain rfl := Db.joinedMembers_key him hj hid
        rw [hno] at hnamed
        cases hnamed
      · rw [hno] at hnamed
        cases hnamed

/-! ## Whole runs -/

/-- **Results stay with their generation**, in every run that creates no row over an open task
of its names. -/
theorem results_stay_with_generation (host : Host) (before after : List Act)
    (hgen : Run.Along step Generational (Run.run step (.init host) before) after)
    (node : String) (frame : ResultFrame) (t : TaskRow)
    (ht : t ∈ (Run.run step (.init host) (before ++ after)).db.taskLog.rows)
    (hu : t.taskUuid = frame.id)
    (hold : t.id ≤ (Run.run step (.init host) before).db.taskLog.seq) :
    Spared (Run.run step (.init host) before) (Run.run step (.init host) (before ++ after))
      (step (Run.run step (.init host) (before ++ after)) (.frame node (.result frame))) frame t := by
  have hapart : Apart (Run.run step (.init host) before)
      (Run.run step (.init host) (before ++ after)) := by
    rw [Run.run_append]
    exact Run.invariant (fun s a h hg => h.step hg) (.refl (linked_run host before)) hgen
  exact hapart.result ht hu hold

/-- A second lab on the node of `placedLab`. -/
def secondLab : List Act :=
  [.createLab "second" none none none, .createPlacement (placedInput 2 2201) none]

/-- The placement of `placedLab` is dropped and made again. -/
def placedAgain : List Act :=
  [.forceDeletePlacement 1 none, .createPlacement (placedInput 1 2200) none]

/-- A second lab comes to the node while the `lab.create` of the first is open: the result of
that task passes the new placement by. -/
theorem results_stay_with_generation_placed :
    ∃ t ∈ (Run.run step (.init .plain) (placedLab ++ secondLab)).db.taskLog.rows,
      t.taskUuid = "u" ∧
      Spared (Run.run step (.init .plain) placedLab)
        (Run.run step (.init .plain) (placedLab ++ secondLab))
        (step (Run.run step (.init .plain) (placedLab ++ secondLab))
          (.frame "n" (.result ⟨"u", true, none, none, none, none⟩)))
        ⟨"u", true, none, none, none, none⟩ t := by
  have ht : ∃ t ∈ (Run.run step (.init .plain) (placedLab ++ secondLab)).db.taskLog.rows,
      t.taskUuid = "u" ∧ t.id ≤ (Run.run step (.init .plain) placedLab).db.taskLog.seq := by
    decide +kernel
  obtain ⟨t, ht, hu, hold⟩ := ht
  exact ⟨t, ht, hu, results_stay_with_generation .plain placedLab secondLab (by decide +kernel) "n"
    ⟨"u", true, none, none, none, none⟩ t ht hu hold⟩

/-- The placement is dropped while its node is offline and its `lab.create` is open, and made
again. The result of the first `lab.create` activates the second placement, whose own
`lab.create` (task `uuu`) is still queued. -/
theorem old_result_activates_new_placement :
    (Run.run step (.init .plain) placedLab).db.taskLog.rows.map (·.taskUuid) = ["u"] ∧
      (Run.run step (.init .plain) placedLab).db.labPlacements.rows.map (fun r => (r.id, r.state)) =
        [(1, .provisioning)] ∧
      (Run.run step (.init .plain) (placedLab ++ placedAgain)).db.labPlacements.rows.map
        (fun r => (r.id, r.state)) = [(2, .provisioning)] ∧
      (Run.run step (.init .plain) (placedLab ++ placedAgain ++
        [succeeded "n" "u"])).db.labPlacements.rows.map (fun r => (r.id, r.state)) =
          [(2, .active)] ∧
      (Run.run step (.init .plain) (placedLab ++ placedAgain ++
        [succeeded "n" "u"])).db.taskLog.rows.map (fun t => (t.taskUuid, t.action, t.state)) =
          [("u", .labCreate, .ok), ("uu", .labDestroy, .queued), ("uuu", .labCreate, .queued)] := by
  decide +kernel

end MassDeployment
