import MassDeployment.Controller.Completion

set_option autoImplicit false

/-! # The order of cold cleanups

The result that completes a removal issues the cleanups of its nodes. This file shows that
they are issued then, at no other time and no second time, whatever order the results come in
and however often they come.
-/

namespace MassDeployment

open Js Prog

/-! ## What a step issues -/

/-- A task of a removal, for a placement of `s`. -/
def TaskFrame.PartOf (s : Controller) (deleteData : Bool)
    (removal : Option (String × List String)) (frame : TaskFrame) : Prop :=
  frame.action = .studentRemove ∧ ∃ (p : Placement) (username : String),
    p ∈ s.db.placements ∧ frame.params = studentRemoveParams p username deleteData removal

/-- What a removal issues: the tasks of one removal, under an id drawn for it. -/
theorem removeStudentFromLab_issues {K : String → Prop} (s : Controller) (labId studentId : Nat)
    (deleteData : Bool) (actor : Option String) :
    ∃ removal : Option (String × List String),
      (∀ x ∈ removal, ∃ d, s.draws ≤ d ∧
        d < ((removeStudentFromLab labId studentId deleteData actor).after s).draws ∧
        x.1 = s.host.uuid d) ∧
      Quiet (fun _ frame => frame.PartOf s deleteData removal) K s
        ((removeStudentFromLab labId studentId deleteData actor).after s) := by
  have none (s : Controller) : ∃ removal : Option (String × List String),
      (∀ x ∈ removal, ∃ d, s.draws ≤ d ∧ d < s.draws ∧ x.1 = s.host.uuid d) ∧
      Quiet (fun _ frame => frame.PartOf s deleteData removal) K s s := ⟨.none, nofun, .refl s⟩
  unfold removeStudentFromLab Prog.after
  simp only [Op.query, run_read_bind]
  cases hlab : s.db.labs.get labId with
  | none => exact none s
  | some lab =>
  dsimp only
  split
  · exact none s
  rw [run_read_bind]
  cases hmember : (if s.db.isMember labId studentId then s.db.students.get studentId else .none) with
  | none => exact none s
  | some member =>
  dsimp only
  rw [run_read_bind]
  -- the id is drawn first, and everything after it names this removal
  have hdraw : ∃ removal s₁, (removeStudentFromLab.drawRemoval deleteData
      (s.db.listPlacements labId)).run s = (.ok removal, s₁) ∧
      (∀ x ∈ removal, x.1 = s.host.uuid s.draws ∧ s₁.draws = s.draws + 1) := by
    unfold removeStudentFromLab.drawRemoval
    split
    · exact ⟨_, _, rfl, by rintro x ⟨⟩; exact ⟨rfl, rfl⟩⟩
    · exact ⟨.none, s, rfl, nofun⟩
  obtain ⟨removal, s₁, h₁, hfresh⟩ := hdraw
  have hq₁ : Quiet (fun _ frame => frame.PartOf s deleteData removal) K s s₁ := by
    have : Respects (Quiet (fun _ frame => frame.PartOf s deleteData removal) K)
        (removeStudentFromLab.drawRemoval deleteData (s.db.listPlacements labId)) :=
      .ite (fun _ => .bind (quiet_draw _) fun _ => .pure _) fun _ => .pure _
    have := this s
    rwa [h₁] at this
  rw [run_bind_ok h₁]
  have hrest : Respects (Quiet (fun _ frame => frame.PartOf s deleteData removal) K)
      (do
        (s.db.listPlacements labId).forM fun p =>
          removeMemberFromPlacement p studentId member.username deleteData actor removal
        Slot.labMembers.delete fun m => m.labId == labId && m.studentId == studentId
        audit actor "member.remove" (some s!"{lab.name}/{member.username}")
          (if deleteData then some "data deleted" else .none)
        removeStudentFromLab.notify deleteData member lab.name) := by
    refine .bind (.forM _ fun p hp => ?_) fun _ =>
      .bind (quiet_deleteRoster _) fun _ => .bind (quiet_audit _ _ _ _) fun _ => ?_
    · exact walk_removeMemberFromPlacement quietWalk _ _ _ _ _ _ (fun frame ha hparams =>
        ⟨ha, p, member.username, (List.mem_filter.mp (mem_orderBy hp)).1, hparams⟩)
          quiet_deleteMembers
    · unfold removeStudentFromLab.notify
      split
      · exact .ite (fun _ => .pure _) fun _ => quiet_emit _ fun _ => trivial
      · exact .pure _
  have hq := hrest s₁
  refine ⟨removal, fun x hx => ?_, hq₁.trans hq⟩
  obtain ⟨hid, hd⟩ := hfresh x hx
  exact ⟨s.draws, le_rfl, by have := hq.evolves.draws; omega, hid⟩

/-- A successful `student.remove` does nothing to its rows but complete the removal, if it
comes to that. -/
theorem applyLifecycle_removal {node : String} {frame : ResultFrame} {t : TaskRow}
    (ha : t.action = .studentRemove) (hok : frame.ok = true) (s : Controller) :
    (applyLifecycle node frame t).run s = (completeStudentRemoval frame.id).run s ∨
      ∃ o, (applyLifecycle node frame t).run s = (o, s) ∧
        ¬ ∃ lab user, resultLab frame t = .ok lab ∧ lab.truthy = true ∧
          Value.get (safeParams t.params) "username" = .ok user ∧ user.truthy = true := by
  unfold applyLifecycle
  rw [run_bind, lift_run]
  cases hlab : resultLab frame t with
  | error e => exact .inr ⟨_, rfl, by rintro ⟨lab, user, h, -⟩; cases h⟩
  | ok lab =>
      -- no other branch is that of a removal
      have other : ∀ a, a ≠ Action.studentRemove → (t.action == a) = false := fun a h =>
        beq_eq_false_iff_ne.mpr fun he => h (he.symm.trans ha)
      have own : (t.action == Action.studentRemove) = true := beq_iff_eq.mpr ha
      rw [andThen_ok]
      simp only [other .nodeCheck nofun, other .nodeRepair nofun, other .labCreate nofun,
        other .labDestroy nofun, other .studentAdd nofun, own, hok, Bool.and_false, Bool.false_and,
        Bool.and_true, Bool.false_eq_true, if_false]
      cases hl : lab.truthy with
      | false =>
          refine .inr ⟨.ok (), by simp, ?_⟩
          rintro ⟨_, _, ⟨⟩, h, -⟩
          exact absurd (hl.symm.trans h) nofun
      | true =>
          simp only [Bool.not_true, Bool.false_eq_true, if_false, run_bind, lift_run]
          cases huser : Value.get (safeParams t.params) "username" with
          | error e => exact .inr ⟨_, rfl, by rintro ⟨_, _, _, _, h, -⟩; cases h⟩
          | ok user =>
              rw [andThen_ok]
              cases hu : user.truthy with
              | false =>
                  refine .inr ⟨.ok (), by simp, ?_⟩
                  rintro ⟨_, _, _, _, ⟨⟩, h⟩
                  exact absurd (hu.symm.trans h) nofun
              | true => exact .inl (by simp)

/-- The log and the tasks are what they were. -/
def SameTasks (s s' : Controller) : Prop :=
  s'.db.taskLog = s.db.taskLog ∧ s'.issued = s.issued

instance : IsPreorder Controller SameTasks where
  refl _ := ⟨rfl, rfl⟩
  trans _ _ _ h h' := ⟨h'.1.trans h.1, h'.2.trans h.2⟩

theorem sameTasks_logResult (frame : ResultFrame) : Respects SameTasks (logResult frame) := by
  unfold logResult
  split
  · exact .pure _
  · exact .ite (fun _ => .pure _) fun _ => .bind (.read _) fun _ _ => ⟨rfl, rfl⟩

/-- The lab a result is for, and the user of its task, are named. -/
def ResultFrame.Names (frame : ResultFrame) (t : TaskRow) : Prop :=
  ∃ lab user, resultLab frame t = .ok lab ∧ lab.truthy = true ∧
    Value.get (safeParams t.params) "username" = .ok user ∧ user.truthy = true

/-- The step of a successful `student.remove`, as far as the log is concerned. -/
theorem removal_result {node : String} {frame : ResultFrame} {s : Controller} {t : TaskRow}
    (ht : t ∈ s.db.taskLog.rows) (hopen : t.openFor node frame.id = true)
    (ha : t.action = .studentRemove) (hok : frame.ok = true) :
    SameTasks ((completeStudentRemoval frame.id).after (s.settled node frame))
        (step s (.frame node (.result frame))) ∨
      SameTasks (s.settled node frame) (step s (.frame node (.result frame))) ∧
        ¬ frame.Names t := by
  have htask : (applyResult.applyTask node frame).after (s.settled node frame) =
      (applyLifecycle node frame (t.settled frame s.now)).after (s.settled node frame) := by
    rw [applyTask_after ht hopen, show alertFailure frame (t.settled frame s.now) = pure () from
      if_pos hok]
    rfl
  have hstep : SameTasks ((applyResult.applyTask node frame).after (s.settled node frame))
      (step s (.frame node (.result frame))) := by
    rw [accepted_after ht hopen]
    rcases Prog.after_bind (applyResult.applyTask node frame) (fun _ => logResult frame)
      (s.settled node frame) with h | ⟨_, h⟩
    · exact h ▸ refl_of SameTasks _
    · exact h ▸ sameTasks_logResult frame _
  rw [htask] at hstep
  rcases @applyLifecycle_removal node frame (t.settled frame s.now) ha hok
    (s.settled node frame) with h | ⟨o, h, hnot⟩
  · exact .inl (by rwa [Prog.after, h] at hstep)
  · exact .inr ⟨by rwa [Prog.after, h] at hstep, hnot⟩

/-! ## The invariant -/

/-- Removals and cleanups are in order: the tasks of one removal agree on the nodes, and a
cleanup is grounded in a removal all of whose tasks have succeeded, one for each node. -/
structure Ordered (s : Controller) : Prop where
  recorded : Recorded s
  nodes : ∀ x ∈ s.issued, ∀ y ∈ s.issued, ∀ rid, x.2.removalId = some rid →
    y.2.removalId = some rid → x.2.cleanupNodes = y.2.cleanupNodes
  grounded : ∀ x ∈ s.issued, ∀ rid, x.2.cleanupOf = some rid →
    ∃ y ∈ s.issued, y.2.removalId = some rid ∧ x.1 ∈ y.2.cleanupNodes
  barrier : ∀ x ∈ s.issued, ∀ rid, x.2.cleanupOf = some rid →
    ∀ t ∈ s.db.taskLog.rows, t.ofRemoval s.host.conversions (.text rid) = true → t.state = .ok
  once : s.issued.Pairwise fun x y => ∀ rid, x.2.cleanupOf = some rid →
    y.2.cleanupOf = some rid → x.1 ≠ y.1

theorem ordered_init (host : Host) : Ordered (.init host) where
  recorded := recorded_init host
  nodes _ h := absurd h List.not_mem_nil
  grounded _ h := absurd h List.not_mem_nil
  barrier _ h := absurd h List.not_mem_nil
  once := .nil

/-- The id of a removal was drawn. -/
theorem Recorded.removal_drawn {s : Controller} (h : Recorded s) {x : String × TaskFrame}
    (hx : x ∈ s.issued) {rid : String} (hrid : x.2.removalId = some rid) :
    ∃ d < s.draws, rid = s.host.uuid d := by
  have ha : x.2.action = .studentRemove := by
    unfold TaskFrame.removalId at hrid
    split at hrid
    · assumption
    · cases hrid
  obtain ⟨p, username, deleteData, removal, hp, _, hdrawn⟩ := (h.built x hx).remove ha
  rw [removalId_eq ha hp] at hrid
  obtain ⟨y, hy, rfl⟩ := Option.map_eq_some_iff.mp hrid
  exact hdrawn y hy

/-- What a step may issue to stay in order. -/
structure Orderly (s s' : Controller) (new : List (String × TaskFrame)) : Prop where
  built : ∀ x ∈ new, x.2.Built s.host s'.draws
  /-- Its removals are one, under an id that is new. -/
  removal : ∃ removal : Option (String × List String), ∀ x ∈ new, ∀ rid,
    x.2.removalId = some rid →
      removal = some (rid, x.2.cleanupNodes) ∧ ∃ d, s.draws ≤ d ∧ rid = s.host.uuid d
  /-- Its cleanups are those of a removal that completes just now. -/
  cleanup : ∀ x ∈ new, ∀ rid, x.2.cleanupOf = some rid →
    (∃ y ∈ s.issued, y.2.removalId = some rid ∧ x.1 ∈ y.2.cleanupNodes) ∧
    (∃ t ∈ s.db.taskLog.rows, t.ofRemoval s.host.conversions (.text rid) = true ∧ t.state ≠ .ok) ∧
    ∀ t ∈ s'.db.taskLog.rows, t.ofRemoval s.host.conversions (.text rid) = true → t.state = .ok
  once : new.Pairwise fun x y => ∀ rid, x.2.cleanupOf = some rid → y.2.cleanupOf = some rid →
    x.1 ≠ y.1

theorem Ordered.evolves {s s' : Controller} (h : Ordered s) (he : s.Evolves s')
    {new : List (String × TaskFrame)} (hnew : s'.issued = new ++ s.issued)
    (ho : Orderly s s' new) : Ordered s' := by
  have hrec : Recorded s' := h.recorded.evolves he fun new' hnew' x hx => by
    obtain rfl : new' = new := List.append_cancel_right (hnew'.symm.trans hnew)
    exact ho.built x hx
  obtain ⟨removal, hremoval⟩ := ho.removal
  -- a new removal is none of the old ones
  have fresh : ∀ x ∈ new, ∀ y ∈ s.issued, ∀ rid, x.2.removalId = some rid →
      y.2.removalId ≠ some rid := by
    intro x hx y hy rid hxr hyr
    obtain ⟨_, d, hd, rfl⟩ := hremoval x hx rid hxr
    obtain ⟨d', hd', he'⟩ := h.recorded.removal_drawn hy hyr
    have := s.host.uuid_injective _ _ he'
    omega
  have split : ∀ x ∈ s'.issued, x ∈ new ∨ x ∈ s.issued := fun x hx =>
    List.mem_append.mp (hnew ▸ hx)
  refine ⟨hrec, fun x hx y hy rid hxr hyr => ?_, fun x hx rid hof => ?_,
    fun x hx rid hof t ht hof' => ?_, ?_⟩
  · rcases split x hx with hx | hx <;> rcases split y hy with hy | hy
    · obtain ⟨h1, _⟩ := hremoval x hx rid hxr
      obtain ⟨h2, _⟩ := hremoval y hy rid hyr
      exact (Prod.ext_iff.mp (Option.some.inj (h1.symm.trans h2))).2
    · exact absurd hyr (fresh x hx y hy rid hxr)
    · exact absurd hxr (fresh y hy x hx rid hyr)
    · exact h.nodes x hx y hy rid hxr hyr
  · rcases split x hx with hx | hx
    · obtain ⟨⟨y, hy, hyr⟩, _⟩ := ho.cleanup x hx rid hof
      exact ⟨y, hnew ▸ List.mem_append_right _ hy, hyr⟩
    · obtain ⟨y, hy, hyr⟩ := h.grounded x hx rid hof
      exact ⟨y, hnew ▸ List.mem_append_right _ hy, hyr⟩
  · rw [he.host] at hof'
    rcases split x hx with hx | hx
    · exact (ho.cleanup x hx rid hof).2.2 t ht hof'
    · by_cases hold : t.id ≤ s.db.taskLog.seq
      · obtain ⟨t₀, ht₀, hg⟩ := he.taskLog.grows t ht hold
        have hg : t₀.Grows t := hg
        have hst := h.barrier x hx rid hof t₀ ht₀ (hg.ofRemoval _ _ ▸ hof')
        exact (hg.final (by rw [hst]; rfl)).1.trans hst
      · -- a new row is not that of an old removal
        obtain ⟨new', hnew', _, hrows⟩ := he.issued
        obtain rfl : new' = new := List.append_cancel_right (hnew'.symm.trans hnew)
        obtain ⟨frame, hmem, hissues⟩ := hrows t ht (Nat.not_le.mp hold)
        have hfr := (ofRemoval_iff (ho.built _ hmem) hissues).mp hof'
        obtain ⟨y, hy, hyr, _⟩ := h.grounded x hx rid hof
        exact absurd hyr (fresh _ hmem y hy rid hfr)
  · rw [hnew]
    refine List.pairwise_append.mpr ⟨ho.once, h.once, fun x hx y hy rid hxr hyr => ?_⟩
    obtain ⟨_, ⟨t, ht, hof, hst⟩, _⟩ := ho.cleanup x hx rid hxr
    exact absurd (h.barrier y hy rid hyr t ht hof) hst

/-- Ordinary tasks keep the order. -/
theorem orderly_ordinary {s s' : Controller} {new : List (String × TaskFrame)}
    (h : ∀ x ∈ new, x.2.Ordinary) : Orderly s s' new where
  built x hx := (h x hx).built
  removal := ⟨none, fun x hx rid hrid => by
    rw [TaskFrame.removalId, if_neg (h x hx).remove] at hrid
    cases hrid⟩
  cleanup x hx rid hof := by
    rw [TaskFrame.cleanupOf, if_neg (h x hx).cold] at hof
    cases hof
  once := by
    refine List.pairwise_of_forall_mem_list fun x hx y _ rid hof => ?_
    rw [TaskFrame.cleanupOf, if_neg (h x hx).cold] at hof
    cases hof

theorem Ordered.logged {s s' : Controller} (h : Ordered s) {K : String → Prop}
    (hl : Logged (fun _ frame => frame.Ordinary) K s s') : Ordered s' := by
  obtain ⟨new, hnew, ho⟩ := hl.issued
  exact h.evolves hl.evolves hnew (orderly_ordinary ho)

/-- A removal issues its tasks under one new id. -/
theorem Ordered.removal {s : Controller} (h : Ordered s) (hl : s.db.Linked) (labId studentId : Nat)
    (deleteData : Bool) (actor : Option String) :
    Ordered (MassDeployment.step s (.removeStudentFromLab labId studentId deleteData actor)) := by
  obtain ⟨removal, hfresh, hq⟩ := removeStudentFromLab_issues (K := fun _ => True) s labId
    studentId deleteData actor
  obtain ⟨new, hnew, hall⟩ := hq.issued
  have hcold : ∀ x ∈ new, x.2.cleanupOf = none := fun x hx => by
    rw [TaskFrame.cleanupOf, if_neg (by rw [(hall x hx).1]; decide)]
  refine h.evolves hq.evolves hnew ⟨fun x hx => ?_, ⟨removal, fun x hx rid hrid => ?_⟩,
    fun x hx rid hof => ?_, List.pairwise_of_forall_mem_list fun x hx y _ rid hof => ?_⟩
  · obtain ⟨ha, p, username, hp, hparams⟩ := hall x hx
    refine ⟨fun _ => ⟨p, username, deleteData, removal, hparams, ?_, fun y hy => ?_⟩,
      fun hc => absurd (ha.symm.trans hc) (by decide)⟩
    · -- the placement bears the name of its lab
      obtain ⟨_, l, hlab, _, hln, _⟩ := Db.joinPlacement_eq_some (Db.mem_placements.mp hp).2
      exact hln ▸ hl.labName l hlab
    · obtain ⟨d, _, hlt, he⟩ := hfresh y hy
      exact ⟨d, hlt, he⟩
  · obtain ⟨ha, p, username, _, hparams⟩ := hall x hx
    rw [removalId_eq ha hparams] at hrid
    obtain ⟨y, hy, rfl⟩ := Option.map_eq_some_iff.mp hrid
    obtain ⟨d, hle, _, he⟩ := hfresh y hy
    subst hy
    exact ⟨by rw [cleanupNodes_eq hparams], d, hle, he⟩
  · cases (hcold x hx).symm.trans hof
  · cases (hcold x hx).symm.trans hof

/-- The completion of a removal keeps the order. -/
theorem Ordered.completion {s s' : Controller} (h : Ordered s) {node : String}
    {frame : ResultFrame} {t : TaskRow} (ht : t ∈ s.db.taskLog.rows)
    (hopen : t.openFor node frame.id = true)
    (hst : SameTasks ((completeStudentRemoval frame.id).after (s.settled node frame)) s')
    (hev : s.Evolves s') : Ordered s' := by
  obtain ⟨hu, _, hterm⟩ := TaskRow.openFor_iff.mp hopen
  have hrec : Recorded (s.settled node frame) :=
    h.recorded.evolves (evolves_settled s node frame) fun new hnew x hx => by
      obtain rfl : new = [] := List.append_cancel_right (hnew.symm.trans (List.nil_append _).symm)
      exact absurd hx List.not_mem_nil
  obtain ⟨hlog, hissued⟩ := hst
  rcases completeStudentRemoval_spec hrec frame.id with hs | ⟨t', ht', hu', f, rid, hmem, hissues,
    hrid, hall, hclean⟩
  · rw [hs] at hissued
    exact h.evolves hev (hissued.trans (List.nil_append _).symm)
      (orderly_ordinary fun x hx => absurd hx List.not_mem_nil)
  · obtain ⟨new, hnew, hpair, hcold⟩ := hclean.issued
    refine h.evolves hev (hissued.trans hnew) ⟨fun x hx => ?_,
      ⟨none, fun x hx rid' hr => ?_⟩, fun x hx rid' hof => ?_, hpair.imp fun hne _ _ _ => hne⟩
    · obtain ⟨_, hb, _, ha⟩ := hcold x hx
      exact ⟨fun hr => absurd (ha.symm.trans hr) nofun, hb.cold⟩
    · rw [TaskFrame.removalId, if_neg (by rw [(hcold x hx).2.2.2]; nofun)] at hr
      cases hr
    · obtain ⟨hxn, _, hxof, _⟩ := hcold x hx
      cases hxof.symm.trans hof
      have hbuilt := h.recorded.built _ hmem
      refine ⟨⟨_, hmem, hrid, hxn⟩, ⟨t, ht, ?_, ?_⟩, fun g hg hgof => ?_⟩
      · -- the settled row is one of the removal's, and was open
        obtain ⟨t₀, ht₀, hg⟩ := (evolves_settled s node frame).taskLog.grows t' ht'
          ((s.settled node frame).db.taskLog.bounded t' ht')
        have hg : t₀.Grows t' := hg
        obtain rfl : t₀ = t := s.db.taskLog.eq_of_clash ht₀ ht
          (hg.taskUuid.symm.trans (hu'.trans hu.symm))
        exact (ofRemoval_iff hbuilt (t := t₀) ⟨hg.taskUuid.symm.trans hissues.taskUuid,
          hg.action.symm.trans hissues.action, hg.params.symm.trans hissues.params⟩).mpr hrid
      · intro hok
        rw [hok] at hterm
        cases hterm
      · -- all rows of the removal have succeeded, and none was added
        rw [hlog] at hg
        by_cases hold : g.id ≤ (s.settled node frame).db.taskLog.seq
        · obtain ⟨g₀, hg₀, hgr⟩ := hclean.evolves.taskLog.grows g hg hold
          have hgr : g₀.Grows g := hgr
          have hst := hall g₀ hg₀ (hgr.ofRemoval _ _ ▸ hgof)
          exact (hgr.final (by rw [hst]; rfl)).1.trans hst
        · obtain ⟨new', hnew', _, hrows⟩ := hclean.evolves.issued
          obtain rfl : new' = new := List.append_cancel_right (hnew'.symm.trans hnew)
          obtain ⟨fr, hfr, hfi⟩ := hrows g hg (Nat.not_le.mp hold)
          obtain ⟨_, hb, _, ha⟩ := hcold _ hfr
          have := (ofRemoval_iff hb hfi).mp hgof
          rw [TaskFrame.removalId, if_neg (by rw [ha]; nofun)] at this
          cases this

theorem Ordered.step {s : Controller} (h : Ordered s) (hl : s.db.Linked) (a : Act) :
    Ordered (MassDeployment.step s a) := by
  have plain : a.Plain → Ordered (MassDeployment.step s a) := fun ha =>
    h.logged (K := fun _ => True) (quiet_plain (fun _ _ h => h) ha s).logged
  cases a with
  | removeStudentFromLab labId studentId deleteData actor => exact h.removal hl _ _ _ _
  | deleteNode name actor force =>
      exact h.logged (quiet_deleteNode (K := fun _ => False) name actor force id s).logged
  | frame node received =>
      cases received with
      | result frame =>
          by_cases hex : ∃ t ∈ s.db.taskLog.rows, t.openFor node frame.id = true
          · obtain ⟨t, ht, hopen⟩ := hex
            by_cases hr : t.action = .studentRemove ∧ frame.ok = true
            · rcases removal_result ht hopen hr.1 hr.2 with hs | ⟨hs, _⟩
              · exact h.completion ht hopen hs (step_evolves s _)
              · exact h.evolves (step_evolves s _) (hs.2.trans (List.nil_append _).symm)
                  (orderly_ordinary fun x hx => absurd hx List.not_mem_nil)
            · obtain ⟨s₁, s₂, hq, _, hw, hq', _⟩ := handleResult_spec
                (A := fun _ frame => frame.Ordinary) (K := fun _ => True) ht hopen
                fun s' _ ha hok => absurd ⟨ha, hok⟩ hr
              exact h.logged (((logged_settled s node frame).trans hq.logged).trans
                (hw.logged.trans hq'.logged))
          · rw [ignored_step (by simpa using hex)]
            exact h
      | _ => exact plain trivial
  | _ => exact plain trivial

/-! ## Nothing is left out -/

/-- The row of the task says it succeeded. -/
def Controller.Succeeded (s : Controller) (x : String × TaskFrame) : Prop :=
  ∃ t ∈ s.db.taskLog.rows, t.taskUuid = x.2.id ∧ t.state = .ok

/-- The result names the lab of the task, or none, in its own words. -/
def ResultFrame.namesLab (frame : ResultFrame) (t : TaskRow) : Bool :=
  match resultLab frame t with
  | .ok lab => lab.truthy
  | .error _ => false

/-- A successful `student.remove` is not reported for a lab without a name. The agent reports
the lab of the task. -/
def Credible (s : Controller) : Act → Prop
  | .frame node (.result frame) => ∀ t ∈ s.db.taskLog.rows, t.openFor node frame.id = true →
    t.action = .studentRemove → frame.ok = true → frame.namesLab t = true
  | _ => True

instance (s : Controller) (x : String × TaskFrame) : Decidable (s.Succeeded x) :=
  inferInstanceAs (Decidable (∃ t ∈ s.db.taskLog.rows, _))

instance (s : Controller) : (a : Act) → Decidable (Credible s a) :=
  decidableOnReports (fun _ _ => inferInstanceAs (Decidable (∀ t ∈ s.db.taskLog.rows, _))) fun a ha => by
    unfold Credible
    split
    · exact absurd rfl (ha _ _)
    · trivial

/-- Every removal all of whose tasks have succeeded has been cleaned up after. -/
def Covered (s : Controller) : Prop :=
  ∀ rid, rid ≠ "" →
    (∀ y ∈ s.issued, y.2.removalId = some rid →
      s.Succeeded y ∧ y.2.param "username" ≠ some "") →
    ∀ y ∈ s.issued, y.2.removalId = some rid → ∀ node ∈ y.2.cleanupNodes,
      ∃ x ∈ s.issued, x.1 = node ∧ x.2.cleanupOf = some rid

theorem covered_init (host : Host) : Covered (.init host) :=
  fun _ _ _ _ h => absurd h List.not_mem_nil

/-- The row of a task is the row its id is found under. -/
theorem Recorded.issues {s : Controller} (h : Recorded s) (hn : Numbered s)
    {x : String × TaskFrame} (hx : x ∈ s.issued) {t : TaskRow} (ht : t ∈ s.db.taskLog.rows)
    (hid : t.taskUuid = x.2.id) : t.node = x.1 ∧ x.2.Issues t := by
  obtain ⟨frame, hmem, hissues⟩ := h.rows t ht
  obtain rfl := hn.eq_of_id hmem hx (hissues.taskUuid.symm.trans hid)
  exact ⟨rfl, hissues⟩

/-- What was found true of all the tasks of a removal before a step still tells that it is
covered. -/
theorem Covered.of_before {s s' : Controller} (h : Covered s) {new : List (String × TaskFrame)}
    (hnew : s'.issued = new ++ s.issued) {rid : String} (hrid : rid ≠ "")
    (hold : ∀ y ∈ s'.issued, y.2.removalId = some rid → y ∈ s.issued ∧ s.Succeeded y)
    (huser : ∀ y ∈ s'.issued, y.2.removalId = some rid → y.2.param "username" ≠ some "") :
    ∀ y ∈ s'.issued, y.2.removalId = some rid → ∀ node ∈ y.2.cleanupNodes,
      ∃ x ∈ s'.issued, x.1 = node ∧ x.2.cleanupOf = some rid := by
  have sub : ∀ x ∈ s.issued, x ∈ s'.issued := fun x hx => hnew ▸ List.mem_append_right _ hx
  intro y hy hyr node hnode
  obtain ⟨x, hx, h1, h2⟩ := h rid hrid
    (fun z hz hzr => ⟨(hold z (sub z hz) hzr).2, huser z (sub z hz) hzr⟩)
    y (hold y hy hyr).1 hyr node hnode
  exact ⟨x, sub x hx, h1, h2⟩

/-- A task that has succeeded was issued before and had succeeded before, unless the step is
the arrival of its result. -/
theorem succeeded_before {s s' : Controller} (he : s.Evolves s') (hd : Drawn s)
    (htasks : ∀ t' ∈ s'.db.taskLog.rows, t'.state.terminal = true →
      ∃ t ∈ s.db.taskLog.rows, t.id = t'.id ∧ t.state.terminal = true)
    {y : String × TaskFrame} (hy : y ∈ s'.issued) (hs : s'.Succeeded y) :
    y ∈ s.issued ∧ s.Succeeded y := by
  obtain ⟨t', ht', hid', hok⟩ := hs
  obtain ⟨t, ht, hid, hterm⟩ := htasks t' ht' (by rw [hok]; rfl)
  have hg := he.task ht ht' hid.symm
  refine ⟨?_, t, ht, hg.taskUuid.symm.trans hid', (hg.final hterm).1.symm.trans hok⟩
  obtain ⟨new, hnew, hdrawn, _⟩ := he.issued
  rw [hnew] at hy
  refine (List.mem_append.mp hy).resolve_left fun hnewy => ?_
  -- its id would have been drawn before and since
  obtain ⟨d, hle, _, h1⟩ := hdrawn y hnewy
  obtain ⟨d', hlt, h2⟩ := hd t ht
  have := s.host.uuid_injective _ _ ((h2.symm.trans (hg.taskUuid.symm.trans hid')).trans h1)
  omega

/-- The result that completes a removal covers it. -/
theorem covered_result {s : Controller} (ho : Ordered s) (hn : Numbered s) {node : String}
    {frame : ResultFrame} {t : TaskRow} (ht : t ∈ s.db.taskLog.rows)
    (hopen : t.openFor node frame.id = true) (hok : frame.ok = true)
    (hc : t.action = .studentRemove → frame.namesLab t = true) {rid : String} (hrid : rid ≠ "")
    {y : String × TaskFrame} (hy : y ∈ s.issued) (hyid : t.taskUuid = y.2.id)
    (hyr : y.2.removalId = some rid) (huser : y.2.param "username" ≠ some "")
    (hall : ∀ f ∈ (s.settled node frame).db.taskLog.rows,
      f.ofRemoval s.host.conversions (.text rid) = true → f.state = .ok) :
    ∀ n ∈ y.2.cleanupNodes, ∃ x ∈ (step s (.frame node (.result frame))).issued,
      x.1 = n ∧ x.2.cleanupOf = some rid := by
  have hrec : Recorded (s.settled node frame) :=
    ho.recorded.evolves (evolves_settled s node frame) fun new hnew x hx => by
      obtain rfl : new = [] := List.append_cancel_right (hnew.symm.trans (List.nil_append _).symm)
      exact absurd hx List.not_mem_nil
  obtain ⟨_, hissues⟩ := ho.recorded.issues hn hy ht hyid
  have hbuilt := ho.recorded.built y hy
  have ha : t.action = .studentRemove := by
    by_contra ha
    rw [TaskFrame.removalId, if_neg fun h => ha (hissues.action.trans h)] at hyr
    cases hyr
  have ha' := hissues.action.symm.trans ha
  obtain ⟨p, username, deleteData, removal, hp, hlabName, _⟩ := hbuilt.remove ha'
  rw [removalId_eq ha' hp] at hyr
  obtain ⟨⟨rid', nodes⟩, rfl, hrid'⟩ := Option.map_eq_some_iff.mp hyr
  obtain rfl : rid' = rid := hrid'
  have hne : username ≠ "" := fun h => huser (by rw [TaskFrame.param, hp, h]; rfl)
  -- the settled row is a completed task of the removal
  obtain ⟨hu, _, _⟩ := TaskRow.openFor_iff.mp hopen
  have hrow : t.settled frame s.now ∈ (s.settled node frame).db.taskLog.rows :=
    mem_settleTask.mpr ⟨t, ht, if_pos hopen⟩
  have hst : (t.settled frame s.now).state = .ok := by
    show (Mark.done frame.ok).state = .ok
    rw [hok]
    rfl
  have hparams := hp ▸ hissues.params
  have hrun := completeStudentRemoval_run hrec hrow ha hst (show (t.settled frame s.now).params = _
    from hparams)
  rw [if_pos ⟨⟨hrid, hlabName, hne⟩, hall⟩] at hrun
  obtain ⟨s', hloop, hclean⟩ := cleanups_run hrec p.labName username rid' t.requestedBy
    nodes.eraseDups (nodup_eraseDups nodes)
  have hafter : (completeStudentRemoval frame.id).after (s.settled node frame) = s' := by
    rw [Prog.after, ← hu]
    exact congrArg Prod.snd (hrun.trans hloop)
  have hnames : frame.Names t := by
    have hlab := hc ha
    unfold ResultFrame.namesLab at hlab
    split at hlab
    · rename_i lab hl
      have husername : Value.field "username" (redactSecrets (.obj (studentRemoveParams p username
          deleteData (some (rid', nodes))))) = some (.str username) :=
        field_redacted (by decide) rfl
      refine ⟨lab, some (.str username), hl, hlab, ?_, by simp [Value.truthy, hne]⟩
      rw [hparams, safeParams]
      simp only [redactSecrets, Value.get] at husername ⊢
      rw [husername]
    · cases hlab
  rcases removal_result ht hopen ha hok with hs | ⟨_, hnot⟩
  · rw [hafter] at hs
    intro n hn
    rw [cleanupNodes_eq hp] at hn
    rw [hs.2]
    exact hclean.of_eraseDups.covered n hn
  · exact absurd hnames hnot

theorem Covered.step {s : Controller} (h : Covered s) (ho : Ordered s) (hn : Numbered s) {a : Act}
    (hc : Credible s a) : Covered (MassDeployment.step s a) := by
  intro rid hrid hall
  have he := step_evolves s a
  obtain ⟨new, hnew, _⟩ := he.issued
  have huser : ∀ y ∈ (MassDeployment.step s a).issued, y.2.removalId = some rid →
      y.2.param "username" ≠ some "" := fun y hy hyr => (hall y hy hyr).2
  by_cases hres : ∃ node frame, a = .frame node (.result frame)
  · obtain ⟨node, frame, rfl⟩ := hres
    by_cases hex : ∃ t ∈ s.db.taskLog.rows, t.openFor node frame.id = true
    · obtain ⟨t, ht, hopen⟩ := hex
      obtain ⟨s₁, s₂, _, hm, hw, hq, _⟩ := accepted_step ht hopen
      -- what is terminal now is so right after the result was accepted
      have hterm : ∀ t' ∈ (MassDeployment.step s (.frame node (.result frame))).db.taskLog.rows,
          t'.state.terminal = true → ∃ t ∈ (s.settled node frame).db.taskLog.rows,
            t.id = t'.id ∧ t.state.terminal = true := by
        intro t' ht' hterm'
        obtain ⟨t₂, ht₂, h2⟩ := hq.tasks t' ht' hterm'
        rw [hw.taskLog, hm.1] at ht₂
        exact ⟨t₂, ht₂, h2⟩
      have hev : (s.settled node frame).Evolves
          (MassDeployment.step s (.frame node (.result frame))) := by
        rw [accepted_after ht hopen]
        exact (applyResult node frame).keeps _
      have hbefore : ∀ y ∈ (MassDeployment.step s (.frame node (.result frame))).issued,
          y.2.removalId = some rid → y ∈ s.issued ∧ (s.settled node frame).Succeeded y :=
        fun y hy hyr => succeeded_before hev
          (ho.recorded.drawn.evolves (evolves_settled s node frame)) hterm hy (hall y hy hyr).1
      by_cases hlate : ∃ y ∈ s.issued, y.2.removalId = some rid ∧ ¬ s.Succeeded y
      · -- the result is that of the last task
        obtain ⟨y, hy, hyr, hnot⟩ := hlate
        have hy' : y ∈ (MassDeployment.step s (.frame node (.result frame))).issued :=
          hnew ▸ List.mem_append_right _ hy
        obtain ⟨_, t', ht', hid', hok'⟩ := hbefore y hy' hyr
        obtain ⟨t₀, ht₀, hcase⟩ := mem_settleTask.mp ht'
        have hopen₀ : t₀.openFor node frame.id = true := by
          by_contra hclosed
          rw [if_neg hclosed] at hcase
          exact hnot ⟨t₀, ht₀, hcase ▸ hid', hcase ▸ hok'⟩
        obtain rfl : t₀ = t := s.db.taskLog.eq_of_clash ht₀ ht
          ((TaskRow.openFor_iff.mp hopen₀).1.trans (TaskRow.openFor_iff.mp hopen).1.symm)
        rw [if_pos hopen] at hcase
        have hok : frame.ok = true := by
          subst hcase
          cases hf : frame.ok with
          | true => rfl
          | false =>
              have : (Mark.done frame.ok).state = .ok := hok'
              rw [hf] at this
              cases this
        have hcover := covered_result ho hn ht hopen hok (fun ha => hc t₀ ht hopen ha hok) hrid hy
          (by subst hcase; exact hid') hyr (huser y hy' hyr) fun f hf hof => by
            obtain ⟨fr, hfr, hissues⟩ := (ho.recorded.evolves (evolves_settled s node frame)
              fun new hnew x hx => by
                obtain rfl : new = [] :=
                  List.append_cancel_right (hnew.symm.trans (List.nil_append _).symm)
                exact absurd hx List.not_mem_nil).rows f hf
            have hfr : (f.node, fr) ∈ s.issued := hfr
            have hfrid := (ofRemoval_iff (ho.recorded.built _ hfr) hissues).mp hof
            obtain ⟨_, g, hg, hgid, hgok⟩ := hbefore _ (hnew ▸ List.mem_append_right _ hfr) hfrid
            obtain rfl : g = f := (s.settled node frame).db.taskLog.eq_of_clash hg hf
              (hgid.trans hissues.taskUuid.symm)
            exact hgok
        intro z hz hzr
        rw [(ho.nodes z (hbefore z hz hzr).1 y hy rid hzr hyr)]
        exact hcover
      · refine h.of_before hnew hrid (fun y hy hyr => ⟨(hbefore y hy hyr).1, ?_⟩) huser
        by_contra hnot
        exact hlate ⟨y, (hbefore y hy hyr).1, hyr, hnot⟩
    · rw [ignored_step (by simpa using hex)] at hall ⊢
      exact h rid hrid hall
  · have hq := quiet_step (s := s) (a := a) fun node frame he => hres ⟨node, frame, he⟩
    exact h.of_before hnew hrid (fun y hy hyr =>
      succeeded_before he ho.recorded.drawn hq.tasks hy (hall y hy hyr).1) huser

/-! ## Whole runs -/

theorem ordered_run (host : Host) (acts : List Act) :
    Ordered (Run.run step (.init host) acts) ∧ Numbered (Run.run step (.init host) acts) := by
  have hstep : ∀ s a, (Ordered s ∧ Numbered s) ∧ s.db.Linked →
      (Ordered (step s a) ∧ Numbered (step s a)) ∧ (step s a).db.Linked :=
    fun s a h => ⟨⟨h.1.1.step h.2 a, numbered_step h.1.2 a⟩, linked_step h.2 a⟩
  have hinit : (Ordered (.init host) ∧ Numbered (.init host)) ∧
      (Controller.init host).db.Linked :=
    ⟨⟨ordered_init host, nofun, .nil⟩, Db.linked_empty⟩
  exact (Run.invariant_all (I := fun s => (Ordered s ∧ Numbered s) ∧ s.db.Linked) hstep hinit).1

theorem covered_run (host : Host) (acts : List Act)
    (hacts : Run.Along step Credible (.init host) acts) :
    Covered (Run.run step (.init host) acts) := by
  have h := Run.invariant
    (I := fun s : Controller => (Covered s ∧ Ordered s) ∧ Numbered s ∧ s.db.Linked)
    (fun s a h hc => ⟨⟨h.1.1.step h.1.2 h.2.1 hc, h.1.2.step h.2.2 a⟩, numbered_step h.2.1 a,
      linked_step h.2.2 a⟩)
    ⟨⟨covered_init host, ordered_init host⟩, ⟨nofun, .nil⟩, Db.linked_empty⟩ hacts
  exact h.1.1

/-- The tasks of the nodes that are never deleted keep their rows. -/
theorem mirrors_run (host : Host) (acts : List Act) :
    (Run.run step (.init host) acts).Mirrors
      fun node => ∀ actor force, .deleteNode node actor force ∉ acts := by
  have hrun : ∀ (as : List Act) (s : Controller), (∀ a ∈ as, a ∈ acts) →
      (s.Mirrors fun node => ∀ actor force, .deleteNode node actor force ∉ acts) →
      (Run.run step s as).Mirrors fun node => ∀ actor force, .deleteNode node actor force ∉ acts := by
    intro as
    induction as with
    | nil => exact fun s _ h => h
    | cons a as ih =>
        refine fun s has h => ih _ (fun b hb => has b (List.mem_cons_of_mem _ hb)) ?_
        refine mirrors_step h fun name actor force he hk => hk actor force ?_
        exact he ▸ has a List.mem_cons_self
  exact hrun acts _ (fun a ha => ha) fun _ hx => absurd hx List.not_mem_nil

/-- **Cold cleanup is ordered and not duplicated.** In every run no two `student.delete_cold`
are issued for the same removal and node. Every one belongs to a removal all of whose
`student.remove` tasks name its node and have succeeded, but for those that went from the log
with their node. And once all the tasks of a removal have succeeded, one has been issued for
every node they name. -/
theorem cold_cleanup_ordered (host : Host) (acts : List Act) :
    ((Run.run step (.init host) acts).issued.Pairwise fun x y => ∀ rid,
      x.2.cleanupOf = some rid → y.2.cleanupOf = some rid → x.1 ≠ y.1) ∧
    (∀ x ∈ (Run.run step (.init host) acts).issued, x.2.action = .studentDeleteCold →
      ∃ rid, x.2.cleanupOf = some rid ∧
        (∃ y ∈ (Run.run step (.init host) acts).issued, y.2.removalId = some rid) ∧
        ∀ y ∈ (Run.run step (.init host) acts).issued, y.2.removalId = some rid →
          x.1 ∈ y.2.cleanupNodes ∧
          (∀ t ∈ (Run.run step (.init host) acts).db.taskLog.rows, t.taskUuid = y.2.id →
            t.state = .ok) ∧
          ((Run.run step (.init host) acts).Succeeded y ∨
            ∃ actor force, .deleteNode y.1 actor force ∈ acts)) ∧
    (Run.Along step Credible (.init host) acts → ∀ rid, rid ≠ "" →
      (∀ y ∈ (Run.run step (.init host) acts).issued, y.2.removalId = some rid →
        (Run.run step (.init host) acts).Succeeded y ∧ y.2.param "username" ≠ some "") →
      ∀ y ∈ (Run.run step (.init host) acts).issued, y.2.removalId = some rid →
        ∀ node ∈ y.2.cleanupNodes, ∃ x ∈ (Run.run step (.init host) acts).issued,
          x.1 = node ∧ x.2.cleanupOf = some rid) := by
  refine ⟨(ordered_run host acts).1.once, ?_, fun hacts => covered_run host acts hacts⟩
  obtain ⟨ho, hn⟩ := ordered_run host acts
  have hmirrors := mirrors_run host acts
  generalize Run.run step (.init host) acts = s at ho hn hmirrors
  intro x hx ha
  obtain ⟨lab, username, rid, hp⟩ := (ho.recorded.built x hx).cold ha
  have hof := cleanupOf_eq ha hp
  obtain ⟨z, hz, hzr, hznode⟩ := ho.grounded x hx rid hof
  refine ⟨rid, hof, ⟨z, hz, hzr⟩, fun y hy hyr => ⟨?_, ?_⟩⟩
  · rw [ho.nodes y hy z hz rid hyr hzr]
    exact hznode
  have hrow : ∀ t ∈ s.db.taskLog.rows, t.taskUuid = y.2.id → t.state = .ok := by
    intro t ht hid
    obtain ⟨_, hissues⟩ := ho.recorded.issues hn hy ht hid
    exact ho.barrier x hx rid hof t ht ((ofRemoval_iff (ho.recorded.built y hy) hissues).mpr hyr)
  refine ⟨hrow, ?_⟩
  by_cases hdel : ∃ actor force, .deleteNode y.1 actor force ∈ acts
  · exact .inr hdel
  · simp only [not_exists] at hdel
    obtain ⟨t, ht, _, hissues⟩ := hmirrors y hy hdel
    exact .inl ⟨t, ht, hissues.taskUuid, hrow t ht hissues.taskUuid⟩

/-- A student is removed with their data, as removal `uuuuu`, and the node confirms it. -/
def cleanedUp : List Act :=
  placedLab ++ [.addStudentToLab 1 { username := "s" } none, succeeded "n" "u",
    succeeded "n" "uuuu", .removeStudentFromLab 1 1 true none, succeeded "n" "uuuuuu",
    succeeded "n" "uuuuuu"]

/-- The result comes twice, and the cleanup is issued. -/
theorem cold_cleanup_ordered_cleanedUp :
    ∃ x ∈ (Run.run step (.init .plain) cleanedUp).issued,
      x.1 = "n" ∧ x.2.cleanupOf = some "uuuuu" := by
  have hy : ∃ y ∈ (Run.run step (.init .plain) cleanedUp).issued,
      y.2.removalId = some "uuuuu" ∧ "n" ∈ y.2.cleanupNodes := by
    decide +kernel
  have hall : ∀ y ∈ (Run.run step (.init .plain) cleanedUp).issued,
      y.2.removalId = some "uuuuu" →
        (Run.run step (.init .plain) cleanedUp).Succeeded y ∧
          y.2.param "username" ≠ some "" := by
    decide +kernel
  have hacts : Run.Along step Credible (.init .plain) cleanedUp := by
    decide +kernel
  obtain ⟨y, hmem, hrid, hnode⟩ := hy
  obtain ⟨-, -, hcovered⟩ := cold_cleanup_ordered .plain cleanedUp
  exact hcovered hacts "uuuuu" (by decide) hall y hmem hrid "n" hnode

end MassDeployment
