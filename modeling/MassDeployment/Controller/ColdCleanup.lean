import Mathlib
import MassDeployment.Controller.Removals

set_option autoImplicit false

/-! # Cold data of current members

The deletion of a removed student's cold data is put off until every node has removed the
account, and `completeStudentRemoval` does not look at the roster then. This file shows
that no current member loses cold data where nobody is put on a roster they are still being
removed from.
-/

namespace MassDeployment

open Js Prog

/-! ## The roster by names -/

/-- Lab and username of every roster row. -/
def Db.rosterNames (d : Db) : List (String × String) :=
  d.labMembers.rows.filterMap fun m =>
    match d.labs.get m.labId, d.students.get m.studentId with
    | some l, some r => some (l.name, r.username)
    | _, _ => none

theorem Db.mem_rosterNames {d : Db} {x : String × String} (h : x ∈ d.rosterNames) :
    ∃ m ∈ d.labMembers.rows, ∃ l ∈ d.labs.rows, ∃ r ∈ d.students.rows,
      l.id = m.labId ∧ r.id = m.studentId ∧ x = (l.name, r.username) := by
  obtain ⟨m, hm, hx⟩ := List.mem_filterMap.mp h
  split at hx
  · rename_i l r hl hr
    obtain ⟨hl, hli⟩ := Table.get_eq_some.mp hl
    obtain ⟨hr, hri⟩ := Table.get_eq_some.mp hr
    exact ⟨m, hm, l, hl, r, hr, hli, hri, (Option.some.inj hx).symm⟩
  · cases hx

/-! ## The condition -/

/-- The deletion of a node erases no failure that keeps the removal of a current member from
completing. -/
def ErasesNoBar (s : Controller) : Act → Prop
  | .deleteNode name actor force =>
    ∀ f ∈ s.db.taskLog.rows, f.node = name → f.state = .failed →
      ∀ t ∈ s.db.taskLog.rows, t.state.terminal = false → ∀ x ∈ t.removal,
        f.ofRemoval s.host.conversions x.2.2 = true →
          (x.1, x.2.1) ∉ (step s (.deleteNode name actor force)).db.rosterNames
  | _ => True

/-- Nobody is put on a roster while a deleting removal from it can still complete. -/
def Cautious (s : Controller) (a : Act) : Prop :=
  (∀ x ∈ (step s a).db.rosterNames, x ∉ s.db.rosterNames → ¬ s.Removing x.1 x.2) ∧
    ErasesNoBar s a

instance (s : Controller) : (a : Act) → Decidable (ErasesNoBar s a) := by
  intro a
  unfold ErasesNoBar
  split <;> infer_instance

instance (s : Controller) (a : Act) : Decidable (Cautious s a) :=
  inferInstanceAs (Decidable (_ ∧ _))

/-! ## What a step issues -/

/-- A task other than a removal, and a cold deletion only for a removal that could complete
in `s`. -/
def TaskFrame.Due (s : Controller) (frame : TaskFrame) : Prop :=
  frame.action ≠ .studentRemove ∧ (frame.action = .studentDeleteCold →
    ∀ lab username, frame.param "lab" = some lab → frame.param "username" = some username →
      s.Removing lab username)

/-- The last result of a removal finds it one that can complete. -/
theorem due_completion {s s' : Controller} {node : String} {frame : ResultFrame} {t : TaskRow}
    (ht : t ∈ s.db.taskLog.rows) (hopen : t.openFor node frame.id = true)
    (hm : Muted (s.settled node frame) s') {K : String → Prop} :
    Quiet (fun _ task => task.Due s) K s' ((completeStudentRemoval frame.id).after s') := by
  obtain ⟨hu, _, hterm⟩ := TaskRow.openFor_iff.mp hopen
  have hmem : t.settled frame s.now ∈ s'.db.taskLog.rows := by
    rw [hm.1]
    exact mem_settleTask.mpr ⟨t, ht, if_pos hopen⟩
  have hq := completeStudentRemoval_quiet (K := K) hmem
  rw [show (t.settled frame s.now).taskUuid = frame.id from hu] at hq
  refine hq.mono fun _ task ⟨ha, hnames⟩ =>
    ⟨by rw [ha]; nofun, fun _ lab username hlab huser => ?_⟩
  obtain ⟨rid, hrid, hall, -⟩ := hnames lab username hlab huser
  refine ⟨t, ht, hterm, (lab, username, rid), hrid, rfl, rfl, fun f hf hfail => ?_⟩
  -- a failed row is not the one that was settled, and would have stopped the completion
  have hf' : f ∈ s'.db.taskLog.rows := by
    rw [hm.1]
    refine mem_settleTask.mpr ⟨f, hf, if_neg fun ho => ?_⟩
    have := (TaskRow.openFor_iff.mp ho).2.2
    rw [hfail] at this
    cases this
  cases hof : f.ofRemoval s.host.conversions rid with
  | false => rfl
  | true =>
      have := hall f hf' (by rw [hm.2.1]; exact hof)
      rw [hfail] at this
      cases this

theorem result_logged (s : Controller) (node : String) (frame : ResultFrame) :
    Logged (fun _ task => task.Due s) (fun _ => True) s (step s (.frame node (.result frame))) := by
  by_cases hex : ∃ t ∈ s.db.taskLog.rows, t.openFor node frame.id = true
  · obtain ⟨t, ht, hopen⟩ := hex
    obtain ⟨s₁, s₂, hq, _, hw, hq', _⟩ := handleResult_spec ht hopen fun s' hm _ _ =>
      due_completion (K := fun _ => True) ht hopen hm
    exact ((logged_settled s node frame).trans hq.logged).trans (hw.logged.trans hq'.logged)
  · rw [ignored_step (by simpa using hex)]
    exact (Quiet.refl s).logged

/-- No step but a removal issues removals, and no step but the deletion of a node erases rows
of the log. -/
theorem step_logged {s : Controller} {a : Act}
    (hremove : ∀ labId studentId deleteData actor,
      a ≠ .removeStudentFromLab labId studentId deleteData actor) :
    Logged (fun _ task => task.Due s) (fun n => ∀ actor force, a ≠ .deleteNode n actor force)
      s (step s a) := by
  have plain : a.Plain → Logged (fun _ task => task.Due s)
      (fun n => ∀ actor force, a ≠ .deleteNode n actor force) s (step s a) := fun ha =>
    (quiet_plain (fun _ _ h => ⟨h.1, fun hc => absurd hc h.2⟩) ha s).logged
  cases a with
  | removeStudentFromLab labId studentId deleteData actor => exact absurd rfl (hremove _ _ _ _)
  | deleteNode name actor force =>
      exact (quiet_deleteNode name actor force (fun h => h actor force rfl) s).logged
  | frame node received =>
      cases received with
      | result frame =>
          have h := result_logged s node frame
          exact ⟨h.evolves, fun t ht _ => h.kept t ht trivial, h.issued⟩
      | _ => exact plain trivial
  | _ => exact plain trivial

/-! ## The invariant -/

/-- No current member is under a removal that can still complete. -/
structure Barred (s : Controller) : Prop where
  drawn : Drawn s
  roster : ∀ x ∈ s.db.rosterNames, ¬ s.Removing x.1 x.2

theorem barred_init (host : Host) : Barred (.init host) :=
  ⟨drawn_init host, fun x hx => by cases hx⟩

/-- Who is on a roster after a cautious step was not being removed before it. -/
theorem Barred.before {s : Controller} (h : Barred s) {a : Act} (hc : Cautious s a)
    {x : String × String} (hx : x ∈ (step s a).db.rosterNames) : ¬ s.Removing x.1 x.2 := by
  by_cases hold : x ∈ s.db.rosterNames
  · exact h.roster x hold
  · exact hc.1 x hx hold

theorem Barred.removal {s : Controller} (h : Barred s) {labId studentId : Nat} {deleteData : Bool}
    {actor : Option String}
    (hc : Cautious s (.removeStudentFromLab labId studentId deleteData actor)) :
    ∀ x ∈ (step s (.removeStudentFromLab labId studentId deleteData actor)).db.rosterNames,
      ¬ (step s (.removeStudentFromLab labId studentId deleteData actor)).Removing x.1 x.2 := by
  intro x hx hr
  have hbefore := h.before hc hx
  rcases removeStudentFromLab_spec (K := fun _ => True) h.drawn labId studentId deleteData actor with
    hs | ⟨lab, hlab, member, hmember, hlabid, hmemberid, hq, hst, hgone⟩
  · exact hbefore ((congrArg (fun s : Controller => s.Removing x.1 x.2) hs).mp hr)
  · rcases hq.logged.removing hr with ⟨_, frame, t, ⟨ha, p, _, _, hp, hparams⟩, hissues, y, hy, h1, h2⟩ |
      ⟨t, ht, ho, y, hy, h1, h2, hall⟩
    · -- the student who is being removed is off the roster
      obtain ⟨h3, h4⟩ := TaskRow.removal_of_params (hparams ▸ hissues.params) hy
      obtain ⟨m, hm, l, hl, r, hrow, hli, hri, rfl⟩ := Db.mem_rosterNames hx
      replace hl : l ∈ s.db.labs.rows := hst.1 ▸ hl
      replace hrow : r ∈ s.db.students.rows := hst.2 ▸ hrow
      have hll : l = lab := s.db.labs.eq_of_clash hl hlab (h1.symm.trans (h3.trans hp))
      have hrr : r = member := s.db.students.eq_of_clash hrow hmember (.inl (h2.symm.trans h4))
      subst hll hrr
      exact hgone m hm ⟨hli.symm.trans hlabid, hri.symm.trans hmemberid⟩
    · exact hbefore ⟨t, ht, ho, y, hy, h1, h2, fun f hf hfail => hall f hf hfail trivial⟩

theorem Barred.step {s : Controller} (h : Barred s) {a : Act} (hc : Cautious s a) :
    Barred (MassDeployment.step s a) := by
  refine ⟨h.drawn.evolves (step_evolves s a), ?_⟩
  by_cases hremove : ∃ labId studentId deleteData actor,
      a = .removeStudentFromLab labId studentId deleteData actor
  · obtain ⟨labId, studentId, deleteData, actor, rfl⟩ := hremove
    exact h.removal hc
  simp only [not_exists] at hremove
  intro x hx hr
  have hbefore := h.before hc hx
  rcases (step_logged hremove).removing hr with ⟨_, frame, t, hdue, hissues, y, hy, _, _⟩ |
    ⟨t, ht, ho, y, hy, h1, h2, hall⟩
  · exact hdue.1 (hissues.action.symm.trans (TaskRow.removal_action hy))
  · -- a failure in the way was erased, by the deletion of its node
    refine hbefore ⟨t, ht, ho, y, hy, h1, h2, fun f hf hfail => ?_⟩
    by_cases hdel : ∃ actor force, a = .deleteNode f.node actor force
    · obtain ⟨actor, force, rfl⟩ := hdel
      cases hof : f.ofRemoval s.host.conversions y.2.2 with
      | false => rfl
      | true =>
          have hxy : (y.1, y.2.1) = x := by rw [h1, h2]
          exact absurd (hxy ▸ hx) (hc.2 f hf rfl hfail t ht ho y hy hof)
    · simp only [not_exists] at hdel
      exact hall f hf hfail hdel

/-! ## Whole runs -/

/-- **Cold deletion spares current members.** In every run along the condition, a
`student.delete_cold` is issued only for a student who is not on the roster, neither before
nor after the step that issues it. -/
theorem cold_deletion_spares_members (host : Host) (acts : List Act) (a : Act)
    (hacts : Run.Along step Cautious (.init host) (acts ++ [a])) (new : List (String × TaskFrame))
    (hnew : (step (Run.run step (.init host) acts) a).issued =
      new ++ (Run.run step (.init host) acts).issued)
    (x : String × TaskFrame) (hx : x ∈ new) (hcold : x.2.action = .studentDeleteCold)
    (lab username : String) (hlab : x.2.param "lab" = some lab)
    (huser : x.2.param "username" = some username) :
    (lab, username) ∉ (Run.run step (.init host) acts).db.rosterNames ∧
      (lab, username) ∉ (step (Run.run step (.init host) acts) a).db.rosterNames := by
  obtain ⟨hacts, ha, -⟩ := Run.along_append.mp hacts
  have h : Barred (Run.run step (.init host) acts) :=
    Run.invariant (I := Barred) (fun _ _ h hc => h.step hc) (barred_init host) hacts
  generalize Run.run step (.init host) acts = s at h ha hnew
  have hremoving : s.Removing lab username := by
    by_cases hremove : ∃ labId studentId deleteData actor,
        a = .removeStudentFromLab labId studentId deleteData actor
    · -- a removal issues removals only
      obtain ⟨labId, studentId, deleteData, actor, rfl⟩ := hremove
      obtain ⟨new', hnew', hA⟩ := (walk_removeStudentFromLab
        (quietWalk (K := fun _ => True) (A := fun _ frame => frame.action = .studentRemove))
        (fun _ _ h => h) quiet_deleteMembers quiet_deleteRoster labId studentId deleteData
        actor s).issued
      obtain rfl : new = new' := List.append_cancel_right (hnew.symm.trans hnew')
      exact absurd ((hA x hx).symm.trans hcold) nofun
    · simp only [not_exists] at hremove
      obtain ⟨new', hnew', hA⟩ := (step_logged (s := s) hremove).issued
      obtain rfl : new = new' := List.append_cancel_right (hnew.symm.trans hnew')
      exact (hA x hx).2 hcold lab username hlab huser
  exact ⟨fun hon => h.roster _ hon hremoving, fun hon => h.before ha hon hremoving⟩

/-- The newest entry of a record that grew is a new one. -/
theorem newest_mem {α : Type} {new old l : List α} {x : α} (h : l = new ++ old)
    (hlen : old.length < l.length) (hx : x ∈ l.head?) : x ∈ new := by
  subst h
  cases new with
  | nil => exact absurd hlen (lt_irrefl _)
  | cons y new =>
      cases hx
      exact List.mem_cons_self

/-- A student is added to the placement of `placedLab` and removed with their data: the
`student.remove` is task `uuuuuu`. -/
def removed : List Act :=
  placedLab ++ [.addStudentToLab 1 { username := "s" } none, succeeded "n" "u",
    succeeded "n" "uuuu", .removeStudentFromLab 1 1 true none]

/-- The student stays away, and the removal completes. -/
theorem cold_deletion_spares_members_removed :
    ("lab", "s") ∉ (Run.run step (.init .plain) removed).db.rosterNames ∧
      ("lab", "s") ∉
        (step (Run.run step (.init .plain) removed) (succeeded "n" "uuuuuu")).db.rosterNames := by
  obtain ⟨new, hnew, -⟩ :=
    (step_evolves (Run.run step (.init .plain) removed) (succeeded "n" "uuuuuu")).issued
  have hhead : ∃ x ∈ (step (Run.run step (.init .plain) removed)
      (succeeded "n" "uuuuuu")).issued.head?, x.2.action = .studentDeleteCold ∧
        x.2.param "lab" = some "lab" ∧ x.2.param "username" = some "s" := by
    decide +kernel
  have hlen : (Run.run step (.init .plain) removed).issued.length <
      (step (Run.run step (.init .plain) removed) (succeeded "n" "uuuuuu")).issued.length := by
    decide +kernel
  obtain ⟨x, hx, hcold, hlab, huser⟩ := hhead
  exact cold_deletion_spares_members .plain removed (succeeded "n" "uuuuuu") (by decide +kernel)
    new hnew x (newest_mem hnew hlen hx) hcold "lab" "s" hlab huser

/-- The student is added again before the removal is confirmed. The late result issues the
deletion of the cold data of a student who is on the roster, and has a `student.add` under
way on the node. -/
theorem late_removal_hits_member :
    (Run.run step (.init .plain) (removed ++
        [.addStudentToLab 1 { username := "s" } none])).db.rosterNames = [("lab", "s")] ∧
      (Run.run step (.init .plain) (removed ++ [.addStudentToLab 1 { username := "s" } none,
        succeeded "n" "uuuuuu"])).db.rosterNames = [("lab", "s")] ∧
      (Run.run step (.init .plain) (removed ++ [.addStudentToLab 1 { username := "s" } none,
        succeeded "n" "uuuuuu"])).db.taskLog.rows.map (fun t => (t.taskUuid, t.action, t.state)) =
          [("u", .labCreate, .ok), ("uuuu", .studentAdd, .ok), ("uuuuuu", .studentRemove, .ok),
            ("uuuuuuuuu", .studentAdd, .queued), ("uuuuuuuuuu", .studentDeleteCold, .queued)] ∧
      ((Run.run step (.init .plain) (removed ++ [.addStudentToLab 1 { username := "s" } none,
        succeeded "n" "uuuuuu"])).issued.head?.map fun x =>
          (x.2.action, x.2.param "lab", x.2.param "username")) =
            some (.studentDeleteCold, some "lab", some "s") := by
  decide +kernel

end MassDeployment
