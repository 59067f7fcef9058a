import Mathlib
import MassDeployment.Lib.History
import MassDeployment.Controller.Cleanups
import MassDeployment.Controller.ColdCleanup

set_option autoImplicit false

/-! # On whose request data is deleted

Two tasks delete what a student stored: a `student.remove` that says so, and `student.delete_cold`.
The second one is issued by the arrival of a result, with names read back from the log. This file
follows both to where they come from: an admin who asked for the deletion of the data of that
student in that lab, when the student was on its roster and not its PI.
-/

namespace MassDeployment

open Js Prog

/-! ## What a removal issues -/

/-- The admin may take the student off the roster of the lab. -/
structure Controller.Expels (s : Controller) (labId studentId : Nat) (lab : LabRow)
    (member : StudentRow) : Prop where
  known : s.db.labs.get labId = some lab
  student : s.db.students.get studentId = some member
  enrolled : s.db.isMember labId studentId = true
  notPi : lab.piStudentId ≠ some studentId

/-- The task of a removal for one placement. -/
structure TaskFrame.Expulsion (frame : TaskFrame) (p : Placement) (username : String)
    (deleteData : Bool) (removal : Option (String × List String)) (actor : Option String) :
    Prop where
  action : frame.action = .studentRemove
  params : frame.params = studentRemoveParams p username deleteData removal
  requestedBy : frame.requestedBy = actor

/-- The loop over the placements issues one task for each. -/
theorem removeMembers_issued (studentId : Nat) (username : String) (deleteData : Bool)
    (actor : Option String) (removal : Option (String × List String)) (l : List Placement)
    {s : Controller} (hd : Drawn s) :
    ∃ s' new, (l.forM fun p =>
      removeMemberFromPlacement p studentId username deleteData actor removal).run s =
        (.ok (), s') ∧ s'.issued = new ++ s.issued ∧
      (∀ x ∈ new, ∃ p ∈ l, x.1 = p.nodeName ∧
        x.2.Expulsion p username deleteData removal actor) ∧
      ∀ p ∈ l, ∃ x ∈ new, x.1 = p.nodeName ∧
        x.2.Expulsion p username deleteData removal actor := by
  induction l generalizing s with
  | nil =>
      exact ⟨s, [], rfl, rfl, fun _ h => absurd h List.not_mem_nil,
        fun _ h => absurd h List.not_mem_nil⟩
  | cons p l ih =>
      have hone : ∃ s₁, (removeMemberFromPlacement p studentId username deleteData actor removal).run
          s = (.ok (), s₁) ∧ s₁.issued = (p.nodeName, s.nextFrame .studentRemove
            (studentRemoveParams p username deleteData removal) actor) :: s.issued := by
        obtain ⟨s₀, h₀⟩ := enqueueTask_returns hd p.nodeName .studentRemove
          (studentRemoveParams p username deleteData removal) actor
        have hissued : s₀.issued = (p.nodeName, s.nextFrame .studentRemove
            (studentRemoveParams p username deleteData removal) actor) :: s.issued := by
          rcases enqueueTask_run p.nodeName .studentRemove
            (studentRemoveParams p username deleteData removal) actor s with
            ⟨T, s₁, _, hrun, _, _, _, hissued, _⟩ | ⟨e, s₁, _, hrun, _⟩
          · cases h₀.symm.trans hrun
            exact hissued
          · cases h₀.symm.trans hrun
        unfold removeMemberFromPlacement
        rw [run_bind_ok h₀]
        exact ⟨_, rfl, hissued⟩
      obtain ⟨s₁, h₁, hissued⟩ := hone
      have hev : s.Evolves s₁ := by
        have := (removeMemberFromPlacement p studentId username deleteData actor removal).keeps s
        rwa [h₁] at this
      obtain ⟨s', new, hrun, hnew, hfrom, hall⟩ := ih (hd.evolves hev)
      refine ⟨s', new ++ [(p.nodeName, s.nextFrame .studentRemove
        (studentRemoveParams p username deleteData removal) actor)], ?_,
        by rw [hnew, hissued]; simp, fun x hx => ?_, fun q hq => ?_⟩
      · show ((removeMemberFromPlacement p studentId username deleteData actor removal) >>= fun _ =>
          l.forM fun p => removeMemberFromPlacement p studentId username deleteData actor
            removal).run s = _
        rw [run_bind_ok h₁, hrun]
      · rcases List.mem_append.mp hx with hx | hx
        · obtain ⟨q, hq, hx⟩ := hfrom x hx
          exact ⟨q, List.mem_cons_of_mem _ hq, hx⟩
        · obtain rfl := List.mem_singleton.mp hx
          exact ⟨p, List.mem_cons_self, rfl, rfl, rfl, rfl⟩
      · rcases List.mem_cons.mp hq with rfl | hq
        · exact ⟨_, List.mem_append_right _ List.mem_cons_self, rfl, rfl, rfl, rfl⟩
        · obtain ⟨x, hx, hof⟩ := hall q hq
          exact ⟨x, List.mem_append_left _ hx, hof⟩

/-- What a removal issues: nothing, or the tasks of one removal, one for each placement of the lab.
The removal has an id where data is deleted, and names the placements that own cold data. -/
theorem removeStudentFromLab_issued {s : Controller} (hd : Drawn s) (labId studentId : Nat)
    (deleteData : Bool) (actor : Option String) :
    ((removeStudentFromLab labId studentId deleteData actor).after s).issued = s.issued ∨
      ∃ lab member removal new, s.Expels labId studentId lab member ∧
        ((removeStudentFromLab labId studentId deleteData actor).after s).issued =
          new ++ s.issued ∧
        (∀ r ∈ removal, deleteData = true ∧
          r.2 = ((s.db.listPlacements labId).filter fun p =>
            p.nodeColdBackend == .localZfs).map Placement.nodeName) ∧
        (∀ x ∈ new, ∃ p ∈ s.db.listPlacements labId, x.1 = p.nodeName ∧
          x.2.Expulsion p member.username deleteData removal actor) ∧
        ∀ p ∈ s.db.listPlacements labId, ∃ x ∈ new, x.1 = p.nodeName ∧
          x.2.Expulsion p member.username deleteData removal actor := by
  unfold removeStudentFromLab Prog.after
  simp only [Op.query, run_read_bind]
  cases hlab : s.db.labs.get labId with
  | none => exact .inl rfl
  | some lab =>
  dsimp only
  split
  · exact .inl rfl
  rename_i hpi
  rw [run_read_bind]
  by_cases henrolled : s.db.isMember labId studentId = true
  case neg =>
    rw [if_neg henrolled]
    exact .inl rfl
  rw [if_pos henrolled]
  cases hmember : s.db.students.get studentId with
  | none => exact .inl rfl
  | some member =>
  dsimp only
  rw [run_read_bind]
  have hdraw : ∃ removal s₁, (removeStudentFromLab.drawRemoval deleteData
      (s.db.listPlacements labId)).run s = (.ok removal, s₁) ∧ s₁.issued = s.issued ∧
      ∀ r ∈ removal, deleteData = true ∧ r.2 = ((s.db.listPlacements labId).filter fun p =>
        p.nodeColdBackend == .localZfs).map Placement.nodeName := by
    unfold removeStudentFromLab.drawRemoval
    split
    · rename_i hdelete
      refine ⟨_, _, rfl, rfl, fun r hr => ?_⟩
      cases hr
      exact ⟨(Bool.and_eq_true _ _ ▸ hdelete).1, rfl⟩
    · exact ⟨_, _, rfl, rfl, fun r hr => by cases hr⟩
  obtain ⟨removal, s₁, h₁, hsame, hremoval⟩ := hdraw
  have hev : s.Evolves s₁ := by
    have := (removeStudentFromLab.drawRemoval deleteData (s.db.listPlacements labId)).keeps s
    rwa [h₁] at this
  obtain ⟨s₂, new, h₂, hnew, hfrom, hall⟩ := removeMembers_issued studentId member.username
    deleteData actor removal (s.db.listPlacements labId) (hd.evolves hev)
  refine .inr ⟨lab, member, removal, new, ⟨hlab, hmember, henrolled, hpi⟩, ?_, hremoval, hfrom, hall⟩
  rw [run_bind_ok h₁, run_bind_ok h₂]
  have hnotify : ∀ s, ((removeStudentFromLab.notify deleteData member lab.name).run s).2.issued =
      s.issued := by
    intro s
    unfold removeStudentFromLab.notify
    split
    · split <;> rfl
    · rfl
  refine Eq.trans ?_ (hnew.trans (congrArg (new ++ ·) hsame))
  simp only [run_bind]
  exact hnotify _

/-- The placements of a lab bear its name. -/
theorem labName_of_listPlacements {d : Db} {labId : Nat} {lab : LabRow} {p : Placement}
    (hlab : d.labs.get labId = some lab) (hp : p ∈ d.listPlacements labId) : p.labName = lab.name := by
  obtain ⟨hlabm, hlabid⟩ := Table.get_eq_some.mp hlab
  obtain ⟨hpm, hpl⟩ := List.mem_filter.mp (mem_orderBy hp)
  obtain ⟨_, l, hl, hli, hln, _⟩ := Db.joinPlacement_eq_some (Db.mem_placements.mp hpm).2
  have hsame : l = lab := d.labs.eq_of_id hl hlabm
    (hli.trans ((beq_iff_eq.mp hpl).trans hlabid.symm))
  rw [hln, hsame]

/-! ## What the other steps issue -/

/-- A cold deletion for a removal the log holds a task of. -/
def TaskFrame.Completes (s : Controller) (frame : TaskFrame) : Prop :=
  frame.action = .studentDeleteCold ∧ ∀ lab username rid, frame.param "lab" = some lab →
    frame.param "username" = some username → frame.param "removal_id" = some rid →
      ∃ t ∈ s.db.taskLog.rows, t.removal = some (lab, username, .text rid)

/-- No step but a removal issues removals, and no cold deletion is issued but for one in the log. -/
theorem step_completes {s : Controller} {a : Act}
    (hremove : ∀ labId studentId deleteData actor,
      a ≠ .removeStudentFromLab labId studentId deleteData actor) :
    ∃ new, (step s a).issued = new ++ s.issued ∧
      ∀ x ∈ new, x.2.Ordinary ∨ x.2.Completes s := by
  have plain : a.Plain → ∃ new, (step s a).issued = new ++ s.issued ∧
      ∀ x ∈ new, x.2.Ordinary ∨ x.2.Completes s := fun ha =>
    (quiet_plain (A := fun _ frame => frame.Ordinary ∨ frame.Completes s) (K := fun _ => True)
      (fun _ _ h => .inl h) ha s).issued
  cases a with
  | removeStudentFromLab labId studentId deleteData actor => exact absurd rfl (hremove _ _ _ _)
  | deleteNode name actor force =>
      obtain ⟨new, hnew, hall⟩ :=
        (quiet_deleteNode (A := fun _ frame => frame.Ordinary) (K := fun _ => False)
          name actor force id s).issued
      exact ⟨new, hnew, fun x hx => .inl (hall x hx)⟩
  | frame node received =>
      cases received with
      | result frame =>
          by_cases hex : ∃ t ∈ s.db.taskLog.rows, t.openFor node frame.id = true
          case neg =>
            rw [ignored_step (by simpa using hex)]
            exact ⟨[], rfl, fun _ hx => absurd hx List.not_mem_nil⟩
          obtain ⟨t, ht, hopen⟩ := hex
          have hcold : ∀ s', Muted (s.settled node frame) s' →
              Quiet (fun _ task => task.Ordinary ∨ task.Completes s) (fun _ => True) s'
                ((completeStudentRemoval frame.id).after s') := by
            intro s' hm
            have hmem : t.settled frame s.now ∈ s'.db.taskLog.rows := by
              rw [hm.1]
              exact mem_settleTask.mpr ⟨t, ht, if_pos hopen⟩
            have hq := completeStudentRemoval_quiet (K := fun _ => True) hmem
            rw [show (t.settled frame s.now).taskUuid = frame.id from
              (TaskRow.openFor_iff.mp hopen).1] at hq
            refine hq.mono fun _ task ⟨ha, hnames⟩ => .inr ⟨ha, fun lab username rid hl hu hr => ?_⟩
            -- settling a row changes nothing of what it says
            obtain ⟨rid', hrid, -, hid⟩ := hnames lab username hl hu
            exact ⟨t, ht, hid rid hr ▸ hrid⟩
          obtain ⟨s₁, s₂, hq, _, hw, hq', _⟩ := handleResult_spec ht hopen
            fun s' hm _ _ => hcold s' hm
          exact (((logged_settled s node frame).trans hq.logged).trans
            (hw.logged.trans hq'.logged)).issued
      | _ => exact plain trivial
  | _ => exact plain trivial

/-- The removal id in the log is that of the task. -/
theorem TaskRow.removal_id_of_params {t : TaskRow} {p : Placement} {username : String}
    {deleteData : Bool} {removal : Option (String × List String)}
    (h : t.params = .text (redactSecrets (.obj (studentRemoveParams p username deleteData removal))))
    {lab user rid : String} (hx : t.removal = some (lab, user, .text rid)) :
    removal.map Prod.fst = some rid := by
  unfold TaskRow.removal at hx
  split at hx
  case isFalse => cases hx
  rw [h] at hx
  cases removal with
  | none =>
      have hnone : Value.get (some (redactSecrets
          (.obj (studentRemoveParams p username deleteData none)))) "removal_id" = .ok none := by
        have hfield : Value.field "removal_id" (redactSecrets (.obj (studentRemoveParams p username
            deleteData none))) = none := field_redacted_none (by decide) rfl
        simp only [redactSecrets, Value.get] at hfield ⊢
        rw [hfield]
      simp only [JsonText.parse, hnone] at hx
      split at hx
      · rename_i heq
        cases heq
        cases hx
      · cases hx
  | some r =>
      have hsome : Value.get (some (redactSecrets
          (.obj (studentRemoveParams p username deleteData (some r))))) "removal_id" =
            .ok (some (.str r.1)) := by
        have hfield : Value.field "removal_id" (redactSecrets (.obj (studentRemoveParams p username
            deleteData (some r)))) = some (.str r.1) := field_redacted (by decide) rfl
        simp only [redactSecrets, Value.get] at hfield ⊢
        rw [hfield]
      simp only [JsonText.parse, hsome] at hx
      split at hx
      · rename_i heq
        cases heq
        split at hx
        · cases hx
          rfl
        · cases hx
      · cases hx

/-! ## Whole runs -/

/-- The task deletes what a student stored. -/
def TaskFrame.Deletes (frame : TaskFrame) : Prop :=
  frame.action = .studentRemove ∧ frame.params.lookup "delete_data" = some (.bool true) ∨
    frame.action = .studentDeleteCold

/-- Every cold deletion bears the names of a removal that was issued before. -/
def Derived (s : Controller) : Prop :=
  ∀ x ∈ s.issued, x.2.action = .studentDeleteCold → ∃ y ∈ s.issued,
    y.2.action = .studentRemove ∧ y.2.removalId = x.2.cleanupOf ∧
      y.2.param "lab" = x.2.param "lab" ∧ y.2.param "username" = x.2.param "username"

theorem derived_step {s : Controller} (h : Derived s) (hordered : Ordered s) {a : Act}
    (hordered' : Ordered (step s a)) : Derived (step s a) := by
  have grown : ∃ new, (step s a).issued = new ++ s.issued ∧
      ∀ x ∈ new, x.2.action = .studentDeleteCold → x.2.Completes s := by
    by_cases hremove : ∃ labId studentId deleteData actor,
        a = .removeStudentFromLab labId studentId deleteData actor
    · obtain ⟨labId, studentId, deleteData, actor, rfl⟩ := hremove
      rcases removeStudentFromLab_issued hordered.recorded.drawn labId studentId deleteData actor with
        hsame | ⟨_, _, _, new, _, hnew, _, hfrom, _⟩
      · exact ⟨[], hsame, fun _ hx => absurd hx List.not_mem_nil⟩
      · refine ⟨new, hnew, fun x hx hcold => ?_⟩
        obtain ⟨p, _, _, hx⟩ := hfrom x hx
        cases hx.action.symm.trans hcold
    · simp only [not_exists] at hremove
      obtain ⟨new, hnew, hall⟩ := step_completes hremove
      exact ⟨new, hnew, fun x hx hcold =>
        (hall x hx).resolve_left fun hordinary => hordinary.cold hcold⟩
  obtain ⟨new, hnew, hcompletes⟩ := grown
  intro x hx hcold
  have hbuilt := hordered'.recorded.built x hx
  rw [hnew] at hx ⊢
  rcases List.mem_append.mp hx with hx | hx
  · -- the row it was read from is that of a removal
    obtain ⟨lab, username, rid, hparams⟩ := hbuilt.cold hcold
    have hlab : x.2.param "lab" = some lab := by rw [TaskFrame.param, hparams]; rfl
    have huser : x.2.param "username" = some username := by rw [TaskFrame.param, hparams]; rfl
    have hrid : x.2.param "removal_id" = some rid := by rw [TaskFrame.param, hparams]; rfl
    obtain ⟨t, ht, hremoval⟩ := (hcompletes x hx hcold).2 lab username rid hlab huser hrid
    obtain ⟨y, hy, hissues, hyb⟩ := hordered.recorded.row ht
    have hya : y.action = .studentRemove :=
      hissues.action.symm.trans (TaskRow.removal_action hremoval)
    obtain ⟨p, name, deleteData, removal, hyp, _⟩ := hyb.remove hya
    obtain ⟨hl, hu⟩ : lab = p.labName ∧ username = name :=
      TaskRow.removal_of_params (hyp ▸ hissues.params) hremoval
    have hid := TaskRow.removal_id_of_params (hyp ▸ hissues.params) hremoval
    refine ⟨_, List.mem_append_right _ hy, hya, ?_, ?_, ?_⟩
    · rw [removalId_eq hya hyp, hid, cleanupOf_eq hcold hparams]
    · rw [hlab, hl, TaskFrame.param, hyp]
      rfl
    · rw [huser, hu, TaskFrame.param, hyp]
      rfl
  · obtain ⟨y, hy, hof⟩ := h x hx hcold
    exact ⟨y, List.mem_append_right _ hy, hof⟩

/-- The step expels a member, and the task is one of those it issues. -/
def Expelling (x : String × TaskFrame) (s : Controller) (a : Act) : Prop :=
  ∃ labId studentId deleteData actor lab member removal new,
    a = .removeStudentFromLab labId studentId deleteData actor ∧
    s.Expels labId studentId lab member ∧ (step s a).issued = new ++ s.issued ∧
    (∀ r ∈ removal, deleteData = true ∧
      r.2 = ((s.db.listPlacements labId).filter fun p =>
        p.nodeColdBackend == .localZfs).map Placement.nodeName) ∧
    (∃ p ∈ s.db.listPlacements labId, x.1 = p.nodeName ∧
      x.2.Expulsion p member.username deleteData removal actor) ∧
    ∀ p ∈ s.db.listPlacements labId, ∃ y ∈ new, y.1 = p.nodeName ∧
      y.2.Expulsion p member.username deleteData removal actor

/-- A `student.remove` that is there after a step was there before, or the step expels a member. -/
theorem expelling_step {s : Controller} (hd : Drawn s) {a : Act} {x : String × TaskFrame}
    (ha : x.2.action = .studentRemove) (hnow : x ∈ (step s a).issued) :
    x ∈ s.issued ∨ Expelling x s a := by
  by_cases hremove : ∃ labId studentId deleteData actor,
      a = .removeStudentFromLab labId studentId deleteData actor
  · obtain ⟨labId, studentId, deleteData, actor, rfl⟩ := hremove
    rcases removeStudentFromLab_issued hd labId studentId deleteData actor with
      hsame | ⟨lab, member, removal, new, hexpels, hnew, hremoval, hfrom, hall⟩
    · exact .inl (hsame ▸ hnow)
    · rcases List.mem_append.mp (hnew ▸ hnow) with hx | hx
      · exact .inr ⟨labId, studentId, deleteData, actor, lab, member, removal, new, rfl, hexpels,
          hnew, hremoval, hfrom x hx, hall⟩
      · exact .inl hx
  · simp only [not_exists] at hremove
    obtain ⟨new, hnew, hnone⟩ := step_completes hremove
    refine (List.mem_append.mp (hnew ▸ hnow)).symm.imp id fun hx => ?_
    rcases hnone x hx with hordinary | hcompletes
    · exact absurd ha hordinary.remove
    · cases ha.symm.trans hcompletes.1

/-! ## Requests -/

/-- In the state `before` the admin could expel the student, whose data the task deletes on a node
that hosted the lab. Where the task deletes shared cold data, the node owns it, every node of the lab
was told to remove the account, and what the log of `s` still holds of these removals has
succeeded. -/
def Controller.Requested (before s : Controller) (labId studentId : Nat) (x : String × TaskFrame) :
    Prop :=
  ∃ lab member, before.Expels labId studentId lab member ∧
    x.2.param "lab" = some lab.name ∧ x.2.param "username" = some member.username ∧
    ∃ p ∈ before.db.listPlacements labId, p.nodeName = x.1 ∧
      (x.2.action = .studentDeleteCold → p.nodeColdBackend = .localZfs ∧
        ∀ q ∈ before.db.listPlacements labId, ∃ y ∈ s.issued, y.1 = q.nodeName ∧
          y.2.action = .studentRemove ∧ y.2.param "lab" = some lab.name ∧
          y.2.param "username" = some member.username ∧
          ∀ t ∈ s.db.taskLog.rows, t.taskUuid = y.2.id → t.state = .ok)

/-- What is known of the tasks that delete data. -/
structure Deliberate (s : Controller) : Prop where
  ordered : Ordered s
  numbered : Numbered s
  linked : s.db.Linked
  derived : Derived s

theorem deliberate_init (host : Host) : Deliberate (.init host) where
  ordered := ordered_init host
  numbered := ⟨fun _ hx => absurd hx List.not_mem_nil, .nil⟩
  linked := Db.linked_empty
  derived _ hx := absurd hx List.not_mem_nil

theorem Deliberate.step {s : Controller} (h : Deliberate s) (a : Act) :
    Deliberate (MassDeployment.step s a) where
  ordered := h.ordered.step h.linked a
  numbered := numbered_step h.numbered a
  linked := linked_step h.linked a
  derived := derived_step h.derived h.ordered (h.ordered.step h.linked a)

theorem deliberate_run (host : Host) (acts : List Act) :
    Deliberate (Run.run MassDeployment.step (.init host) acts) :=
  Run.invariant_all (I := Deliberate) (fun _ a h => h.step a) (deliberate_init host)

theorem Expulsion.names {frame : TaskFrame} {lab : LabRow} {p : Placement} {username : String}
    {deleteData : Bool} {removal : Option (String × List String)} {actor : Option String}
    (h : frame.Expulsion p username deleteData removal actor) (hname : p.labName = lab.name) :
    frame.param "lab" = some lab.name ∧ frame.param "username" = some username := by
  rw [TaskFrame.param, TaskFrame.param, h.params, ← hname]
  exact ⟨rfl, rfl⟩

/-- **Where every removal goes back to an admin, every deletion does.** -/
theorem Deliberate.requested {s : Controller} (h : Deliberate s) {P : Controller → Act → Prop}
    (horigin : ∀ y ∈ s.issued, y.2.action = .studentRemove → ∃ before a, P before a ∧
      Expelling y before a ∧ ∀ z ∈ (MassDeployment.step before a).issued, z ∈ s.issued)
    {x : String × TaskFrame} (hx : x ∈ s.issued) (hdeletes : x.2.Deletes) :
    ∃ before labId studentId actor, P before (.removeStudentFromLab labId studentId true actor) ∧
      before.Requested s labId studentId x := by
  rcases hdeletes with ⟨ha, hdelete⟩ | hcold
  · obtain ⟨before, _, hP, ⟨labId, studentId, deleteData, actor, lab, member, removal, new, rfl,
      hexpels, _, _, ⟨p, hp, hnode, hof⟩, _⟩, _⟩ := horigin x hx ha
    rw [hof.params] at hdelete
    obtain rfl : deleteData = true := by cases hdelete; rfl
    obtain ⟨hlab, huser⟩ := Expulsion.names hof (labName_of_listPlacements hexpels.known hp)
    exact ⟨before, labId, studentId, actor, hP, lab, member, hexpels, hlab, huser, p, hp, hnode.symm,
      fun h => by cases ha.symm.trans h⟩
  · -- the removal it was derived from, and the one that names its node, have one id
    obtain ⟨y, hy, hya, hyid, hylab, hyuser⟩ := h.derived x hx hcold
    obtain ⟨_, _, rid, hparams⟩ := (h.ordered.recorded.built x hx).cold hcold
    have hof := cleanupOf_eq hcold hparams
    rw [hof] at hyid
    obtain ⟨z, hz, hzid, hxnode⟩ := h.ordered.grounded x hx rid hof
    rw [← h.ordered.nodes y hy z hz rid hyid hzid] at hxnode
    obtain ⟨before, _, hP, ⟨labId, studentId, deleteData, actor, lab, member, removal, new, rfl,
      hexpels, hnew, hremoval, ⟨p, hp, hnode, hyof⟩, hall⟩, hkept⟩ := horigin y hy hya
    rw [removalId_eq hya hyof.params] at hyid
    obtain ⟨⟨rid', nodes⟩, rfl, hrid⟩ := Option.map_eq_some_iff.mp hyid
    obtain rfl : rid' = rid := hrid
    obtain ⟨rfl, rfl⟩ := hremoval _ rfl
    rw [cleanupNodes_eq hyof.params] at hxnode
    obtain ⟨owner, howner, hxowner⟩ := List.mem_map.mp hxnode
    obtain ⟨hownerp, hlocal⟩ := List.mem_filter.mp howner
    obtain ⟨hlab, huser⟩ := Expulsion.names hyof (labName_of_listPlacements hexpels.known hp)
    refine ⟨before, labId, studentId, actor, hP, lab, member, hexpels, hylab ▸ hlab, hyuser ▸ huser,
      owner, hownerp, hxowner, fun _ => ⟨by simpa using hlocal, fun q hq => ?_⟩⟩
    obtain ⟨w, hw, hwnode, hwof⟩ := hall q hq
    have hwissued : w ∈ s.issued := hkept w (hnew ▸ List.mem_append_left _ hw)
    obtain ⟨hwlab, hwuser⟩ := Expulsion.names hwof (labName_of_listPlacements hexpels.known hq)
    refine ⟨w, hwissued, hwnode, hwof.action, hwlab, hwuser, fun t ht hid => ?_⟩
    obtain ⟨_, hissues⟩ := h.ordered.recorded.issues h.numbered hwissued ht hid
    refine h.ordered.barrier x hx rid' hof t ht ?_
    refine (ofRemoval_iff (h.ordered.recorded.built w hwissued) hissues).mpr ?_
    rw [removalId_eq hwof.action hwof.params]
    rfl

/-- **Student data is deleted on request.** In every run, a task that deletes what a student stored
goes back to an admin who removed that student from that lab and asked for it, while the student was
on the roster and not its PI, and the node hosted the lab. Shared cold data is deleted on the node
that owns it, after every node of the lab was told to remove the account and has done so. -/
theorem data_deletion_on_request (host : Host) (acts : List Act) (x : String × TaskFrame)
    (hx : x ∈ (Run.run step (.init host) acts).issued) (hdeletes : x.2.Deletes) :
    ∃ before labId studentId actor after,
      acts = before ++ .removeStudentFromLab labId studentId true actor :: after ∧
      (Run.run step (.init host) before).Requested (Run.run step (.init host) acts)
        labId studentId x := by
  have horigin : ∀ y ∈ (Run.run step (.init host) acts).issued, y.2.action = .studentRemove →
      ∃ s a, (∃ before after, acts = before ++ a :: after ∧ s = Run.run step (.init host) before) ∧
        Expelling y s a ∧ ∀ z ∈ (step s a).issued, z ∈ (Run.run step (.init host) acts).issued := by
    intro y hy ha
    obtain ⟨before, a, after, rfl, hexpelling⟩ := Run.exists_origin (M := fun s => y ∈ s.issued)
      (C := Expelling y) (fun acts a hnow =>
        expelling_step (deliberate_run host acts).ordered.recorded.drawn ha hnow)
      (fun h => absurd h List.not_mem_nil) hy
    refine ⟨_, a, ⟨before, after, rfl, rfl⟩, hexpelling, fun z hz => ?_⟩
    rw [Run.run_append, Run.run_cons]
    obtain ⟨new, hnew, _⟩ := (run_evolves (step (Run.run step (.init host) before) a) after).issued
    rw [hnew]
    exact List.mem_append_right _ hz
  obtain ⟨_, labId, studentId, actor, ⟨before, after, hacts, rfl⟩, hrequested⟩ :=
    (deliberate_run host acts).requested horigin hx hdeletes
  exact ⟨before, labId, studentId, actor, after, hacts, hrequested⟩

/-- The cold deletion that ends the removal of `removed`. -/
theorem data_deletion_on_request_removed : ∃ x ∈ (Run.run step (.init .plain)
    (removed ++ [succeeded "n" "uuuuuu"])).issued, x.2.action = .studentDeleteCold ∧
      ∃ before labId studentId actor after, removed ++ [succeeded "n" "uuuuuu"] =
        before ++ .removeStudentFromLab labId studentId true actor :: after := by
  have hhead : ∃ x ∈ (Run.run step (.init .plain)
      (removed ++ [succeeded "n" "uuuuuu"])).issued.head?, x.2.action = .studentDeleteCold := by
    decide +kernel
  obtain ⟨x, hx, hcold⟩ := hhead
  have hmem := List.mem_of_mem_head? hx
  obtain ⟨before, labId, studentId, actor, after, hacts, _⟩ :=
    data_deletion_on_request .plain _ x hmem (.inr hcold)
  exact ⟨x, hmem, hcold, before, labId, studentId, actor, after, hacts⟩

end MassDeployment
