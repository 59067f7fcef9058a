import MassDeployment.Controller.Results

set_option autoImplicit false

/-! # What a removal leaves behind

`removeStudentFromLab` drops a student from the roster at once and leaves one
`student.remove` task per placement; the last of their results to arrive makes
`completeStudentRemoval` queue the deletion of the student's cold data. This file says which
tasks the two issue, and on what grounds.
-/

namespace MassDeployment

open Js Prog

/-! ## Which tasks a stretch issues -/

/-- `s'` is `s` some time later; the tasks issued since are allowed by `A`, and no row of the
log of the nodes in `K` was deleted. -/
structure Logged (A : String → TaskFrame → Prop) (K : String → Prop) (s s' : Controller) :
    Prop where
  evolves : s.Evolves s'
  kept : ∀ t ∈ s.db.taskLog.rows, K t.node → ∃ t' ∈ s'.db.taskLog.rows, t'.id = t.id
  issued : ∃ new, s'.issued = new ++ s.issued ∧ ∀ x ∈ new, A x.1 x.2

section

variable {A : String → TaskFrame → Prop} {K : String → Prop}

theorem Quiet.logged {s s' : Controller} (h : Quiet A K s s') : Logged A K s s' :=
  ⟨h.evolves, h.kept, h.issued⟩

theorem Logged.trans {s s' s'' : Controller} (h : Logged A K s s') (h' : Logged A K s' s'') :
    Logged A K s s'' where
  evolves := h.evolves.trans h'.evolves
  kept t ht hk := by
    obtain ⟨t', ht', hid⟩ := h.kept t ht hk
    obtain ⟨t'', ht'', hid'⟩ := h'.kept t' ht' ((h.evolves.task ht ht' hid).node ▸ hk)
    exact ⟨t'', ht'', hid'.trans hid⟩
  issued := by
    obtain ⟨new, hnew, ha⟩ := h.issued
    obtain ⟨new', hnew', ha'⟩ := h'.issued
    refine ⟨new' ++ new, by rw [hnew', hnew, List.append_assoc], fun x hx => ?_⟩
    exact (List.mem_append.mp hx).elim (ha' x) (ha x)

theorem logged_settled (s : Controller) (node : String) (frame : ResultFrame) :
    Logged A K s (s.settled node frame) where
  evolves := evolves_settled s node frame
  kept t ht _ := by
    refine ⟨_, mem_settleTask.mpr ⟨t, ht, rfl⟩, ?_⟩
    split <;> rfl
  issued := ⟨[], rfl, by simp⟩

theorem ResultWrite.logged {node : String} {frame : ResultFrame} {t : TaskRow}
    {s s' : Controller} (h : ResultWrite node frame t s s') : Logged A K s s' where
  evolves := h.evolves
  kept t ht _ := ⟨t, h.taskLog ▸ ht, rfl⟩
  issued := ⟨[], by cases h <;> rfl, by simp⟩

/-- A row added to the log on the way is that of a task that was allowed. -/
theorem Logged.new_row {s s' : Controller} (h : Logged A K s s') {t : TaskRow}
    (ht : t ∈ s'.db.taskLog.rows) (hlt : s.db.taskLog.seq < t.id) :
    ∃ frame, A t.node frame ∧ frame.Issues t := by
  obtain ⟨new, hnew, _, hrows⟩ := h.evolves.issued
  obtain ⟨new', hnew', ha⟩ := h.issued
  obtain ⟨frame, hmem, hf⟩ := hrows t ht hlt
  obtain rfl : new = new' := List.append_cancel_right (hnew.symm.trans hnew')
  exact ⟨frame, ha _ hmem, hf⟩

end

/-! ## Removals in progress -/

/-- The lab, the username and the removal id of a task of a deleting removal, as
`completeStudentRemoval` reads them. -/
def TaskRow.removal (t : TaskRow) : Option (String × String × SqlValue) :=
  if t.action = .studentRemove then
    match t.params.parse with
    | none => none
    | some json =>
      match Value.get (some json) "lab", Value.get (some json) "username",
        Value.get (some json) "removal_id" with
      | .ok (some (.str lab)), .ok (some (.str username)), .ok removalId =>
        if removalId.truthy then
          match bindAll 1 [removalId] with
          | .ok [rid] => some (lab, username, rid)
          | _ => none
        else none
      | _, _, _ => none
  else none

/-- The task is one of this removal, as the query for its states finds it. -/
def TaskRow.ofRemoval (c : Conversions) (rid : SqlValue) (t : TaskRow) : Bool :=
  t.action == .studentRemove &&
    match jsonExtract c t.params "removal_id" with
    | .ok v => v.same rid
    | .error _ => false

/-- A deleting removal of this user from this lab can still complete: one of its tasks is
open, and none has failed. -/
def Controller.Removing (s : Controller) (lab username : String) : Prop :=
  ∃ t ∈ s.db.taskLog.rows, t.state.terminal = false ∧ ∃ x ∈ t.removal,
    x.1 = lab ∧ x.2.1 = username ∧
      ∀ f ∈ s.db.taskLog.rows, f.state = .failed → f.ofRemoval s.host.conversions x.2.2 = false

instance (s : Controller) (lab username : String) : Decidable (s.Removing lab username) :=
  inferInstanceAs (Decidable (∃ t ∈ s.db.taskLog.rows, _))

theorem TaskRow.Grows.removal {t t' : TaskRow} (h : t.Grows t') : t'.removal = t.removal := by
  simp only [TaskRow.removal, h.action, h.params]

theorem TaskRow.Grows.ofRemoval {t t' : TaskRow} (h : t.Grows t') (c : Conversions)
    (rid : SqlValue) : t'.ofRemoval c rid = t.ofRemoval c rid := by
  simp only [TaskRow.ofRemoval, h.action, h.params]

theorem TaskRow.removal_action {t : TaskRow} {x : String × String × SqlValue}
    (h : x ∈ t.removal) : t.action = .studentRemove := by
  unfold TaskRow.removal at h
  split at h
  · assumption
  · cases h

/-- What a task's row says of a removal is what its parameters say: redaction leaves names
alone. -/
theorem TaskRow.removal_of_params {t : TaskRow} {p : Placement} {username : String}
    {deleteData : Bool} {removal : Option (String × List String)}
    (h : t.params = .text (redactSecrets (.obj (studentRemoveParams p username deleteData removal))))
    {x : String × String × SqlValue} (hx : x ∈ t.removal) :
    x.1 = p.labName ∧ x.2.1 = username := by
  have hget : ∀ k v, k ≠ "__proto__" ∧ secretKey k = false →
      (studentRemoveParams p username deleteData removal).lookup k = some (.str v) →
      Value.get (some (redactSecrets
        (.obj (studentRemoveParams p username deleteData removal)))) k = .ok (some (.str v)) := by
    intro k v hk hv
    simp only [redactSecrets, Value.get, Value.field, lookup_redactFields hk.1, hv, Option.map_some,
      hk.2]
    rfl
  have hlab := hget "lab" p.labName (by decide) rfl
  have huser := hget "username" username (by decide) rfl
  unfold TaskRow.removal at hx
  split at hx
  · rw [h] at hx
    simp only [JsonText.parse, hlab, huser] at hx
    split at hx
    · rename_i h1 h2 _
      cases h1
      cases h2
      split at hx
      · split at hx
        · cases hx
          exact ⟨rfl, rfl⟩
        · cases hx
      · cases hx
    · cases hx
  · cases hx

/-- A removal that can complete after a stretch was issued on the way, or could complete
before, up to the failures the stretch erased. -/
theorem Logged.removing {A : String → TaskFrame → Prop} {K : String → Prop} {s s' : Controller}
    (h : Logged A K s s') {lab username : String} (hr : s'.Removing lab username) :
    (∃ node frame t, A node frame ∧ frame.Issues t ∧ ∃ x ∈ t.removal,
      x.1 = lab ∧ x.2.1 = username) ∨
    ∃ t ∈ s.db.taskLog.rows, t.state.terminal = false ∧ ∃ x ∈ t.removal,
      x.1 = lab ∧ x.2.1 = username ∧ ∀ f ∈ s.db.taskLog.rows, f.state = .failed → K f.node →
        f.ofRemoval s.host.conversions x.2.2 = false := by
  obtain ⟨t', ht', ho, x, hx, hlab, huser, hall⟩ := hr
  by_cases hold : t'.id ≤ s.db.taskLog.seq
  · obtain ⟨t, ht, hg⟩ := h.evolves.taskLog.grows t' ht' hold
    have hg : t.Grows t' := hg
    refine .inr ⟨t, ht, hg.isOpen ho, x, hg.removal ▸ hx, hlab, huser, fun f hf hfail hk => ?_⟩
    obtain ⟨f', hf', hid⟩ := h.kept f hf hk
    have hgf := h.evolves.task hf hf' hid
    rw [← hgf.ofRemoval, ← h.evolves.host]
    exact hall f' hf' ((hgf.final (by rw [hfail]; rfl)).1.trans hfail)
  · obtain ⟨frame, ha, hf⟩ := h.new_row ht' (Nat.not_le.mp hold)
    exact .inl ⟨_, frame, t', ha, hf, x, hx, hlab, huser⟩

/-! ## `completeStudentRemoval` -/

/-- The elements a filter with exceptions keeps. -/
theorem mem_filterMapM {ε α β : Type} {f : α → Except ε (Option β)} {l : List α} {ys : List β}
    (h : l.filterMapM f = .ok ys) {x : α} (hx : x ∈ l) :
    ∃ o, f x = .ok o ∧ ∀ y ∈ o, y ∈ ys := by
  induction l generalizing ys with
  | nil => cases hx
  | cons a l ih =>
      rw [List.filterMapM_cons] at h
      cases ha : f a with
      | error e => rw [ha] at h; cases h
      | ok o =>
          rw [ha] at h
          cases hl : l.filterMapM f with
          | error e =>
              rw [hl] at h
              cases o <;> cases h
          | ok zs =>
              rw [hl] at h
              have hys : ys = o.toList ++ zs := by
                cases o <;> cases h <;> rfl
              subst hys
              rcases List.mem_cons.mp hx with rfl | hx
              · refine ⟨o, ha, fun y hy => ?_⟩
                rw [Option.mem_def.mp hy]
                exact List.mem_append_left _ (by simp)
              · obtain ⟨o', ho', hmem⟩ := ih hl hx
                exact ⟨o', ho', fun y hy => List.mem_append_right _ (hmem y hy)⟩

/-- The states of a removal's tasks are those of the rows that belong to it. -/
theorem mem_removalStates {c : Conversions} {d : Db} {rid : SqlValue} {states : List TaskState}
    (h : removalStates c d rid = .ok states) {f : TaskRow} (hf : f ∈ d.taskLog.rows)
    (hof : f.ofRemoval c rid = true) : f.state ∈ states := by
  unfold removalStates at h
  have h : d.taskLog.rows.filterMapM (fun t =>
      if t.action = .studentRemove then
        (jsonExtract c t.params "removal_id").map fun v => if v.same rid then some t.state else none
      else .ok none) = .ok states := by
    simpa using h
  obtain ⟨o, ho, hmem⟩ := mem_filterMapM h hf
  simp only [TaskRow.ofRemoval, Bool.and_eq_true, beq_iff_eq] at hof
  rw [if_pos hof.1] at ho
  cases hv : jsonExtract c f.params "removal_id" with
  | error e =>
      rw [hv] at hof
      cases hof.2
  | ok v =>
      rw [hv] at ho hof
      cases ho
      have hsame : v.same rid = true := hof.2
      refine hmem f.state ?_
      show f.state ∈ if v.same rid then some f.state else none
      rw [if_pos hsame]
      rfl

/-- What `completeStudentRemoval` issues: cold deletions for a removal all of whose tasks
have succeeded. -/
theorem completeStudentRemoval_quiet {K : String → Prop} {s : Controller} {t : TaskRow}
    (ht : t ∈ s.db.taskLog.rows) :
    Quiet (fun _ frame => frame.action = .studentDeleteCold ∧
        ∀ lab username, frame.param "lab" = some lab → frame.param "username" = some username →
          ∃ rid, t.removal = some (lab, username, rid) ∧
            (∀ f ∈ s.db.taskLog.rows, f.ofRemoval s.host.conversions rid = true → f.state = .ok) ∧
            ∀ id, frame.param "removal_id" = some id → rid = .text id)
      K s ((completeStudentRemoval t.taskUuid).after s) := by
  unfold completeStudentRemoval Prog.after
  rw [run_read_bind]
  dsimp only [id]
  split
  · exact .refl s
  · rename_i task htask
    obtain ⟨hmem, hp⟩ := Table.find_some htask
    simp only [Bool.and_eq_true, beq_iff_eq, decide_eq_true_eq] at hp
    obtain rfl : task = t := s.db.taskLog.eq_of_clash hmem ht hp.1.1
    split
    · exact .refl s
    · rename_i json hjson
      simp only [run_bind, lift_run]
      cases hrid : Value.get (some json) "removal_id" with
      | error e => exact .refl s
      | ok removalId =>
      rw [andThen_ok, run_bind, lift_run]
      cases hlab : Value.get (some json) "lab" with
      | error e => exact .refl s
      | ok lab =>
      rw [andThen_ok, run_bind, lift_run]
      cases huser : Value.get (some json) "username" with
      | error e => exact .refl s
      | ok username =>
      rw [andThen_ok]
      split
      · exact .refl s
      rename_i htruthy
      rw [run_bind, lift_run]
      cases hbind : bindAll 1 [removalId] with
      | error e => exact .refl s
      | ok values =>
      rw [andThen_ok]
      split
      · rename_i rid
        rw [run_bind, lift_run]
        cases hstates : removalStates s.host.conversions s.db rid with
        | error e => exact .refl s
        | ok states =>
        rw [andThen_ok]
        split
        · exact .refl s
        rename_i hall
        simp only [Bool.or_eq_true, List.any_eq_true, decide_eq_true_eq, not_or, not_exists,
          not_and, not_not] at hall
        refine Respects.bind (quiet_lift _) (fun nodes => .forM _ fun node _ => ?_) s
        refine walk_enqueueColdCleanup quietWalk _ _ _ _ _ fun frame ha hparams => ⟨ha, ?_⟩
        intro labName name hl hn
        -- the names of the deletion are those the task was read with
        rw [TaskFrame.param, hparams] at hl hn
        have hid : ∀ id, frame.param "removal_id" = some id →
            Value.asString (some (removalId.getD .null)) = some id := by
          intro id h
          rwa [TaskFrame.param, hparams] at h
        have hstr : ∀ (v : Value) (text : String), Value.asString (some (v.getD .null)) = some text →
            v = some (.str text) := by
          intro v text h
          cases v with
          | none => cases h
          | some j => cases j <;> cases h; rfl
        obtain rfl := hstr lab _ hl
        obtain rfl := hstr username _ hn
        have ht' : removalId.truthy = true := by
          cases hr : removalId.truthy with
          | true => rfl
          | false => exact absurd (by simp [hr]) htruthy
        refine ⟨rid, ?_, fun f hf hof => hall.2 _ (mem_removalStates hstates hf hof), fun id h => ?_⟩
        · simp only [TaskRow.removal, if_pos hp.1.2, hjson, hlab, huser, hrid, ht', if_true, hbind]
        · obtain rfl := hstr removalId id (hid id h)
          cases hbind
          rfl
      · exact .refl s

/-! ## `removeStudentFromLab` -/

/-- A task of a removal of this user from this lab. -/
def TaskFrame.Removes (frame : TaskFrame) (lab username : String) : Prop :=
  frame.action = .studentRemove ∧ ∃ (p : Placement) (deleteData : Bool)
    (removal : Option (String × List String)),
    p.labName = lab ∧ frame.params = studentRemoveParams p username deleteData removal

/-- A fresh task id clashes with nothing: enqueueing returns. -/
theorem enqueueTask_returns {s : Controller} (hd : Drawn s) (node : String) (action : Action)
    (params : Params) (requestedBy : Option String) :
    ∃ s', (enqueueTask node action params requestedBy).run s =
      (.ok (s.nextFrame action params requestedBy), s') := by
  rcases enqueueTask_run node action params requestedBy s with
    ⟨T, s', _, hrun, _⟩ | ⟨e, s', hnone, _⟩
  · exact ⟨s', hrun⟩
  · refine absurd hnone ?_
    unfold Table.insert
    rw [dif_pos fun r hr hclash => ?_]
    · exact Option.some_ne_none _
    · obtain ⟨d, hlt, hid⟩ := hd r hr
      have hclash : r.taskUuid = s.host.uuid s.draws := hclash
      have := s.host.uuid_injective d s.draws (hid.symm.trans hclash)
      omega

/-- The loop over the placements returns. -/
theorem removeMembers_return (studentId : Nat) (username : String) (deleteData : Bool)
    (actor : Option String) (removal : Option (String × List String)) (l : List Placement)
    {s : Controller} (hd : Drawn s) :
    ∃ s', (l.forM fun p =>
      removeMemberFromPlacement p studentId username deleteData actor removal).run s =
        (.ok (), s') := by
  induction l generalizing s with
  | nil => exact ⟨s, rfl⟩
  | cons p l ih =>
      obtain ⟨s₁, h₁⟩ := enqueueTask_returns hd p.nodeName .studentRemove
        (studentRemoveParams p username deleteData removal) actor
      have hx : ∃ s₂, (removeMemberFromPlacement p studentId username deleteData actor removal).run s =
          (.ok (), s₂) := by
        unfold removeMemberFromPlacement
        rw [run_bind_ok h₁]
        exact ⟨_, rfl⟩
      obtain ⟨s₂, h₂⟩ := hx
      have hev : s.Evolves s₂ := by
        have := (removeMemberFromPlacement p studentId username deleteData actor removal).keeps s
        rwa [h₂] at this
      obtain ⟨s', h'⟩ := ih (hd.evolves hev)
      refine ⟨s', ?_⟩
      show ((removeMemberFromPlacement p studentId username deleteData actor removal) >>= fun _ =>
        l.forM fun p => removeMemberFromPlacement p studentId username deleteData actor removal).run s
          = _
      rw [run_bind_ok h₂, h']

/-- Labs and students are what they were. -/
def Staffed (s s' : Controller) : Prop := s'.db.labs = s.db.labs ∧ s'.db.students = s.db.students

instance : IsPreorder Controller Staffed where
  refl _ := ⟨rfl, rfl⟩
  trans _ _ _ h h' := ⟨h'.1.trans h.1, h'.2.trans h.2⟩

theorem staffed_removeMemberFromPlacement (p : Placement) (studentId : Nat) (username : String)
    (deleteData : Bool) (actor : Option String) (removal : Option (String × List String)) :
    Respects Staffed
      (removeMemberFromPlacement p studentId username deleteData actor removal) := by
  refine .bind (fun s => ?_) fun _ _ => ⟨rfl, rfl⟩
  rcases enqueueTask_run p.nodeName .studentRemove
    (studentRemoveParams p username deleteData removal) actor s with
    ⟨T, s', _, hrun, hdb, _⟩ | ⟨e, s', _, hrun, hdb, _⟩
  all_goals
    rw [hrun]
    exact ⟨by rw [hdb], by rw [hdb]⟩

/-- What a removal does: nothing, or it issues the tasks of this student's removal from this
lab and takes them off the roster. -/
theorem removeStudentFromLab_spec {K : String → Prop} {s : Controller} (hd : Drawn s)
    (labId studentId : Nat) (deleteData : Bool) (actor : Option String) :
    (removeStudentFromLab labId studentId deleteData actor).after s = s ∨
      ∃ lab ∈ s.db.labs.rows, ∃ member ∈ s.db.students.rows,
        lab.id = labId ∧ member.id = studentId ∧
        Quiet (fun _ frame => frame.Removes lab.name member.username) K s
          ((removeStudentFromLab labId studentId deleteData actor).after s) ∧
        Staffed s ((removeStudentFromLab labId studentId deleteData actor).after s) ∧
        ∀ m ∈ ((removeStudentFromLab labId studentId deleteData actor).after s).db.labMembers.rows,
          ¬ (m.labId = labId ∧ m.studentId = studentId) := by
  unfold removeStudentFromLab Prog.after
  simp only [Op.query, run_read_bind]
  cases hlab : s.db.labs.get labId with
  | none => exact .inl rfl
  | some lab =>
  dsimp only
  split
  · exact .inl rfl
  rw [run_read_bind]
  cases hmember : (if s.db.isMember labId studentId then s.db.students.get studentId else none) with
  | none => exact .inl rfl
  | some member =>
  dsimp only
  rw [run_read_bind]
  obtain ⟨hlabm, hlabid⟩ := Table.get_eq_some.mp hlab
  have hmem : s.db.students.get studentId = some member := by
    split at hmember
    · exact hmember
    · cases hmember
  obtain ⟨hmemberm, hmemberid⟩ := Table.get_eq_some.mp hmem
  refine .inr ⟨lab, hlabm, member, hmemberm, hlabid, hmemberid, ?_, ?_, ?_⟩
  · refine Respects.bind ?_ (fun removal => .bind (.forM _ fun p hp => ?_) fun _ =>
      .bind (quiet_deleteRoster _) fun _ => .bind (quiet_audit _ _ _ _) fun _ => ?_) s
    · exact .ite (fun _ => .bind (quiet_draw _) fun _ => .pure _) fun _ => .pure _
    · refine walk_removeMemberFromPlacement quietWalk _ _ _ _ _ _ (fun frame ha hparams =>
        ⟨ha, p, deleteData, removal, ?_, hparams⟩) quiet_deleteMembers
      -- the placements are those of the lab, and bear its name
      obtain ⟨hpm, hpl⟩ := List.mem_filter.mp (mem_orderBy hp)
      obtain ⟨_, l, hl, hli, hln, _⟩ := Db.joinPlacement_eq_some (Db.mem_placements.mp hpm).2
      have : l = lab := s.db.labs.eq_of_id hl hlabm (hli.trans ((beq_iff_eq.mp hpl).trans hlabid.symm))
      rw [hln, this]
    · unfold removeStudentFromLab.notify
      split
      · exact .ite (fun _ => .pure _) fun _ => quiet_emit _ fun _ => trivial
      · exact .pure _
  · refine Respects.bind ?_ (fun removal => .bind (.forM _ fun p _ =>
      staffed_removeMemberFromPlacement _ _ _ _ _ _) fun _ =>
      .bind (fun _ => ⟨rfl, rfl⟩) fun _ => .bind (fun _ => ⟨rfl, rfl⟩) fun _ => ?_) s
    · exact .ite (fun _ => .bind (fun _ => ⟨rfl, rfl⟩) fun _ => .pure _) fun _ => .pure _
    · unfold removeStudentFromLab.notify
      split
      · exact .ite (fun _ => .pure _) fun _ _ => ⟨rfl, rfl⟩
      · exact .pure _
  · -- nothing on the way throws, so the roster row is deleted
    have hdraw : ∃ removal s₁,
        (removeStudentFromLab.drawRemoval deleteData (s.db.listPlacements labId)).run s =
          (.ok removal, s₁) := by
      unfold removeStudentFromLab.drawRemoval
      split <;> exact ⟨_, _, rfl⟩
    obtain ⟨removal, s₁, h₁⟩ := hdraw
    have hev : s.Evolves s₁ := by
      have := (removeStudentFromLab.drawRemoval deleteData (s.db.listPlacements labId)).keeps s
      rwa [h₁] at this
    obtain ⟨s₂, h₂⟩ := removeMembers_return studentId member.username deleteData actor removal
      (s.db.listPlacements labId) (hd.evolves hev)
    rw [run_bind_ok h₁, run_bind_ok h₂]
    have hnotify : ∀ s, ((removeStudentFromLab.notify deleteData member lab.name).run s).2.db = s.db := by
      intro s
      unfold removeStudentFromLab.notify
      split
      · split <;> rfl
      · rfl
    intro m hm
    have hm : m ∈ (s₂.db.labMembers.delete fun m =>
        m.labId == labId && m.studentId == studentId).rows := by
      have := hm
      simp only [run_bind] at this
      rw [show (Slot.labMembers.delete fun m => m.labId == labId && m.studentId == studentId).run s₂ =
        (.ok (), (Slot.labMembers.delete fun m =>
          m.labId == labId && m.studentId == studentId).after s₂) from rfl, andThen_ok, run_bind] at this
      exact (congrArg (fun d : Db => m ∈ d.labMembers.rows) (hnotify _)).mp this
    have := (Table.mem_delete.mp hm).2
    simpa using this

end MassDeployment
