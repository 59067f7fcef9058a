import MassDeployment.Controller.Calls
import MassDeployment.Controller.Lifecycle

set_option autoImplicit false

/-! # What a result does

A result that takes effect settles its task, makes at most one write to one placement or one
member, and is quiet otherwise. `handleResult_spec` takes it apart in this way.
-/

namespace MassDeployment

open Js Prog

variable {A : String → TaskFrame → Prop} {K : String → Prop}

/-! ## Nothing happens to placements and members -/

/-- Where a placement is, and in which state. -/
def PlacementRow.standing (r : PlacementRow) :
    Nat × Nat × Nat × PlacementState × Option String :=
  (r.id, r.labId, r.nodeId, r.state, r.lastError)

/-- The state and the error of every placement and member are what they were, and so is the
cold storage of every node. -/
structure Still (s s' : Controller) : Prop where
  host : s'.host = s.host
  standing : s'.db.labPlacements.rows.map PlacementRow.standing =
    s.db.labPlacements.rows.map PlacementRow.standing
  members : s'.db.placementMembers = s.db.placementMembers
  cold : s'.db.nodes.rows.map NodeRow.cold = s.db.nodes.rows.map NodeRow.cold

namespace Still

theorem refl (s : Controller) : Still s s := ⟨rfl, rfl, rfl, rfl⟩

theorem trans {s s' s'' : Controller} (h : Still s s') (h' : Still s' s'') : Still s s'' :=
  ⟨h'.host.trans h.host, h'.standing.trans h.standing, h'.members.trans h.members,
    h'.cold.trans h.cold⟩

theorem placements {s s' : Controller} (h : Still s s') :
    ∀ r ∈ s.db.labPlacements.rows, ∃ r' ∈ s'.db.labPlacements.rows,
      r'.id = r.id ∧ r'.state = r.state ∧ r'.lastError = r.lastError := by
  intro r hr
  have hmem := h.standing ▸ List.mem_map_of_mem (f := PlacementRow.standing) hr
  obtain ⟨r', hr', he⟩ := List.mem_map.mp hmem
  simp only [PlacementRow.standing, Prod.mk.injEq] at he
  exact ⟨r', hr', he.1, he.2.2.2.1, he.2.2.2.2⟩

instance : IsPreorder Controller Still where
  refl := refl
  trans _ _ _ := trans

/-- A write elsewhere. -/
theorem frame {s s' : Controller} (hh : s'.host = s.host)
    (hp : s'.db.labPlacements = s.db.labPlacements)
    (hm : s'.db.placementMembers = s.db.placementMembers) (hn : s'.db.nodes = s.db.nodes) :
    Still s s' := ⟨hh, hp ▸ rfl, hm, hn ▸ rfl⟩

end Still

theorem still_writeLists (f : Db → Db) (h) : Respects Still (Op.writeLists f h) :=
  fun s => .frame rfl (h s.db).2.2.2.2.1 (h s.db).2.2.2.2.2.1 (h s.db).1

theorem still_emit (e : Event) : Respects Still (Op.emit e) := fun _ => .frame rfl rfl rfl rfl

theorem still_lift {α : Type} (x : Except Error α) : Respects Still (Op.lift x) :=
  fun s => by rw [lift_run]; exact .refl s

theorem still_updateNode (name : String) (f : NodeRow → NodeRow) (h)
    (hf : ∀ r, (f r).cold = r.cold) : Respects Still (updateNode name f h) :=
  fun _ => ⟨rfl, rfl, rfl, Table.map_update NodeRow.cold (keeps_node _ f h) hf⟩

theorem still_updatePlacement (i : Nat) (f : PlacementRow → PlacementRow) (h)
    (hf : ∀ r, (f r).standing = r.standing) : Respects Still (updatePlacement i f h) :=
  fun _ => ⟨rfl, Table.map_update PlacementRow.standing (keeps_placement _ f h) hf, rfl, rfl⟩

theorem still_enqueueTask (node : String) (action : Action) (params : Params)
    (requestedBy : Option String) :
    Respects Still (enqueueTask node action params requestedBy) := by
  intro s
  simp only [enqueueTask]
  split <;> exact .frame rfl rfl rfl rfl

theorem still_insertLog (row : LogRow) : Respects Still (insertLog row) := still_writeLists _ _

theorem still_logMailFailure (source msg node : String) (lab user : Value) (e : Error) :
    Respects Still (logMailFailure source msg node lab user e) := by
  refine .bind (.read _) fun _ => ?_
  split
  · exact still_insertLog _
  · exact .pure _

theorem still_suspend (waiting : Thread) : Respects Still (suspend waiting) :=
  .ite (fun _ => .pure _) fun _ _ => .frame rfl rfl rfl rfl

theorem still_deliverPlacementCredential (labName : Value) (nodeName : String) (username : Value) :
    Respects Still (deliverPlacementCredential labName nodeName username) := by
  refine .bind (.bind (.read _) fun _ => still_lift _) fun pending => ?_
  split
  · exact .pure _
  · split
    · refine .bind (.read _) fun _ => .ite (fun _ => .pure _) fun _ => ?_
      exact .bind (still_emit _) fun _ => .pure _
    · exact .pure _

theorem still_startCredentialMail (labName : Value) (node : String) (username : Value) :
    Respects Still (startCredentialMail labName node username) := by
  refine .bind (.tryCatch (still_deliverPlacementCredential _ _ _) fun e => ?_) fun w =>
    still_suspend w
  exact .bind (still_logMailFailure _ _ _ _ _ _) fun _ => .pure _

/-- The claim of the completion mail touches neither state nor error. -/
theorem still_maybeDeliverPlacementCompletion (labName : Value) (nodeName : String) :
    Respects Still (maybeDeliverPlacementCompletion labName nodeName) := by
  refine .bind (.bind (.read _) fun _ => still_lift _) fun p => ?_
  split
  · exact .pure _
  · refine .bind (.read _) fun s => ?_
    dsimp only
    split
    · refine .ite (fun _ => .pure _) fun _ => .ite (fun _ => .pure _) fun _ => ?_
      refine .bind (still_updatePlacement _ _ _ fun _ => ?_) fun _ =>
        .bind (still_emit _) fun _ => .pure _
      rfl
    · exact .pure _

theorem still_startCompletionMail (labName : Value) (node : String) :
    Respects Still (startCompletionMail labName node) := by
  refine .bind (.tryCatch (still_maybeDeliverPlacementCompletion _ _) fun e => ?_) fun w =>
    still_suspend w
  exact .bind (still_logMailFailure _ _ _ _ _ _) fun _ => .pure _

theorem still_completeStudentRemoval (taskUuid : String) :
    Respects Still (completeStudentRemoval taskUuid) := by
  refine .bind (.read _) fun s => ?_
  dsimp only
  split
  · exact .pure _
  · split
    · exact .pure _
    · refine .bind (still_lift _) fun _ => .bind (still_lift _) fun _ =>
        .bind (still_lift _) fun _ => .ite (fun _ => .pure _) fun _ =>
          .bind (still_lift _) fun values => ?_
      split
      · refine .bind (still_lift _) fun states => .ite (fun _ => .pure _) fun _ =>
          .bind (still_lift _) fun nodes => .forM _ fun node _ => ?_
        refine .bind (.read _) fun _ => .bind (still_lift _) fun values =>
          .bind (still_lift _) fun _ => ?_
        split
        · exact .ite (fun _ => .pure _) fun _ => .bind (still_enqueueTask _ _ _ _) fun _ => .pure _
        · exact .pure _
      · exact .pure _

/-! ## Alerts -/

/-- The database, the platform and the tasks are what they were. -/
def Muted (s s' : Controller) : Prop := s'.db = s.db ∧ s'.host = s.host ∧ s'.issued = s.issued

instance : IsPreorder Controller Muted where
  refl _ := ⟨rfl, rfl, rfl⟩
  trans _ _ _ h h' := ⟨h'.1.trans h.1, h'.2.1.trans h.2.1, h'.2.2.trans h.2.2⟩

theorem muted_alertAdmins (key subject body : String) :
    Respects Muted (alertAdmins key subject body) := by
  have set : ∀ st, Respects Muted (setAlertState key st) := fun _ _ => ⟨rfl, rfl, rfl⟩
  have mail : ∀ s suppressed, Respects Muted (alertAdmins.mailAlert key subject body s suppressed) :=
    fun _ _ => .ite (fun _ => .pure _) fun _ _ => ⟨rfl, rfl, rfl⟩
  refine .bind (.read _) fun s => .ite (fun _ => ?_) fun _ => .pure _
  dsimp only
  split
  · exact .ite (fun _ => set _) fun _ => .bind (set _) fun _ => mail _ _
  · exact .bind (set _) fun _ => mail _ _

theorem Muted.still {s s' : Controller} (h : Muted s s') : Still s s' :=
  .frame h.2.1 (h.1 ▸ rfl) (h.1 ▸ rfl) (h.1 ▸ rfl)

/-! ## The one write -/

/-- The lifecycle state a result stands for. -/
def ResultFrame.placementState (frame : ResultFrame) : PlacementState :=
  if frame.ok then .active else .failed

def ResultFrame.memberState (frame : ResultFrame) : MemberState :=
  if frame.ok then .active else .failed

/-- No confirmed teardown of a placement that is `deleting`. -/
def NotDue (node : String) (frame : ResultFrame) (t : TaskRow) (s : Controller) : Prop :=
  t.action = .labDestroy → frame.ok = true → ∀ lab p, resultLab frame t = .ok lab →
    lab.truthy = true → s.db.lookupPlacement s.host.conversions lab node = .ok (some p) →
    p.state ≠ .deleting

/-- The one write a result of task `t` makes to placements and members. -/
inductive ResultWrite (node : String) (frame : ResultFrame) (t : TaskRow) (s : Controller) :
    Controller → Prop where
  /-- Nothing is named, or the task is of another kind. -/
  | none : NotDue node frame t s → ResultWrite node frame t s s
  /-- A `lab.create` result marks the placement it names. -/
  | created (lab : Value) (p : Placement) (error : Option String) :
    t.action = .labCreate → resultLab frame t = .ok lab →
    s.db.lookupPlacement s.host.conversions lab node = .ok (some p) → lab.truthy = true →
    ResultWrite node frame t s
      ((markPlacementState p.id frame.placementState error).after s)
  /-- A failed `lab.destroy` keeps the placement `deleting`. -/
  | destroyFailed (lab : Value) (p : Placement) (error : Option String) :
    t.action = .labDestroy → frame.ok = false → resultLab frame t = .ok lab →
    s.db.lookupPlacement s.host.conversions lab node = .ok (some p) → lab.truthy = true →
    ResultWrite node frame t s ((markPlacementState p.id .deleting error).after s)
  /-- A confirmed `lab.destroy` drops the placement, if it is `deleting`. -/
  | destroyed (lab : Value) (p : Placement) :
    t.action = .labDestroy → frame.ok = true → resultLab frame t = .ok lab →
    s.db.lookupPlacement s.host.conversions lab node = .ok (some p) → p.state = .deleting →
    lab.truthy = true → ResultWrite node frame t s ((deletePlacements fun r => r.id == p.id).after s)
  /-- A `student.add` result marks the member it names. -/
  | added (lab user : Value) (j : JoinedMember) (error : Option String) :
    t.action = .studentAdd → resultLab frame t = .ok lab →
    Value.get (safeParams t.params) "username" = .ok user →
    s.db.lookupMember s.host.conversions lab node user = .ok (some j) →
    ResultWrite node frame t s
      ((updateMember j.member.id (PlacementMemberRow.marked frame.memberState error s.now)).after s)

theorem ResultWrite.congr {node : String} {frame : ResultFrame} {t : TaskRow}
    {s s' s'' : Controller} (h : ResultWrite node frame t s s'') (he : s' = s'') :
    ResultWrite node frame t s s' := he ▸ h

theorem ResultWrite.evolves {node : String} {frame : ResultFrame} {t : TaskRow}
    {s s' : Controller} (h : ResultWrite node frame t s s') : s.Evolves s' := by
  cases h with
  | none _ => exact .refl s
  | _ => exact Prog.keeps _ s

/-- The write leaves the log alone. -/
theorem ResultWrite.taskLog {node : String} {frame : ResultFrame} {t : TaskRow}
    {s s' : Controller} (h : ResultWrite node frame t s s') : s'.db.taskLog = s.db.taskLog := by
  cases h <;> rfl

theorem markPlacementStateByLabNode_after (lab : Value) (node : String) (state : PlacementState)
    (error : Option String) (s : Controller) :
    (markPlacementStateByLabNode lab node state error).after s = s ∨
      ∃ p, s.db.lookupPlacement s.host.conversions lab node = .ok (some p) ∧
        (markPlacementStateByLabNode lab node state error).after s =
          (markPlacementState p.id state error).after s := by
  unfold markPlacementStateByLabNode Prog.after
  rw [run_bind, getPlacementByLabNode_run]
  rcases s.db.lookupPlacement s.host.conversions lab node with e | _ | p
  · exact .inl rfl
  · exact .inl rfl
  · exact .inr ⟨p, rfl, rfl⟩

theorem confirmPlacementDestroyed_after (lab : Value) (node : String) (s : Controller) :
    ((confirmPlacementDestroyed lab node).after s = s ∧
        ∀ p, s.db.lookupPlacement s.host.conversions lab node = .ok (some p) →
          p.state ≠ .deleting) ∨
      ∃ p, s.db.lookupPlacement s.host.conversions lab node = .ok (some p) ∧
        p.state = .deleting ∧ (confirmPlacementDestroyed lab node).after s =
          (deletePlacements fun r => r.id == p.id).after s := by
  unfold confirmPlacementDestroyed Prog.after
  rw [run_bind, getPlacementByLabNode_run]
  rcases s.db.lookupPlacement s.host.conversions lab node with e | _ | p
  · exact .inl ⟨rfl, fun _ h => by cases h⟩
  · exact .inl ⟨rfl, fun _ h => by cases h⟩
  · rw [andThen_ok]
    by_cases hst : p.state = .deleting
    · exact .inr ⟨p, rfl, hst, by simp only [if_pos hst]⟩
    · exact .inl ⟨by simp only [if_neg hst]; rfl, fun _ h => by cases h; exact hst⟩

theorem markPlacementMemberState_run (lab : Value) (node : String) (user : Value)
    (state : MemberState) (error : Option String) (s : Controller) :
    ((markPlacementMemberState lab node user state error).run s).2 = s ∨
      ∃ j, s.db.lookupMember s.host.conversions lab node user = .ok (some j) ∧
        (markPlacementMemberState lab node user state error).run s =
          (updateMember j.member.id (PlacementMemberRow.marked state error s.now)).run s := by
  unfold markPlacementMemberState
  rw [run_bind, memberByNames_run]
  rcases s.db.lookupMember s.host.conversions lab node user with e | _ | j
  · exact .inl rfl
  · exact .inl rfl
  · exact .inr ⟨j, rfl, rfl⟩

/-- The rows a result writes, and then only what is quiet and still. -/
def Accounted (A : String → TaskFrame → Prop) (K : String → Prop) (node : String)
    (frame : ResultFrame) (t : TaskRow) (s s'' : Controller) : Prop :=
  ∃ s', ResultWrite node frame t s s' ∧ Quiet A K s' s'' ∧ Still s' s''

theorem Accounted.ite {node : String} {frame : ResultFrame} {t : TaskRow} {s : Controller}
    {c : Prop} [Decidable c] {x y : Op Unit} (hx : c → Accounted A K node frame t s (x.run s).2)
    (hy : ¬c → Accounted A K node frame t s (y.run s).2) :
    Accounted A K node frame t s ((if c then x else y).run s).2 := by
  by_cases h : c
  · rw [if_pos h]; exact hx h
  · rw [if_neg h]; exact hy h

/-- The write is made where the code looks the names up; the rest is mail and bookkeeping. -/
theorem applyLifecycle_spec {node : String} {frame : ResultFrame} {t : TaskRow} {s : Controller}
    (hcold : t.action = .studentRemove → frame.ok = true →
      Quiet A K s ((completeStudentRemoval frame.id).after s)) :
    ∃ s', ResultWrite node frame t s s' ∧ Quiet A K s' ((applyLifecycle node frame t).after s) ∧
      Still s' ((applyLifecycle node frame t).after s) := by
  -- a branch that writes nowhere but to a node's row
  have caps : ∀ c, Quiet A K s ((storeCapabilities node c).after s) ∧
      Still s ((storeCapabilities node c).after s) := by
    intro c
    have still : Respects Still (storeCapabilities node c) := by
      refine .bind (.read _) fun _ => still_updateNode _ _ _ fun _ => ?_
      rfl
    exact ⟨Respects.bind quiet_now (fun _ => quiet_updateNode _ _ _) s, still s⟩
  -- a branch that is not that of a teardown
  have other : ∀ a, t.action = a → a ≠ .labDestroy → NotDue node frame t s :=
    fun a ha hne h => absurd (ha.symm.trans h) hne
  unfold applyLifecycle Prog.after
  rw [run_bind, lift_run]
  cases hlab : resultLab frame t with
  | error e =>
      refine ⟨s, .none fun _ _ lab p h => ?_, .refl s, .refl s⟩
      rw [hlab] at h
      cases h
  | ok lab =>
      rw [andThen_ok]
      change Accounted A K node frame t s _
      refine .ite (fun h => ?_) fun _ => ?_
      · simp only [Bool.and_eq_true, beq_iff_eq] at h
        exact ⟨s, .none (other _ h.1.2 nofun), (caps _).1, (caps _).2⟩
      refine .ite (fun h => ?_) fun _ => ?_
      · simp only [Bool.and_eq_true, beq_iff_eq] at h
        exact ⟨s, .none (other _ h.1.2 nofun), (caps _).1, (caps _).2⟩
      refine .ite (fun h => ?_) fun _ => ?_
      · simp only [Bool.and_eq_true, beq_iff_eq] at h
        refine ⟨_, ?_, .refl _, .refl _⟩
        rcases markPlacementStateByLabNode_after lab node (if frame.ok then .active else .failed)
          (if frame.ok then none else some (frame.error.getD "lab.create failed")) s with
          hs | ⟨p, hp, hs⟩
        · exact .congr (.none (other _ h.2 nofun)) hs
        · exact .congr (.created lab p _ h.2 hlab hp h.1) hs
      refine .ite (fun h => ?_) fun hdestroy => ?_
      · simp only [Bool.and_eq_true, beq_iff_eq] at h
        refine ⟨_, ?_, .refl _, .refl _⟩
        cases hok : frame.ok with
        | true =>
            rcases confirmPlacementDestroyed_after lab node s with ⟨hs, hnot⟩ | ⟨p, hp, hst, hs⟩
            · refine .congr (.none fun _ _ lab' p hlab' _ => ?_) hs
              cases hlab.symm.trans hlab'
              exact hnot p
            · exact .congr (.destroyed lab p h.2 hok hlab hp hst h.1) hs
        | false =>
            rcases markPlacementStateByLabNode_after lab node .deleting
              (some (frame.error.getD "lab.destroy failed")) s with hs | ⟨p, hp, hs⟩
            · exact .congr (.none fun _ h' => by rw [hok] at h'; cases h') hs
            · exact .congr (.destroyFailed lab p _ h.2 hok hlab hp h.1) hs
      have late : NotDue node frame t s := by
        intro ha _ lab' p hlab' htruthy
        cases hlab.symm.trans hlab'
        exact absurd (by simp [ha, htruthy]) hdestroy
      refine .ite (fun _ => ⟨s, .none late, .refl s, .refl s⟩) fun _ => ?_
      rw [run_bind, lift_run]
      cases huser : Value.get (safeParams t.params) "username" with
      | error e => exact ⟨s, .none late, .refl s, .refl s⟩
      | ok user =>
          rw [andThen_ok]
          refine .ite (fun h => ?_) fun _ => ?_
          · simp only [Bool.and_eq_true, beq_iff_eq] at h
            -- the marks that follow the member's are mail
            have mails : ∀ s, Quiet A K s (Prog.after (if frame.ok then do
                  startCredentialMail lab node user
                  startCompletionMail lab node
                else pure () : Op Unit) s) ∧ Still s (Prog.after (if frame.ok then do
                  startCredentialMail lab node user
                  startCompletionMail lab node
                else pure () : Op Unit) s) := fun s =>
              ⟨Respects.ite (fun _ => .bind (quiet_startCredentialMail _ _ _) fun _ =>
                  quiet_startCompletionMail _ _) (fun _ => .pure _) s,
                Respects.ite (fun _ => .bind (still_startCredentialMail _ _ _) fun _ =>
                  still_startCompletionMail _ _) (fun _ => .pure _) s⟩
            rw [run_bind]
            rcases markPlacementMemberState_run lab node user frame.memberState
              (if frame.ok then none else some (frame.error.getD "student.add failed")) s with
              hs | ⟨j, hj, hs⟩
            · rcases hr : (markPlacementMemberState lab node user frame.memberState
                (if frame.ok then none else some (frame.error.getD "student.add failed"))).run s with
                ⟨e | a, s'⟩
              all_goals
                rw [hr] at hs
                subst hs
                simp only [ResultFrame.memberState] at hr
                rw [hr]
              · exact ⟨_, .none late, .refl _, .refl _⟩
              · exact ⟨_, .none late, (mails _).1, (mails _).2⟩
            · simp only [ResultFrame.memberState] at hs
              rw [hs]
              exact ⟨_, .added lab user j _ h.2 hlab huser hj, (mails _).1, (mails _).2⟩
          refine .ite (fun h => ?_) fun _ => ?_
          · simp only [Bool.and_eq_true, beq_iff_eq] at h
            exact ⟨s, .none late, hcold h.1.2 h.2, still_completeStudentRemoval _ s⟩
          · exact ⟨s, .none late, .refl s, .refl s⟩

/-! ## The whole of it -/

/-- The state right after a result was accepted: its verdict is in the log, and nothing else
has happened. -/
def Controller.settled (s : Controller) (node : String) (frame : ResultFrame) : Controller :=
  { s.settleTask node frame with trace := .settled node frame.id frame.ok :: s.trace }

theorem evolves_settled (s : Controller) (node : String) (frame : ResultFrame) :
    s.Evolves (s.settled node frame) :=
  (evolves_settleTask s node frame).trans ((Op.emit (.settled node frame.id frame.ok)).keeps _)

/-- A row that may take this result is the row of this task. -/
theorem TaskRow.openFor_iff {node taskUuid : String} {t : TaskRow} :
    t.openFor node taskUuid = true ↔
      t.taskUuid = taskUuid ∧ t.node = node ∧ t.state.terminal = false := by
  simp [openFor, and_assoc]

/-- The row of an open task, after its result was accepted. -/
def TaskRow.settled (t : TaskRow) (frame : ResultFrame) (now : Nat) : TaskRow :=
  t.marked (.done frame.ok) frame.result (if frame.ok then none else frame.error)
    (frame.cached == some true) now

/-- The verdict is not part of what a result is looked up by. -/
theorem ResultWrite.of_settled {node : String} {frame : ResultFrame} {t : TaskRow} {now : Nat}
    {s s' : Controller} (h : ResultWrite node frame (t.settled frame now) s s') :
    ResultWrite node frame t s s' := by
  cases h with
  | none hnot => exact .none hnot
  | created lab p error ha hl hp hlt => exact .created lab p error ha hl hp hlt
  | destroyFailed lab p error ha hok hl hp hlt =>
      exact .destroyFailed lab p error ha hok hl hp hlt
  | destroyed lab p ha hok hl hp hst hlt => exact .destroyed lab p ha hok hl hp hst hlt
  | added lab user j error ha hl hu hj => exact .added lab user j error ha hl hu hj

theorem getTask_settled {s : Controller} {node : String} {frame : ResultFrame} {t : TaskRow}
    (ht : t ∈ s.db.taskLog.rows) (hopen : t.openFor node frame.id = true) :
    (s.settled node frame).db.getTask frame.id = some (t.settled frame s.now) := by
  have hu := (TaskRow.openFor_iff.mp hopen).1
  have hmem : t.settled frame s.now ∈ (s.settled node frame).db.taskLog.rows :=
    mem_settleTask.mpr ⟨t, ht, if_pos hopen⟩
  refine Table.find_of_unique hmem (by simpa [TaskRow.settled, TaskRow.marked] using hu) ?_
  intro x hx hxu
  refine Table.eq_of_clash _ hx hmem ?_
  show x.taskUuid = t.taskUuid
  rw [hu]
  simpa using hxu

/-- An accepted result settles its task, and then takes effect. -/
theorem accepted_after {node : String} {frame : ResultFrame} {s : Controller} {t : TaskRow}
    (ht : t ∈ s.db.taskLog.rows) (hopen : t.openFor node frame.id = true) :
    step s (.frame node (.result frame)) =
      (applyResult node frame).after (s.settled node frame) := by
  have hany : s.db.taskLog.rows.any (TaskRow.openFor node frame.id) = true :=
    List.any_eq_true.mpr ⟨t, ht, hopen⟩
  show ((handleResult node frame).run s).2 = _
  rw [handleResult_run, hany]
  rfl

theorem applyTask_after {node : String} {frame : ResultFrame} {s : Controller} {t : TaskRow}
    (ht : t ∈ s.db.taskLog.rows) (hopen : t.openFor node frame.id = true) :
    (applyResult.applyTask node frame).after (s.settled node frame) =
      (alertFailure frame (t.settled frame s.now) >>= fun _ =>
        applyLifecycle node frame (t.settled frame s.now)).after (s.settled node frame) := by
  unfold applyResult.applyTask Prog.after
  rw [Op.query, run_read_bind, getTask_settled ht hopen]

/-- **What a result does.** An accepted result settles its task, is quiet up to its one
write, makes the write, and is quiet from there on. -/
theorem handleResult_spec {node : String} {frame : ResultFrame} {s : Controller} {t : TaskRow}
    (ht : t ∈ s.db.taskLog.rows) (hopen : t.openFor node frame.id = true)
    (hcold : ∀ s', Muted (s.settled node frame) s' → t.action = .studentRemove →
      frame.ok = true → Quiet A K s' ((completeStudentRemoval frame.id).after s')) :
    ∃ s₁ s₂, Quiet A K (s.settled node frame) s₁ ∧ Muted (s.settled node frame) s₁ ∧
      ResultWrite node frame t s₁ s₂ ∧
      Quiet A K s₂ (step s (.frame node (.result frame))) ∧
      Still s₂ (step s (.frame node (.result frame))) := by
  have hstep := accepted_after ht hopen
  have htask := applyTask_after ht hopen
  have halert : ∀ s', Quiet A K s' ((alertFailure frame (t.settled frame s.now)).after s') ∧
      Muted s' ((alertFailure frame (t.settled frame s.now)).after s') := fun s' =>
    ⟨Respects.ite (fun _ => .pure _) (fun _ => walk_alertTaskFailed quietWalk _ _ _) s',
      Respects.ite (fun _ => .pure _) (fun _ => muted_alertAdmins _ _ _) s'⟩
  have hlog : ∀ s', Quiet A K s' ((logResult frame).after s') ∧ Still s' ((logResult frame).after s') := by
    intro s'
    unfold logResult
    split
    · exact ⟨.refl s', .refl s'⟩
    · exact ⟨Respects.ite (fun _ => .pure _) (fun _ => .bind quiet_now fun _ => walk_insertLog quietWalk _) s',
        Respects.ite (fun _ => .pure _) (fun _ => .bind (.read _) fun _ => still_insertLog _) s'⟩
  -- the effects on rows: one write, or none where the alert threw
  have hrows : ∃ s₁ s₂, Quiet A K (s.settled node frame) s₁ ∧ Muted (s.settled node frame) s₁ ∧
      ResultWrite node frame t s₁ s₂ ∧
      Quiet A K s₂ ((applyResult.applyTask node frame).after (s.settled node frame)) ∧
      Still s₂ ((applyResult.applyTask node frame).after (s.settled node frame)) := by
    obtain ⟨hq₁, hm₁⟩ := halert (s.settled node frame)
    obtain ⟨s₂, hw, hq, hs⟩ := @applyLifecycle_spec A K node frame
      (t.settled frame s.now) _ (hcold _ hm₁)
    rw [htask]
    rcases Prog.after_bind (alertFailure frame (t.settled frame s.now)) (fun _ =>
      applyLifecycle node frame (t.settled frame s.now)) (s.settled node frame) with h | ⟨_, h⟩
    · -- only the failure of a task is alerted
      cases hok : frame.ok with
      | false =>
          have hnot : NotDue node frame t
              ((alertFailure frame (t.settled frame s.now)).after (s.settled node frame)) :=
            fun _ h' => absurd (hok.symm.trans h') nofun
          exact ⟨_, _, hq₁, hm₁, .none hnot, h ▸ .refl _, h ▸ .refl _⟩
      | true =>
          have hpure : alertFailure frame (t.settled frame s.now) = pure () := if_pos hok
          rw [hpure] at hm₁ hq₁ hw hq hs ⊢
          exact ⟨_, s₂, hq₁, hm₁, hw.of_settled, hq, hs⟩
    · exact ⟨_, s₂, hq₁, hm₁, hw.of_settled, h ▸ hq, h ▸ hs⟩
  obtain ⟨s₁, s₂, hq₁, hm₁, hw, hq, hs⟩ := hrows
  refine ⟨s₁, s₂, hq₁, hm₁, hw, ?_⟩
  rw [hstep]
  rcases Prog.after_bind (applyResult.applyTask node frame) (fun _ => logResult frame)
    (s.settled node frame) with h | ⟨_, h⟩
  · exact ⟨h ▸ hq, h ▸ hs⟩
  · exact ⟨h ▸ hq.trans (hlog _).1, h ▸ hs.trans (hlog _).2⟩

/-! ## Steps -/

theorem quiet_plainStep {s : Controller} {a : Act} (ha : a.Plain) :
    Quiet (fun _ _ => True) (fun _ => False) s (step s a) :=
  quiet_plain (fun _ _ _ => trivial) ha s

/-- A step that is no result is quiet, whatever tasks it issues or deletes. -/
theorem quiet_step {s : Controller} {a : Act} (h : ∀ node frame, a ≠ .frame node (.result frame)) :
    Quiet (fun _ _ => True) (fun _ => False) s (step s a) := by
  cases a with
  | removeStudentFromLab labId studentId deleteData actor =>
      exact walk_removeStudentFromLab quietWalk (fun _ _ _ => trivial) quiet_deleteMembers
        quiet_deleteRoster _ _ _ _ s
  | deleteNode name actor force => exact quiet_deleteNode _ _ _ id s
  | frame node received =>
      cases received with
      | result frame => exact absurd rfl (h node frame)
      | _ => exact quiet_plainStep trivial
  | _ => exact quiet_plainStep trivial

/-- A result that is accepted, taken apart, with no care for the tasks it issues. -/
theorem accepted_step {node : String} {frame : ResultFrame} {s : Controller} {t : TaskRow}
    (ht : t ∈ s.db.taskLog.rows) (hopen : t.openFor node frame.id = true) :
    ∃ s₁ s₂, Quiet (fun _ _ => True) (fun _ => False) (s.settled node frame) s₁ ∧
      Muted (s.settled node frame) s₁ ∧ ResultWrite node frame t s₁ s₂ ∧
      Quiet (fun _ _ => True) (fun _ => False) s₂ (step s (.frame node (.result frame))) ∧
      Still s₂ (step s (.frame node (.result frame))) :=
  handleResult_spec ht hopen fun _ _ _ _ => walk_completeStudentRemoval quietWalk (fun _ _ _ => trivial) _ _

/-- A result that is not accepted changes nothing. -/
theorem ignored_step {node : String} {frame : ResultFrame} {s : Controller}
    (h : ∀ t ∈ s.db.taskLog.rows, t.openFor node frame.id = false) :
    step s (.frame node (.result frame)) = s :=
  handleResult_ignored (List.any_eq_false.mpr fun t ht => by simp [h t ht])

theorem linked_settled {s : Controller} {node : String} {frame : ResultFrame} (h : s.db.Linked) :
    (s.settled node frame).db.Linked := h.congr rfl rfl rfl rfl rfl

theorem linked_updatePlacement {s : Controller} (hl : s.db.Linked) (i : Nat)
    (f : PlacementRow → PlacementRow) (h) : ((updatePlacement i f h).after s).db.Linked :=
  hl.carry hl.labName (.refl _) (.refl _) (.refl _) (.of_update _ _ f (keeps_placement _ f h)) rfl
    (.of_update _ _ f (keeps_placement _ f h)) (.refl _) rfl

theorem linked_updateMember {s : Controller} (hl : s.db.Linked) (i : Nat)
    (f : PlacementMemberRow → PlacementMemberRow) (h) :
    ((updateMember i f h).after s).db.Linked :=
  hl.carry hl.labName (.refl _) (.refl _) (.refl _) (.refl _) rfl (.refl _)
    (.of_update _ _ f (keeps_member _ f h)) rfl

theorem ResultWrite.linked {node : String} {frame : ResultFrame} {t : TaskRow} {s s' : Controller}
    (h : ResultWrite node frame t s s') (hl : s.db.Linked) : s'.db.Linked := by
  cases h with
  | none _ => exact hl
  | created lab p error _ _ _ _ =>
      exact linked_updatePlacement hl p.id (PlacementRow.marked _ error s.now) fun _ =>
        ⟨rfl, rfl, rfl, rfl⟩
  | destroyFailed lab p error _ _ _ _ _ =>
      exact linked_updatePlacement hl p.id (PlacementRow.marked _ error s.now) fun _ =>
        ⟨rfl, rfl, rfl, rfl⟩
  | destroyed lab p _ _ _ _ _ _ =>
      exact (quiet_deletePlacements (A := fun _ _ => True) (K := fun _ => True) _ s).linked hl
  | added lab user j error _ _ _ _ =>
      exact linked_updateMember hl j.member.id (PlacementMemberRow.marked _ error s.now) fun _ =>
        ⟨rfl, rfl, rfl⟩

/-- Referential integrity holds in every run. -/
theorem linked_step {s : Controller} (hl : s.db.Linked) (a : Act) : (step s a).db.Linked := by
  by_cases h : ∃ node frame, a = .frame node (.result frame)
  · obtain ⟨node, frame, rfl⟩ := h
    by_cases hopen : ∃ t ∈ s.db.taskLog.rows, t.openFor node frame.id = true
    · obtain ⟨t, ht, hopen⟩ := hopen
      obtain ⟨s₁, s₂, hq, _, hw, hq', _⟩ := accepted_step ht hopen
      exact hq'.linked (hw.linked (hq.linked (linked_settled hl)))
    · rw [ignored_step (by simpa using hopen)]
      exact hl
  · exact (quiet_step fun node frame he => h ⟨node, frame, he⟩).linked hl

theorem linked_run (host : Host) (acts : List Act) :
    (Run.run step (.init host) acts).db.Linked :=
  Run.invariant_all (I := fun s : Controller => s.db.Linked) (fun _ a h => linked_step h a)
    Db.linked_empty

theorem drawn_run (host : Host) (acts : List Act) : Drawn (Run.run step (.init host) acts) :=
  (drawn_init host).evolves (run_evolves _ acts)

end MassDeployment
