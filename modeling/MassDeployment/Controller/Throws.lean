import MassDeployment.Controller.Results
import MassDeployment.Lib.Finish

set_option autoImplicit false

/-! # Frames the hub does not survive

The listener of the hub's sockets calls `ingestFrame` without a `try`, so what a frame makes it
throw ends the process. The schemas of the frames leave a result and a telemetry payload open;
this file says, for every state and every frame, whether `ingestFrame` throws on it. The
conditions follow the code: a value is iterated, read from, written into a text or bound to a
statement only where the code gets that far.
-/

namespace MassDeployment

open Js Prog

/-! ## What is bound and what is looked up -/

/-- The arguments fill a statement with `n` parameters. -/
def Binds (n : Nat) (args : List Value) : Prop := ∃ values, bindAll n args = .ok values

theorem finishes_lift {α : Type} (x : Except Js.Error α) (s : Controller) :
    Finishes (Op.lift x) s ↔ ∃ a, x = .ok a := by
  unfold Finishes
  rw [lift_run]

theorem finishes_lift_bind {α β : Type} (x : Except Js.Error α) (f : α → Op β) (s : Controller) :
    Finishes (Op.lift x >>= f) s ↔ ∃ a, x = .ok a ∧ Finishes (f a) s := by
  cases x with
  | error e =>
      refine iff_of_false (not_finishes_bind_of_run (lift_run _ s)) ?_
      rintro ⟨a, h, -⟩
      cases h
  | ok a => simp [finishes_bind_of_run (lift_run (.ok a) s)]

/-- A check in front of work that never throws. -/
theorem finishes_lift_last {α β : Type} (x : Except Js.Error α) {f : α → Op β}
    (hf : ∀ a, Total (f a)) (s : Controller) : Finishes (Op.lift x >>= f) s ↔ ∃ a, x = .ok a := by
  rw [Total.finishes_last hf]
  exact finishes_lift x s

theorem bind_ok_iff {ε α β : Type} {x : Except ε α} {f : α → Except ε β} :
    (∃ b, (x >>= f) = .ok b) ↔ ∃ a, x = .ok a ∧ ∃ b, f a = .ok b := by
  cases x with
  | error e => simp [bind, Except.bind]
  | ok a => simp [bind, Except.bind]

/-- The names of a placement bind, or its lookup throws. -/
theorem namesPlacement_ok_iff (c : Conversions) (labName : Value) (nodeName : String) :
    (∃ named, namesPlacement c labName nodeName = .ok named) ↔
      Binds 2 [labName, some (.str nodeName)] := by
  unfold namesPlacement
  rw [bind_ok_iff]
  refine exists_congr fun values => and_iff_left ?_
  split <;> exact ⟨_, rfl⟩

theorem namesMember_ok_iff (c : Conversions) (labName : Value) (nodeName : String)
    (username : Value) : (∃ named, namesMember c labName nodeName username = .ok named) ↔
      Binds 3 [labName, some (.str nodeName), username] := by
  unfold namesMember
  rw [bind_ok_iff]
  refine exists_congr fun values => and_iff_left ?_
  split <;> exact ⟨_, rfl⟩

theorem lookupPlacement_ok_iff (d : Db) (c : Conversions) (labName : Value) (nodeName : String) :
    (∃ p, d.lookupPlacement c labName nodeName = .ok p) ↔
      Binds 2 [labName, some (.str nodeName)] := by
  unfold Db.lookupPlacement
  rw [bind_ok_iff, ← namesPlacement_ok_iff c]
  exact exists_congr fun named => and_iff_left ⟨_, rfl⟩

theorem lookupMember_ok_iff (d : Db) (c : Conversions) (labName : Value) (nodeName : String)
    (username : Value) : (∃ m, d.lookupMember c labName nodeName username = .ok m) ↔
      Binds 3 [labName, some (.str nodeName), username] := by
  unfold Db.lookupMember
  rw [bind_ok_iff, ← namesMember_ok_iff c]
  exact exists_congr fun named => and_iff_left ⟨_, rfl⟩

/-- Work on a placement that never throws, behind its lookup. -/
theorem finishes_getPlacement_bind {β : Type} (labName : Value) (nodeName : String)
    {f : Option Placement → Op β} (hf : ∀ p, Total (f p)) (s : Controller) :
    Finishes (getPlacementByLabNode labName nodeName >>= f) s ↔
      Binds 2 [labName, some (.str nodeName)] := by
  rw [Total.finishes_last hf, ← lookupPlacement_ok_iff s.db s.host.conversions]
  exact finishes_lift _ s

theorem finishes_memberByNames_bind {β : Type} (labName : Value) (nodeName : String)
    (username : Value) {f : Option JoinedMember → Op β} (hf : ∀ m, Total (f m)) (s : Controller) :
    Finishes (memberByNames labName nodeName username >>= f) s ↔
      Binds 3 [labName, some (.str nodeName), username] := by
  rw [Total.finishes_last hf, ← lookupMember_ok_iff s.db s.host.conversions]
  exact finishes_lift _ s

/-! ## What never throws -/

theorem total_emit (e : Event) : Total (Op.emit e) := .write _ _

theorem total_writeLists (f : Db → Db) (h) : Total (Op.writeLists f h) := .write _ _

theorem total_insertLog (row : LogRow) : Total (insertLog row) := .write _ _

theorem total_alertAdmins (key subject body : String) : Total (alertAdmins key subject body) := by
  have mail : ∀ s suppressed, Total (alertAdmins.mailAlert key subject body s suppressed) :=
    fun s suppressed => .ite (.pure _) (total_emit _)
  refine .bind (.read _) fun s => .ite ?_ (.pure _)
  dsimp only
  split
  · exact .ite (.write _ _) (.bind (.write _ _) fun _ => mail _ _)
  · exact .bind (.write _ _) fun _ => mail _ _

theorem total_updateNode (name : String) (f : NodeRow → NodeRow) (h) : Total (updateNode name f h) :=
  .write _ _

theorem total_storeCapabilities (node : String) (capabilities : Value) :
    Total (storeCapabilities node capabilities) :=
  .bind (.read _) fun _ => total_updateNode _ _ _

theorem total_deletePlacements (victim : PlacementRow → Bool) : Total (deletePlacements victim) :=
  .bind (.read _) fun _ => .bind (.write _ _) fun _ => .bind (.write _ _) fun _ => .write _ _

theorem total_logMailFailure (source msg node : String) (lab user : Value) (e : Js.Error) :
    Total (logMailFailure source msg node lab user e) := by
  refine .bind (.read _) fun _ => ?_
  split
  · exact total_insertLog _
  · exact .pure _

theorem total_startCredentialMail (labName : Value) (node : String) (username : Value) :
    Total (startCredentialMail labName node username) :=
  .bind (.tryCatch fun _ => .bind (total_logMailFailure _ _ _ _ _ _) fun _ => .pure _) fun _ =>
    .ite (.pure _) (.write _ _)

theorem total_startCompletionMail (labName : Value) (node : String) :
    Total (startCompletionMail labName node) :=
  .bind (.tryCatch fun _ => .bind (total_logMailFailure _ _ _ _ _ _) fun _ => .pure _) fun _ =>
    .ite (.pure _) (.write _ _)

/-! ## The completion of a removal -/

/-- The removals the cleanups of a node are for. -/
def coldCleanups (c : Conversions) (d : Db) (node : String) : Except Js.Error (List SqlValue) :=
  d.taskLog.rows.filterMapM fun t =>
    if t.node = node ∧ t.action = .studentDeleteCold then
      (jsonExtract c t.params "removal_id").map some
    else .ok none

/-- A cleanup of a node can be queued: the parameters of the node's cleanups parse, and where
the removal has none yet, the id drawn for it is new. -/
def CleanupFits (s : Controller) (removalId : Json) (node : String) : Prop :=
  ∃ name rid, bindAll 2 [some (.str node), some removalId] = .ok [name, rid] ∧
    ∃ cleanups, coldCleanups s.host.conversions s.db node = .ok cleanups ∧
      (cleanups.any (fun v => v.same rid) = false →
        ∀ t ∈ s.db.taskLog.rows, t.taskUuid ≠ s.host.uuid s.draws)

/-- The turn of the loop that queues the cleanups of the removal of a task. -/
def queueCleanup (task : TaskRow) (json : Json) : String → Op Unit :=
  enqueueColdCleanup ((Value.field "lab" json).getD .null)
    ((Value.field "username" json).getD .null) ((Value.field "removal_id" json).getD .null)
    task.requestedBy

/-- The removal a settled `student.remove` belongs to can be completed. -/
def RemovalFits (s : Controller) (task : TaskRow) (json : Json) : Prop :=
  let removalId := Value.field "removal_id" json
  let lab := Value.field "lab" json
  let username := Value.field "username" json
  json ≠ .null ∧ (removalId.truthy = true → lab.truthy = true → username.truthy = true →
    ∃ rid, bindAll 1 [removalId] = .ok [rid] ∧
      ∃ states, removalStates s.host.conversions s.db rid = .ok states ∧
        (states ≠ [] → (∀ state ∈ states, state = .ok) →
          ∃ nodes, coldCleanupNodes (Value.field "cold_cleanup_nodes" json) = .ok nodes ∧
            Run.Along (fun s node => (queueCleanup task json node).after s)
              (fun s node => CleanupFits s (removalId.getD .null) node) s nodes))

/-- The task is a successful `student.remove`, and its removal can be completed. -/
def CompletionFits (s : Controller) (taskUuid : String) : Prop :=
  ∀ task json,
    (s.db.taskLog.find fun t =>
      t.taskUuid == taskUuid && decide (t.action = .studentRemove) && decide (t.state = .ok)) =
        some task →
    task.params.parse = some json → RemovalFits s task json

theorem bindAll_length {n : Nat} {args : List Value} {values : List SqlValue}
    (h : bindAll n args = .ok values) : values.length = n := by
  obtain ⟨_, _, _, hlen⟩ := bindAll_eq_ok h
  exact hlen

theorem finishes_enqueueTask (node : String) (action : Action) (params : Params)
    (requestedBy : Option String) (s : Controller) :
    Finishes (enqueueTask node action params requestedBy) s ↔
      ∀ t ∈ s.db.taskLog.rows, t.taskUuid ≠ s.host.uuid s.draws := by
  unfold Finishes
  constructor
  · rintro ⟨frame, h⟩ t ht huuid
    rcases enqueueTask_run node action params requestedBy s with
      ⟨T, s', hins, _⟩ | ⟨e, s', _, hrun, _⟩
    · unfold Table.insert at hins
      split at hins
      · rename_i hfree
        exact hfree t ht huuid
      · cases hins
    · rw [hrun] at h
      cases h
  · intro hnew
    rcases enqueueTask_run node action params requestedBy s with
      ⟨T, s', _, hrun, _⟩ | ⟨e, s', hnone, _⟩
    · exact ⟨_, by rw [hrun]⟩
    · have hrow : ∀ i, Row.id
          ((s.nextFrame action params requestedBy).row node ((s.queues node).seq + 1) s.now i) = i :=
        fun _ => rfl
      obtain ⟨T, hins, -⟩ := Table.insert_of_fresh hrow hnew
      rw [hnone] at hins
      cases hins

theorem finishes_enqueueColdCleanup (lab username removalId : Json) (requestedBy : Option String)
    (node : String) (s : Controller) :
    Finishes (enqueueColdCleanup lab username removalId requestedBy node) s ↔
      CleanupFits s removalId node := by
  unfold enqueueColdCleanup CleanupFits
  rw [finishes_read_bind, finishes_lift_bind]
  constructor
  · rintro ⟨values, hvalues, h⟩
    obtain ⟨name, rid, rfl⟩ := List.length_eq_two.mp (bindAll_length hvalues)
    rw [finishes_lift_bind] at h
    obtain ⟨cleanups, hcleanups, h⟩ := h
    refine ⟨name, rid, hvalues, cleanups, by simpa [coldCleanups] using hcleanups, fun hnone => ?_⟩
    simp only [hnone, Bool.false_eq_true, if_false] at h
    rw [← finishes_enqueueTask node .studentDeleteCold (deleteColdParams lab username removalId)
      requestedBy]
    exact (Total.finishes_last (fun _ => .pure _) s).mp h
  · rintro ⟨name, rid, hvalues, cleanups, hcleanups, hnew⟩
    refine ⟨_, hvalues, (finishes_lift_bind _ _ _).mpr
      ⟨cleanups, by simpa [coldCleanups] using hcleanups, ?_⟩⟩
    dsimp only
    refine finishes_ite.mpr ⟨fun _ => finishes_pure _ _, fun hnone => ?_⟩
    refine (Total.finishes_last (fun _ => .pure _) s).mpr ((finishes_enqueueTask ..).mpr (hnew ?_))
    simpa using hnone

theorem get_eq_ok {j : Json} (h : j ≠ .null) (k : String) :
    Value.get (some j) k = .ok (Value.field k j) := by
  cases j with
  | null => exact absurd rfl h
  | bool b => rfl
  | num n => rfl
  | str s => rfl
  | arr items => rfl
  | obj fields => rfl

/-- The part of the completion that queues the cleanups. -/
theorem finishes_cleanups (s : Controller) (task : TaskRow) (json : Json) (states : List TaskState) :
    Finishes (if states.isEmpty || states.any (· ≠ .ok) then pure ()
      else do
        let nodes ← Op.lift (coldCleanupNodes (Value.field "cold_cleanup_nodes" json))
        nodes.forM (queueCleanup task json) : Op Unit) s ↔
      (states ≠ [] → (∀ state ∈ states, state = .ok) →
        ∃ nodes, coldCleanupNodes (Value.field "cold_cleanup_nodes" json) = .ok nodes ∧
          Run.Along (fun s node => (queueCleanup task json node).after s)
            (fun s node => CleanupFits s ((Value.field "removal_id" json).getD .null) node)
            s nodes) := by
  have hguard : ¬ ((states.isEmpty || states.any (· ≠ .ok)) = true) ↔
      states ≠ [] ∧ ∀ state ∈ states, state = .ok := by simp
  rw [finishes_ite, hguard, and_imp, and_iff_right fun _ => finishes_pure _ _]
  refine imp_congr_right fun _ => imp_congr_right fun _ => ?_
  simp only [finishes_lift_bind, finishes_forM, queueCleanup, finishes_enqueueColdCleanup]

theorem finishes_completeStudentRemoval (taskUuid : String) (s : Controller) :
    Finishes (completeStudentRemoval taskUuid) s ↔ CompletionFits s taskUuid := by
  unfold completeStudentRemoval CompletionFits
  rw [finishes_read_bind]
  dsimp only [id]
  cases htask : s.db.taskLog.find fun t =>
      t.taskUuid == taskUuid && decide (t.action = .studentRemove) && decide (t.state = .ok) with
  | none =>
      refine iff_of_true (finishes_pure _ _) ?_
      intro task json h
      cases h
  | some task =>
  cases hjson : task.params.parse with
  | none =>
      simp only [hjson]
      refine iff_of_true (finishes_pure _ _) ?_
      rintro _ json ⟨⟩ h
      rw [hjson] at h
      cases h
  | some json =>
  have hcond : (∀ task' json', some task = some task' → task'.params.parse = some json' →
      RemovalFits s task' json') ↔ RemovalFits s task json := by
    constructor
    · intro h
      exact h task json rfl hjson
    · rintro h _ _ ⟨⟩ hparse
      rw [hjson] at hparse
      cases hparse
      exact h
  rw [hcond]
  simp only [hjson]
  by_cases hnull : json = .null
  · subst hnull
    refine iff_of_false ?_ fun h => h.1 rfl
    rintro h
    obtain ⟨_, h, -⟩ := (finishes_lift_bind _ _ _).mp h
    cases h
  · simp only [get_eq_ok hnull, finishes_lift_bind, Except.ok.injEq, exists_eq_left']
    unfold RemovalFits
    rw [and_iff_right hnull, finishes_ite]
    have hguard : ¬ ((!(Value.field "removal_id" json).truthy || !(Value.field "lab" json).truthy ||
          !(Value.field "username" json).truthy) = true) ↔
        (Value.field "removal_id" json).truthy = true ∧ (Value.field "lab" json).truthy = true ∧
          (Value.field "username" json).truthy = true := by
      simp [and_assoc]
    rw [hguard, and_imp, and_imp, and_iff_right fun _ => finishes_pure _ _]
    refine imp_congr_right fun _ => imp_congr_right fun _ => imp_congr_right fun _ => ?_
    rw [finishes_lift_bind]
    constructor
    · rintro ⟨values, hvalues, h⟩
      obtain ⟨rid, rfl⟩ := List.length_eq_one_iff.mp (bindAll_length hvalues)
      obtain ⟨states, hstates, h⟩ := (finishes_lift_bind _ _ _).mp h
      exact ⟨rid, hvalues, states, hstates, (finishes_cleanups s task json states).mp h⟩
    · rintro ⟨rid, hvalues, states, hstates, h⟩
      refine ⟨_, hvalues, (finishes_lift_bind _ _ _).mpr ⟨states, hstates, ?_⟩⟩
      exact (finishes_cleanups s task json states).mpr h

/-! ## Results -/

/-- The result is a node's report about itself, which is stored and looked up nowhere. -/
def ResultFrame.reports (frame : ResultFrame) (t : TaskRow) : Bool :=
  (frame.ok && t.action == .nodeCheck && frame.result.truthy) ||
    (frame.ok && t.action == .nodeRepair && (frame.result.getOpt "health").truthy)

/-- The names in a result and in the parameters of its task can be read, and bound where the
action looks them up. -/
def LifecycleFits (s : Controller) (node : String) (frame : ResultFrame) (t : TaskRow) : Prop :=
  ∃ lab, resultLab frame t = .ok lab ∧
    (frame.reports t = false → lab.truthy = true →
      if t.action = .labCreate ∨ t.action = .labDestroy then Binds 2 [lab, some (.str node)]
      else
        ∃ user, Value.get (safeParams t.params) "username" = .ok user ∧
          (user.truthy = true → t.action = .studentAdd →
            Binds 3 [lab, some (.str node), user]) ∧
          (user.truthy = true → t.action = .studentRemove → frame.ok = true →
            CompletionFits s frame.id))

theorem finishes_markPlacementState (labName : Value) (node : String) (state : PlacementState)
    (lastError : Option String) (s : Controller) :
    Finishes (markPlacementStateByLabNode labName node state lastError) s ↔
      Binds 2 [labName, some (.str node)] := by
  refine finishes_getPlacement_bind _ _ (fun p => ?_) s
  split
  · exact .pure _
  · exact .bind (.read _) fun _ => .write _ _

theorem finishes_confirmDestroyed (labName : Value) (node : String) (s : Controller) :
    Finishes (confirmPlacementDestroyed labName node) s ↔ Binds 2 [labName, some (.str node)] := by
  refine finishes_getPlacement_bind _ _ (fun p => ?_) s
  split
  · exact .pure _
  · exact .ite (total_deletePlacements _) (.pure _)

theorem finishes_markMemberState (labName : Value) (node : String) (username : Value)
    (state : MemberState) (lastError : Option String) (s : Controller) :
    Finishes (markPlacementMemberState labName node username state lastError) s ↔
      Binds 3 [labName, some (.str node), username] := by
  refine finishes_memberByNames_bind _ _ _ (fun m => ?_) s
  split
  · exact .pure _
  · exact .bind (.read _) fun _ => .write _ _

theorem finishes_applyLifecycle (node : String) (frame : ResultFrame) (t : TaskRow)
    (s : Controller) :
    Finishes (applyLifecycle node frame t) s ↔ LifecycleFits s node frame t := by
  unfold applyLifecycle LifecycleFits ResultFrame.reports
  rw [finishes_lift_bind]
  refine exists_congr fun lab => and_congr_right fun _ => ?_
  cases hcheck : frame.ok && t.action == .nodeCheck && frame.result.truthy with
  | true => simpa using total_storeCapabilities _ _ s
  | false =>
  cases hrepair : frame.ok && t.action == .nodeRepair && (frame.result.getOpt "health").truthy with
  | true => simpa using total_storeCapabilities _ _ s
  | false =>
  cases hlab : lab.truthy with
  | false => simp
  | true =>
  simp only [Bool.false_eq_true, if_false, Bool.or_false, Bool.true_and, forall_true_left,
    Bool.not_true]
  by_cases hcreate : t.action = .labCreate
  · simp only [hcreate, beq_self_eq_true, if_true, true_or]
    exact finishes_markPlacementState ..
  by_cases hdestroy : t.action = .labDestroy
  · have hother : (Action.labDestroy == Action.labCreate) = false := rfl
    simp only [hdestroy, hother, Bool.false_eq_true, beq_self_eq_true, if_true, if_false, or_true]
    rw [finishes_ite, finishes_confirmDestroyed, finishes_markPlacementState]
    cases frame.ok <;> simp
  have hc : (t.action == .labCreate) = false := beq_eq_false_iff_ne.mpr hcreate
  have hd : (t.action == .labDestroy) = false := beq_eq_false_iff_ne.mpr hdestroy
  simp only [hc, hd, Bool.false_eq_true, if_false, hcreate, hdestroy, or_self]
  rw [finishes_lift_bind]
  refine exists_congr fun user => and_congr_right fun _ => ?_
  cases huser : user.truthy with
  | false => simp
  | true =>
  simp only [Bool.true_and, forall_true_left]
  by_cases hadd : t.action = .studentAdd
  · have mails : Total (if frame.ok then do
        startCredentialMail lab node user
        startCompletionMail lab node
      else pure () : Op Unit) :=
      .ite (.bind (total_startCredentialMail _ _ _) fun _ => total_startCompletionMail _ _) (.pure _)
    simp only [hadd, beq_self_eq_true, if_true, forall_true_left, reduceCtorEq, false_imp_iff,
      and_true]
    rw [Total.finishes_last fun _ => mails]
    exact finishes_markMemberState ..
  · have ha : (t.action == .studentAdd) = false := beq_eq_false_iff_ne.mpr hadd
    simp only [ha, Bool.false_eq_true, if_false, hadd, false_imp_iff, true_and]
    rw [finishes_ite, finishes_completeStudentRemoval]
    simp

/-- The effects of a result on the rows its task is about. -/
theorem finishes_applyTask {node : String} {frame : ResultFrame} {s : Controller} {t : TaskRow}
    (ht : t ∈ s.db.taskLog.rows) (hopen : t.openFor node frame.id = true) :
    Finishes (applyResult.applyTask node frame) (s.settled node frame) ↔
      LifecycleFits (s.settled node frame) node frame t := by
  unfold applyResult.applyTask
  rw [Op.query, finishes_read_bind, getTask_settled ht hopen]
  dsimp only
  have halert : Total (alertFailure frame (t.settled frame s.now)) :=
    .ite (.pure _) (total_alertAdmins _ _ _)
  rw [halert.finishes_seq, finishes_applyLifecycle]
  cases hok : frame.ok with
  | true =>
      -- a success raises no alert
      have hsame : (alertFailure frame (t.settled frame s.now)).after (s.settled node frame) =
          s.settled node frame := by
        unfold alertFailure
        rw [if_pos hok]
        rfl
      rw [hsame]
      rfl
  | false =>
      -- a failure completes no removal, and nothing else reads the state
      unfold LifecycleFits
      simp only [hok, Bool.false_eq_true, false_imp_iff, implies_true]
      rfl

/-- **A result is survived** where it is dropped, or where its names fit its action. -/
theorem finishes_handleResult (node : String) (frame : ResultFrame) (s : Controller) :
    Finishes (handleResult node frame) s ↔
      ∀ t ∈ s.db.taskLog.rows, t.openFor node frame.id = true →
        LifecycleFits (s.settled node frame) node frame t := by
  unfold Finishes
  rw [handleResult_run]
  cases hany : s.db.taskLog.rows.any (TaskRow.openFor node frame.id) with
  | false =>
      refine iff_of_true ⟨(), rfl⟩ fun t ht hopen => ?_
      exact absurd hopen (List.any_eq_false.mp hany t ht)
  | true =>
      obtain ⟨t, ht, hopen⟩ := List.any_eq_true.mp hany
      have hlog : Total (logResult frame) := by
        unfold logResult
        split
        · exact .pure _
        · exact .ite (.pure _) (.bind (.read _) fun _ => total_insertLog _)
      have hrun : Finishes (applyResult node frame) (s.settled node frame) ↔
          LifecycleFits (s.settled node frame) node frame t := by
        unfold applyResult
        rw [Total.finishes_last fun _ => hlog, finishes_applyTask ht hopen]
      refine Iff.trans hrun ⟨fun h t' ht' hopen' => ?_, fun h => h t ht hopen⟩
      -- the id names one row
      obtain rfl : t' = t := s.db.taskLog.eq_of_clash ht' ht
        ((TaskRow.openFor_iff.mp hopen').1.trans (TaskRow.openFor_iff.mp hopen).1.symm)
      exact h

end MassDeployment
