import MassDeployment.Agent.Edge
import MassDeployment.Controller.Results
import MassDeployment.Lib.History
import MassDeployment.Link.Order

set_option autoImplicit false

/-! # Whose verdict is in the log

A row of `task_log` gets its verdict from a frame, and the frame has come a long way: the worker of
the agent queued it, the journal may have replayed it, the socket carried it and the schemas of the
hub read it. On the way down the task went through two queues. Here both ways are followed at once:
what the log says of a task is what a handler of the agent answered when it was called with the
action and the parameters that were issued under the id of the task.
-/

namespace MassDeployment

open Js Agent Prog

/-! ## Tasks as they arrive -/

/-- The agent works on the task that the frame asks for. -/
structure TaskFrame.Asks (frame : TaskFrame) (task : Task) : Prop where
  id : task.id = frame.id
  action : task.action = frame.action.text
  params : task.params = loaded (.obj frame.params)
  requestedBy : task.requestedBy = frame.requestedBy

/-- **What the agent decodes is what was issued.** -/
theorem fromFrame_wire (frame : TaskFrame) (now : Nat) :
    ∃ task, Task.fromFrame frame.wire now = some task ∧ frame.Asks task := by
  have hparams : (loaded (.obj frame.params)).orEmpty = loaded (.obj frame.params) := by
    simp [loaded, PyValue.orEmpty]
  refine ⟨_, rfl, rfl, rfl, ?_, ?_⟩
  · exact hparams
  · cases frame with
    | mk id action params requestedBy ts => cases requestedBy <;> rfl

/-! ## The agent -/

/-- A call of `Dispatcher.handle` that returned: the task, and what it came to. -/
abbrev Handled := Task × Report

/-- What a step of the agent shows of its handlers. -/
def Agent.Client.handled (c : Client) : AgentEvent → Option Handled
  | .handleReturns handlers =>
    match c.phase with
    | .handling _ task => some (task, report handlers task)
    | _ => none
  | _ => none

/-- The row holds the frame of a call that returned. -/
def Agent.JournalRow.Answers (r : JournalRow) (x : Handled) : Prop :=
  r.taskUuid = x.1.id ∧
    ∃ ts, r.payload = resultFrame x.1.id x.2.ok x.2.result x.2.error x.2.logs false ts

/-- What the worker holds was asked for. -/
def Agent.Phase.Asked (asked : TaskFrame → Prop) : Phase → Prop
  | .claimed job => ∃ frame, asked frame ∧ job.payload = some frame.wire
  | .looking _ task | .handling _ task | .recording _ task _ => ∃ frame, asked frame ∧ frame.Asks task
  | _ => True

theorem Agent.Phase.Asked.mono {asked asked' : TaskFrame → Prop} {p : Phase} (h : p.Asked asked)
    (hsub : ∀ frame, asked frame → asked' frame) : p.Asked asked' := by
  cases p with
  | claimed job | looking job task | handling job task | recording job task result =>
      obtain ⟨frame, hasked, hframe⟩ := h
      exact ⟨frame, hsub frame hasked, hframe⟩
  | _ => trivial

/-- **The agent is faithful**: it works on nothing but what was asked for, and every result it keeps
or sends is the answer of a call. -/
structure Agent.Client.Faithful (asked : TaskFrame → Prop) (h : List Handled) (c : Client) :
    Prop where
  tasks : ∀ p ∈ c.tasks.payloads, ∃ frame, asked frame ∧ p = some frame.wire
  phase : c.phase.Asked asked
  handled : ∀ x ∈ h, x.1.id ∈ c.started ∧ ∃ frame, asked frame ∧ frame.Asks x.1
  underway : ∀ job task, c.phase = .handling job task → task.id ∈ c.started
  recording : ∀ job task result, c.phase = .recording job task result →
    ∃ x ∈ h, (⟨task.id, result, 0⟩ : JournalRow).Answers x
  recorded : ∀ r ∈ c.recorded, ∃ x ∈ h, r.Answers x
  journal : ∀ r ∈ c.journal, r ∈ c.recorded
  results : ∀ f ∈ c.outgoing, IsResult f → ∃ r ∈ c.recorded, f = r.payload ∨ f = asCached r.payload

namespace Agent.Client

/-- A step that calls no handler, looks for no row and records nothing. -/
theorem aside_step (c : Client) {e : AgentEvent} (hhandle : ∀ handlers, e ≠ .handleReturns handlers)
    (hrecord : e ≠ .recordResult) (hlook : ∀ readable, e ≠ .cachedResult readable) :
    Aside c (c.step e) := by
  cases e with
  | cachedResult readable => exact absurd rfl (hlook readable)
  | handleReturns handlers => exact absurd rfl (hhandle handlers)
  | recordResult => exact absurd rfl hrecord
  | receive raw => exact c.aside_receive raw
  | claimTask => exact c.aside_claimTask
  | decode => exact c.aside_decode
  | emitResult => exact c.aside_emitResult
  | ackTask => exact c.aside_ackTask
  | raises => exact c.aside_raises
  | retryTask error => exact c.aside_retryTask error
  | restart workerId => exact c.aside_restart workerId
  | claimOutbound => exact c.aside_claimOutbound
  | sendOutbound acked => exact c.aside_sendOutbound acked
  | sendFails => exact c.aside_sendFails
  | note e => exact c.aside_note e
  | expireTasks p =>
      exact ⟨rfl, rfl, rfl, rfl, le_rfl, rfl, .inr rfl, fun _ _ _ h => h, fun _ h _ => h⟩
  | expireOutbound p =>
      refine c.aside_sender (c.outbox.expire p) c.sender c.sent ?_ ?_ ?_
      · exact fun f hf => mem_outgoing.mpr (.inl (by simpa using hf))
      · exact fun job hjob => mem_outgoing.mpr (.inr (.inl ⟨job, hjob, rfl⟩))
      · exact fun f hf => mem_outgoing.mpr (.inr (.inr (.inl hf)))
  | elapse ms =>
      exact ⟨rfl, rfl, rfl, rfl, Nat.le_add_right .., rfl, .inr rfl, fun _ _ _ h => h,
        fun _ h _ => h⟩

/-- What is written down stays. -/
theorem recorded_step (c : Client) (e : AgentEvent) : c.recorded ⊆ (c.step e).recorded := by
  have haside (hhandle : ∀ handlers, e ≠ .handleReturns handlers) (hrecord : e ≠ .recordResult)
      (hlook : ∀ readable, e ≠ .cachedResult readable) : c.recorded ⊆ (c.step e).recorded :=
    (c.aside_step hhandle hrecord hlook).recorded ▸ List.Subset.refl _
  cases e with
  | cachedResult readable =>
      simp only [Client.step, cachedResult]
      split
      · split <;> exact List.Subset.refl _
      · exact List.Subset.refl _
  | handleReturns handlers =>
      simp only [Client.step, handleReturns]
      split <;> exact List.Subset.refl _
  | recordResult =>
      simp only [Client.step, recordResult]
      split
      · exact List.subset_append_left _ _
      · exact List.Subset.refl _
  | _ => exact haside (fun _ he => by cases he) (fun he => by cases he) fun _ he => by cases he

/-- The queue and the worker hold nothing but what was asked for. -/
def Holds (asked : TaskFrame → Prop) (c : Client) : Prop :=
  (∀ p ∈ c.tasks.payloads, ∃ frame, asked frame ∧ p = some frame.wire) ∧ c.phase.Asked asked

theorem Holds.let_go {asked : TaskFrame → Prop} {c c' : Client} (h : c.Holds asked)
    (htasks : ∀ p ∈ c'.tasks.payloads, p ∈ c.tasks.payloads)
    (hphase : c'.phase.Asked asked) : c'.Holds asked :=
  ⟨fun p hp => h.1 p (htasks p hp), hphase⟩

/-- **What the worker takes up it was asked for.** -/
theorem Holds.step {asked : TaskFrame → Prop} {c : Client} (h : c.Holds asked) {e : AgentEvent}
    (hreceive : ∀ raw, e ≠ .receive raw) : (c.step e).Holds asked := by
  have hphase := h.2
  cases e with
  | receive raw => exact absurd rfl (hreceive raw)
  | claimTask =>
      simp only [Client.step, claimTask]
      split
      · split
        · exact h
        · rename_i job tasks hclaim
          refine ⟨fun p hp => h.1 p (DurableQueue.payloads_claimOne hclaim ▸ hp), ?_⟩
          exact h.1 _ (List.mem_map_of_mem (DurableQueue.claimOne_eq_some hclaim).1)
      · exact h
  | decode =>
      simp only [Client.step, decode]
      split
      · rename_i job hp
        rw [hp] at hphase
        obtain ⟨frame, hasked, hpayload⟩ := hphase
        obtain ⟨task, hdecode, htask⟩ := fromFrame_wire frame c.now
        rw [hpayload, Option.bind_some, hdecode]
        exact ⟨h.1, frame, hasked, htask⟩
      · exact h
  | cachedResult readable =>
      simp only [Client.step, cachedResult]
      split
      · rename_i job task hp
        rw [hp] at hphase
        split
        · exact ⟨h.1, trivial⟩
        · exact ⟨h.1, hphase⟩
      · exact h
  | handleReturns handlers =>
      simp only [Client.step, handleReturns]
      split
      · rename_i job task hp
        rw [hp] at hphase
        exact ⟨h.1, hphase⟩
      · exact h
  | recordResult =>
      simp only [Client.step, recordResult]
      split
      · exact ⟨h.1, trivial⟩
      · exact h
  | emitResult =>
      simp only [Client.step, emitResult]
      split
      · exact ⟨h.1, trivial⟩
      · exact ⟨h.1, trivial⟩
      · exact h
  | ackTask =>
      simp only [Client.step, ackTask]
      split
      case h_3 => exact h
      all_goals exact h.let_go (fun p hp => DurableQueue.mem_payloads_ack hp) trivial
  | raises =>
      rcases c.raises_eq with hr | ⟨job, hr⟩
      · rw [Client.step, hr]
        exact h
      · rw [Client.step, hr]
        exact ⟨h.1, trivial⟩
  | retryTask error =>
      simp only [Client.step, retryTask]
      split
      · refine h.let_go (fun p hp => ?_) trivial
        simpa [log, enqueueOutbound] using hp
      · exact h
  | restart workerId => exact ⟨h.1, trivial⟩
  | claimOutbound =>
      simp only [Client.step, claimOutbound]
      split
      · split <;> exact h
      · exact h
  | sendOutbound acked =>
      simp only [Client.step, sendOutbound]
      split <;> exact h
  | sendFails =>
      simp only [Client.step, sendFails]
      split <;> exact h
  | note e => cases e <;> exact h
  | expireTasks p => exact h.let_go (fun p hp => by simpa [Client.step] using hp) hphase
  | expireOutbound p => exact h
  | elapse ms => exact h

/-- Only the worker that finds no row calls the handler. -/
theorem handling_step (c : Client) {e : AgentEvent} (hlook : ∀ readable, e ≠ .cachedResult readable)
    {job : TaskJob} {task : Task} (hp : (c.step e).phase = .handling job task) :
    c.phase = .handling job task := by
  cases e with
  | cachedResult readable => exact absurd rfl (hlook readable)
  | receive raw =>
      have hsame : (c.receive raw).phase = c.phase := by
        unfold receive
        split
        · rfl
        · split
          · split <;> rfl
          · rfl
        · rfl
      exact hsame ▸ hp
  | claimTask =>
      simp only [Client.step, claimTask] at hp
      split at hp
      · split at hp
        · exact hp
        · cases hp
      · exact hp
  | decode =>
      simp only [Client.step, decode] at hp
      split at hp
      · split at hp <;> cases hp
      · exact hp
  | handleReturns handlers =>
      simp only [Client.step, handleReturns] at hp
      split at hp
      · cases hp
      · exact hp
  | recordResult =>
      simp only [Client.step, recordResult] at hp
      split at hp
      · cases hp
      · exact hp
  | emitResult =>
      simp only [Client.step, emitResult] at hp
      split at hp
      · cases hp
      · cases hp
      · exact hp
  | ackTask =>
      simp only [Client.step, ackTask] at hp
      split at hp
      · cases hp
      · cases hp
      · exact hp
  | raises =>
      rcases c.raises_eq with hr | ⟨job', hr⟩
      · rwa [Client.step, hr] at hp
      · rw [Client.step, hr] at hp
        cases hp
  | retryTask error =>
      simp only [Client.step, retryTask] at hp
      split at hp
      · cases hp
      · exact hp
  | restart workerId => cases hp
  | claimOutbound =>
      simp only [Client.step, claimOutbound] at hp
      split at hp
      · split at hp <;> exact hp
      · exact hp
  | sendOutbound acked =>
      simp only [Client.step, sendOutbound] at hp
      split at hp <;> exact hp
  | sendFails =>
      simp only [Client.step, sendFails] at hp
      split at hp <;> exact hp
  | note e => cases e <;> exact hp
  | expireTasks p => exact hp
  | expireOutbound p => exact hp
  | elapse ms => exact hp

namespace Faithful

variable {asked : TaskFrame → Prop} {h : List Handled} {c : Client}

theorem mono (hc : c.Faithful asked h) {asked' : TaskFrame → Prop}
    (hsub : ∀ frame, asked frame → asked' frame) : c.Faithful asked' h :=
  { hc with
    tasks := fun p hp => (hc.tasks p hp).imp fun _ hf => ⟨hsub _ hf.1, hf.2⟩
    phase := hc.phase.mono hsub
    handled := fun x hx =>
      ⟨(hc.handled x hx).1, (hc.handled x hx).2.imp fun _ hf => ⟨hsub _ hf.1, hf.2⟩⟩ }

theorem aside {c' : Client} (hc : c.Faithful asked h) (ha : Aside c c') (hholds : c'.Holds asked)
    (hunderway : ∀ job task, c'.phase = .handling job task → c.phase = .handling job task) :
    c'.Faithful asked h where
  tasks := hholds.1
  phase := hholds.2
  handled x hx := ha.started ▸ hc.handled x hx
  underway job task hp := ha.started ▸ hc.underway job task (hunderway job task hp)
  recording job task result hp := hc.recording job task result (ha.recording _ _ _ hp)
  recorded := ha.recorded ▸ hc.recorded
  journal := by
    rw [ha.journal, ha.recorded]
    exact hc.journal
  results f hf hr := ha.recorded ▸ hc.results f (ha.outgoing f hf hr) hr

/-- The worker finds the answer of an earlier call, or calls the handler. -/
theorem cachedResult (hc : c.Faithful asked h) (readable : Bool) :
    (c.cachedResult readable).Faithful asked h := by
  have hholds : (c.cachedResult readable).Holds asked :=
    Holds.step (e := .cachedResult readable) ⟨hc.tasks, hc.phase⟩ nofun
  unfold Client.cachedResult at hholds ⊢
  split at hholds
  case h_2 => exact hc
  case h_1 job task hp =>
    split at hholds
    case h_1 cached hget =>
      refine ⟨hholds.1, hholds.2, hc.handled, nofun, nofun, hc.recorded, hc.journal, ?_⟩
      have hrow : c.journal.get task.id = some cached := by
        split at hget
        · exact hget
        · cases hget
      intro f hf hr
      rcases mem_outgoing.mp hf with hf | hf | hf | hf
      · exact hc.results f (mem_outgoing.mpr (.inl hf)) hr
      · exact hc.results f (mem_outgoing.mpr (.inr (.inl hf))) hr
      · exact hc.results f (mem_outgoing.mpr (.inr (.inr (.inl hf)))) hr
      · obtain ⟨r, hmem, -, rfl⟩ := TaskJournal.mem_of_get hrow
        exact ⟨r, hc.journal r hmem, .inr (Option.some.inj hf).symm⟩
    case h_2 =>
      refine ⟨hholds.1, hholds.2, ?_, ?_, nofun, hc.recorded, hc.journal, ?_⟩
      · exact fun x hx => ⟨List.mem_append_left _ (hc.handled x hx).1, (hc.handled x hx).2⟩
      · rintro _ _ ⟨⟩
        exact List.mem_append_right _ (List.mem_singleton.mpr rfl)
      · intro f hf hr
        refine hc.results f ?_ hr
        rw [mem_outgoing] at hf ⊢
        exact hf.imp_right (Or.imp_right (Or.imp_right nofun))

/-- **The handler returns**: this is the answer the log will have. -/
theorem handleReturns (hc : c.Faithful asked h) (handlers : String → Option (PyValue → Outcome)) :
    (c.handleReturns handlers).Faithful asked (h ++ (c.handled (.handleReturns handlers)).toList) := by
  have hholds : (c.handleReturns handlers).Holds asked :=
    Holds.step (e := .handleReturns handlers) ⟨hc.tasks, hc.phase⟩ nofun
  unfold Client.handleReturns at hholds ⊢
  split at hholds
  case h_1 job task hp =>
    simp only [Client.handled, hp, Option.toList_some]
    refine ⟨hholds.1, hholds.2, ?_, nofun, ?_, ?_, hc.journal, ?_⟩
    · intro x hx
      rcases List.mem_append.mp hx with hx | hx
      · exact hc.handled x hx
      · rw [List.mem_singleton.mp hx]
        exact ⟨hc.underway job task hp, hholds.2⟩
    · rintro _ _ _ ⟨⟩
      refine ⟨(task, report handlers task), by simp, rfl, .of c.now, ?_⟩
      exact handle_eq_resultFrame handlers task (.of c.now)
    · exact fun r hr => (hc.recorded r hr).imp fun _ hx => ⟨List.mem_append_left _ hx.1, hx.2⟩
    · intro f hf hr
      refine hc.results f ?_ hr
      rw [mem_outgoing] at hf ⊢
      exact hf.imp_right (Or.imp_right (Or.imp_right nofun))
  case h_2 hp =>
    have hnone : c.handled (.handleReturns handlers) = none := by
      simp only [Client.handled]
    rw [hnone, Option.toList_none, List.append_nil]
    exact hc

/-- The answer is written down. -/
theorem recordResult (hc : c.Faithful asked h) : c.recordResult.Faithful asked h := by
  have hholds : c.recordResult.Holds asked :=
    Holds.step (e := .recordResult) ⟨hc.tasks, hc.phase⟩ nofun
  unfold Client.recordResult at hholds ⊢
  split at hholds
  case h_2 => exact hc
  case h_1 job task result hp =>
    obtain ⟨x, hx, hid, ts, hpayload⟩ := hc.recording job task result hp
    refine ⟨hholds.1, hholds.2, hc.handled, nofun, nofun, ?_, ?_, ?_⟩
    · intro r hr
      rcases List.mem_append.mp hr with hr | hr
      · exact hc.recorded r hr
      · rw [List.mem_singleton.mp hr]
        exact ⟨x, hx, hid, ts, hpayload⟩
    · intro r hr
      rcases TaskJournal.mem_put hr with hr | rfl
      · exact List.mem_append_left _ (hc.journal r hr)
      · exact List.mem_append_right _ (List.mem_singleton.mpr rfl)
    · intro f hf hr
      rcases mem_outgoing.mp hf with hf | hf | hf | hf
      · exact (hc.results f (mem_outgoing.mpr (.inl hf)) hr).imp fun _ hr =>
          ⟨List.mem_append_left _ hr.1, hr.2⟩
      · exact (hc.results f (mem_outgoing.mpr (.inr (.inl hf))) hr).imp fun _ hr =>
          ⟨List.mem_append_left _ hr.1, hr.2⟩
      · exact (hc.results f (mem_outgoing.mpr (.inr (.inr (.inl hf)))) hr).imp fun _ hr =>
          ⟨List.mem_append_left _ hr.1, hr.2⟩
      · exact ⟨_, List.mem_append_right _ (List.mem_singleton.mpr rfl), .inl (Option.some.inj hf).symm⟩

/-- **Step lemma of the agent.** -/
theorem step (hc : c.Faithful asked h) {e : AgentEvent} (hreceive : ∀ raw, e ≠ .receive raw) :
    (c.step e).Faithful asked (h ++ (c.handled e).toList) := by
  have hrest (hhandle : ∀ handlers, e ≠ .handleReturns handlers) (hrecord : e ≠ .recordResult)
      (hlook : ∀ readable, e ≠ .cachedResult readable) :
      (c.step e).Faithful asked (h ++ (c.handled e).toList) := by
    have hnone : c.handled e = none := by
      cases e with
      | handleReturns handlers => exact absurd rfl (hhandle handlers)
      | _ => rfl
    rw [hnone, Option.toList_none, List.append_nil]
    exact hc.aside (c.aside_step hhandle hrecord hlook) (Holds.step ⟨hc.tasks, hc.phase⟩ hreceive)
      fun _ _ => c.handling_step hlook
  cases e with
  | receive raw => exact absurd rfl (hreceive raw)
  | cachedResult readable => exact (List.append_nil h).symm ▸ hc.cachedResult readable
  | handleReturns handlers => exact hc.handleReturns handlers
  | recordResult => exact (List.append_nil h).symm ▸ hc.recordResult
  | _ => exact hrest (fun _ he => by cases he) (fun he => by cases he) fun _ he => by cases he

end Faithful

end Agent.Client

/-! ## The controller -/

/-- What the log keeps of a result. -/
structure TaskRow.Verdict (t : TaskRow) (ok : Bool) (result : Value) (error : Option String) :
    Prop where
  state : t.state = (Mark.done ok).state
  result : t.result = stringify result
  error : t.error = if ok then none else error

theorem TaskRow.Verdict.grows {t t' : TaskRow} {ok : Bool} {result : Value} {error : Option String}
    (h : t.Verdict ok result error) (hg : t.Grows t') : t'.Verdict ok result error := by
  have hterm : t.state.terminal = true := by
    rw [h.state]
    cases ok <;> rfl
  obtain ⟨hstate, hresult, herror, -⟩ := hg.final hterm
  exact ⟨hstate.trans h.state, hresult.trans h.result, herror.trans h.error⟩

/-- Nothing that is quiet settles a task. -/
theorem Quiet.verdict {A : String → TaskFrame → Prop} {K : String → Prop} {s s' : Controller}
    (h : Quiet A K s s') {t' : TaskRow} (ht' : t' ∈ s'.db.taskLog.rows)
    (hterm : t'.state.terminal = true) :
    ∃ t ∈ s.db.taskLog.rows, t.Grows t' ∧ t.state.terminal = true := by
  obtain ⟨t, ht, hid, hterm'⟩ := h.tasks t' ht' hterm
  exact ⟨t, ht, h.evolves.task ht ht' hid.symm, hterm'⟩

/-- **Where a verdict comes from.** A task that has a verdict had it before, or its result has just
come from the node it was issued for. -/
theorem verdict_step {s : Controller} {a : Act} {t' : TaskRow}
    (ht' : t' ∈ (step s a).db.taskLog.rows) (hterm : t'.state.terminal = true) :
    (∃ t ∈ s.db.taskLog.rows, t.Grows t' ∧ t.state.terminal = true) ∨
      ∃ frame, a = .frame t'.node (.result frame) ∧ t'.taskUuid = frame.id ∧
        t'.Verdict frame.ok frame.result frame.error := by
  by_cases hresult : ∃ node frame, a = .frame node (.result frame)
  case neg =>
    exact .inl ((quiet_step fun node frame he => hresult ⟨node, frame, he⟩).verdict ht' hterm)
  obtain ⟨node, frame, rfl⟩ := hresult
  by_cases hopen : ∃ t ∈ s.db.taskLog.rows, t.openFor node frame.id = true
  case neg =>
    rw [ignored_step (by simpa using hopen)] at ht'
    exact .inl ⟨t', ht', .refl t', hterm⟩
  obtain ⟨t₀, ht₀, hopen⟩ := hopen
  obtain ⟨s₁, s₂, hq₁, -, hw, hq₂, -⟩ := accepted_step ht₀ hopen
  obtain ⟨t₂, ht₂, hg₂, hterm₂⟩ := hq₂.verdict ht' hterm
  rw [hw.taskLog] at ht₂
  obtain ⟨t₁, ht₁, hg₁, hterm₁⟩ := hq₁.verdict ht₂ hterm₂
  obtain ⟨t, ht, rfl⟩ := mem_settleTask.mp ht₁
  have hg := hg₁.trans hg₂
  split at hg
  · rename_i hthis
    obtain ⟨hid, hnode, -⟩ := TaskRow.openFor_iff.mp hthis
    have hverdict : t'.Verdict frame.ok frame.result frame.error :=
      TaskRow.Verdict.grows ⟨rfl, rfl, rfl⟩ hg
    have hnode' : t'.node = node := hg.node.trans hnode
    exact .inr ⟨frame, by rw [hnode'], hg.taskUuid.trans hid, hverdict⟩
  · rename_i hother
    rw [if_neg hother] at hterm₁
    exact .inl ⟨t, ht, hg, hterm₁⟩

/-- The jobs in a queue are tasks that were issued for its node. -/
def Controller.Stocked (s : Controller) : Prop :=
  ∀ node frame, Payload.sealed frame ∈ (s.queues node).payloads → (node, frame) ∈ s.issued

/-- An accounted controller stays one, and so does a stocked one. -/
def Controller.InStock (s : Controller) : Prop := s.Accounted ∧ s.Stocked

theorem inStock_of {s s' : Controller} (happends : Controller.Appends "" s s')
    (hissued : s.issued ⊆ s'.issued)
    (hjobs : s.Accounted → ∀ node frame, Payload.sealed frame ∈ (s'.queues node).payloads →
      Payload.sealed frame ∈ (s.queues node).payloads ∨ (node, frame) ∈ s'.issued) :
    Keeping Controller.InStock s s' := by
  rintro ⟨haccounted, hstocked⟩
  refine ⟨(happends haccounted).1, fun node frame hmem => ?_⟩
  rcases hjobs haccounted node frame hmem with hmem | hmem
  · exact hissued (hstocked node frame hmem)
  · exact hmem

theorem inStock_frame {s s' : Controller} (hh : s'.host = s.host) (hd : s.draws ≤ s'.draws)
    (hi : s'.issued = s.issued) (ht : s'.db.taskLog = s.db.taskLog) (hq : s'.queues = s.queues) :
    Keeping Controller.InStock s s' :=
  inStock_of (appends_frame hh hd hi ht hq) (hi ▸ List.Subset.refl _)
    fun _ _ _ hmem => .inl (hq ▸ hmem)

theorem inStock_writeQueue {name : String} {f : DurableQueue Payload → DurableQueue Payload}
    {s : Controller} (h : (f (s.queues name)).payloads.Sublist (s.queues name).payloads) :
    Keeping Controller.InStock s ((writeQueue name f).run s).2 := by
  refine inStock_of (appends_writeQueue h) (List.Subset.refl _) fun _ node frame hmem => .inl ?_
  replace hmem : Payload.sealed frame ∈
      (if node = name then f (s.queues name) else s.queues node).payloads := hmem
  split at hmem
  · subst node
    exact h.subset hmem
  · exact hmem

/-- The id of a new task is new, so the log takes its row. -/
theorem Controller.Accounted.row_accepted {s : Controller} (hs : s.Accounted) (name : String)
    (action : Action) (params : Params) (requestedBy : Option String) :
    ∃ T, s.db.taskLog.insert
      ((s.nextFrame action params requestedBy).row name ((s.queues name).seq + 1) s.now)
      (fun _ => rfl) = some T ∧ (enqueueTask name action params requestedBy).run s =
        (.ok (s.nextFrame action params requestedBy),
          { s.withJob name (s.nextFrame action params requestedBy) with
            db := { s.db with taskLog := T }
            issued := (name, s.nextFrame action params requestedBy) :: s.issued }) := by
  obtain ⟨T, hT, -, -⟩ := @Table.insert_of_fresh _ _ s.db.taskLog
    ((s.nextFrame action params requestedBy).row name ((s.queues name).seq + 1) s.now)
    (fun _ => rfl) fun t ht hclash => by
      obtain ⟨x, hx, hid⟩ := hs.logged t ht
      obtain ⟨d, hlt, hd⟩ := hs.numbered.drawn x hx
      have hsame : s.host.uuid d = s.host.uuid s.draws := hd.symm.trans (hid.trans hclash)
      have := s.host.uuid_injective _ _ hsame
      omega
  exact ⟨T, hT, by simp only [enqueueTask, hT]⟩

theorem inStock_enqueueTask (name : String) (action : Action) (params : Params)
    (requestedBy : Option String) :
    Respects (Keeping Controller.InStock) (enqueueTask name action params requestedBy) := by
  intro s
  refine inStock_of (appends_enqueueTask name action params requestedBy s) ?_ ?_
  · obtain ⟨new, hnew, -⟩ := ((enqueueTask name action params requestedBy).keeps s).issued
    rw [hnew]
    exact List.subset_append_right _ _
  · intro haccounted node frame hmem
    obtain ⟨T, -, hrun⟩ := haccounted.row_accepted name action params requestedBy
    rw [hrun] at hmem ⊢
    replace hmem : Payload.sealed frame ∈ (if node = name then
        (s.queues name).enqueue (.sealed (s.nextFrame action params requestedBy))
      else s.queues node).payloads := hmem
    split at hmem
    · subst node
      rw [DurableQueue.payloads_enqueue] at hmem
      rcases List.mem_append.mp hmem with hmem | hmem
      · exact .inl hmem
      · cases List.mem_singleton.mp hmem
        exact .inr List.mem_cons_self
    · exact .inl hmem

theorem inStock_claimTask (name workerId : String) :
    Respects (Keeping Controller.InStock) (claimTask name workerId) := by
  intro s
  unfold claimTask
  rw [run_read_bind]
  cases hc : (s.queues name).claimOne s.now workerId with
  | none => exact id
  | some claimed =>
      obtain ⟨job, queue⟩ := claimed
      refine trans_of (Keeping Controller.InStock) (@inStock_writeQueue name (fun _ => queue) s ?_) ?_
      · rw [DurableQueue.payloads_claimOne hc]
      · exact Respects.bind (respects_lift _) (fun _ => .pure _) _

theorem inStockWalk : FreeWalk (Keeping Controller.InStock) where
  anyLists _ h s := inStock_frame rfl le_rfl rfl (h s.db).2.2.2.2.2.2 rfl
  emit _ _ := inStock_frame rfl le_rfl rfl rfl rfl
  alertState _ _ _ := inStock_frame rfl le_rfl rfl rfl rfl
  gpuMailState _ _ _ := inStock_frame rfl le_rfl rfl rfl rfl
  draw _ _ := inStock_frame rfl (Nat.le_succ _) rfl rfl rfl
  spawn _ _ := inStock_frame rfl le_rfl rfl rfl rfl
  takeThread _ _ := inStock_frame rfl le_rfl rfl rfl rfl
  clock f h hf s := by
    obtain ⟨now, settings, -, he⟩ := hf s
    show Keeping Controller.InStock s (f s)
    rw [he]
    exact inStock_frame rfl le_rfl rfl rfl rfl
  claimTask := inStock_claimTask
  ackTask _ _ _ _ := inStock_writeQueue (List.filter_sublist.map _)
  retryTask _ _ _ := .bind (.read _) fun _ _ =>
    inStock_writeQueue (by rw [DurableQueue.payloads_retry])
  updateTasks p f h s := inStock_of (appendWalk.updateTasks p f h s) (List.Subset.refl _)
    fun _ _ _ hmem => .inl hmem
  enqueueTask := inStock_enqueueTask
  updateNode _ _ _ _ _ := inStock_frame rfl le_rfl rfl rfl rfl
  labs _ _ := inStock_frame rfl le_rfl rfl rfl rfl
  students _ _ := inStock_frame rfl le_rfl rfl rfl rfl
  labMembers _ _ := inStock_frame rfl le_rfl rfl rfl rfl
  labPlacements _ _ := inStock_frame rfl le_rfl rfl rfl rfl
  placementMembers _ _ := inStock_frame rfl le_rfl rfl rfl rfl

/-- **The queues hold issued tasks only**, in every run. -/
theorem inStock_step (s : Controller) (a : Act) : Keeping Controller.InStock s (step s a) := by
  refine inStockWalk.anyAct (a := a) (fun _ _ => inStock_frame rfl le_rfl rfl rfl rfl) ?_ s
  intro name actor force _ s
  exact inStock_of (appends_congr rfl le_rfl rfl
    (fun t ht => ⟨t, (Table.mem_delete.mp ht).1, rfl⟩) (.refl _)) (List.Subset.refl _)
    fun _ _ _ hmem => .inl hmem

/-- What a batch sends was in the queue. -/
theorem push_sent (node : String) (ws : Nat) (sends : List Bool) (h : Hub) :
    ∃ new, (h.push node ws sends).sent = new ++ h.sent ∧
      ∀ x ∈ new, Payload.sealed x.frame ∈ (h.controller.queues node).payloads := by
  induction sends generalizing h with
  | nil => exact ⟨[], rfl, by simp⟩
  | cons sent rest ih =>
      rw [Hub.push]
      rcases pushOne_cases node sent h.controller with
        ⟨r, s', hrun, hnone, -⟩ |
        ⟨before, job, after, frame, s', hrun, -, hrows, hp, -, -, hrows', -⟩
      · rw [hrun]
        rcases r with e | _ | frame
        · exact ⟨[], rfl, by simp⟩
        · exact ⟨[], rfl, by simp⟩
        · exact absurd rfl (hnone frame)
      · rw [hrun]
        set h' : Hub :=
          { h with
            controller := s'
            sent := ⟨ws, node, frame, h.controller.db.node node⟩ :: h.sent }
        have hjobs : (h.controller.queues node).payloads =
            before.map Job.payload ++ .sealed frame :: after.map Job.payload := by
          rw [DurableQueue.payloads, hrows, List.map_append, List.map_cons, hp]
        have hjobs' : (s'.queues node).payloads =
            before.map Job.payload ++ after.map Job.payload := by
          rw [DurableQueue.payloads, hrows', List.map_append]
        obtain ⟨new, hsent, hnew⟩ := ih h'
        refine ⟨new ++ [⟨ws, node, frame, h.controller.db.node node⟩], ?_, fun x hx => ?_⟩
        · show (h'.push node ws rest).sent = _
          rw [hsent, List.append_assoc, List.singleton_append]
        · rw [hjobs]
          rcases List.mem_append.mp hx with hx | hx
          · have hmem := hnew x hx
            rw [show h'.controller.queues node = s'.queues node from rfl, hjobs'] at hmem
            simp only [List.mem_append, List.mem_cons] at hmem ⊢
            exact hmem.imp_right .inr
          · rw [List.mem_singleton.mp hx]
            simp

/-- Every row of the log is that of a task issued for its node. -/
def Controller.Filed (s : Controller) : Prop :=
  ∀ t ∈ s.db.taskLog.rows, ∃ frame, (t.node, frame) ∈ s.issued ∧ frame.Issues t

theorem Controller.Evolves.filed {s s' : Controller} (h : s.Evolves s') (hs : s.Filed) :
    s'.Filed := by
  intro t' ht'
  obtain ⟨new, hnew, -, hrows⟩ := h.issued
  rw [hnew]
  by_cases hle : t'.id ≤ s.db.taskLog.seq
  · obtain ⟨t, ht, hg⟩ := h.taskLog.grows t' ht' hle
    replace hg : t.Grows t' := hg
    obtain ⟨frame, hmem, hissues⟩ := hs t ht
    exact ⟨frame, List.mem_append_right _ (hg.node ▸ hmem), hissues.grows hg⟩
  · obtain ⟨frame, hmem, hissues⟩ := hrows t' ht' (Nat.not_le.mp hle)
    exact ⟨frame, List.mem_append_left _ hmem, hissues⟩

/-! ## Frames as the hub reads them -/

theorem lookup_parsedFields {d : Doubles} {fields : List (String × PyValue)}
    {js : List (String × Json)} (h : PyValue.parsedFields d fields = some js) (k : String) :
    js.lookup k = (fields.lookup k).bind fun v => v.parsed d := by
  induction fields generalizing js with
  | nil =>
      cases h
      rfl
  | cons kv rest ih =>
      obtain ⟨k', v⟩ := kv
      rw [parsedFields_cons] at h
      obtain ⟨j, hj, hrest⟩ := Option.bind_eq_some_iff.mp h
      obtain ⟨js', hjs', rfl⟩ := Option.map_eq_some_iff.mp hrest
      rw [List.lookup_cons, List.lookup_cons, ih hjs']
      cases k == k' with
      | true => exact hj.symm
      | false => rfl

/-- Only a frame of a result is read as one. -/
theorem isResult_of_received {d : Doubles} {f : Frame} {received : ResultFrame}
    (h : ((PyValue.dict f).parsed d).bind parseInboundFrame = some (.result received)) :
    IsResult f := by
  obtain ⟨j, hj, hparse⟩ := Option.bind_eq_some_iff.mp h
  rw [PyValue.parsed_dict] at hj
  obtain ⟨fields, hfields, rfl⟩ := Option.map_eq_some_iff.mp hj
  have htype : fields.lookup "type" = some (.str "result") := by
    simp only [parseInboundFrame, Schema.record, Value.field, Option.bind_eq_bind,
      Option.bind_some] at hparse
    obtain ⟨-, -, hparse⟩ := Option.bind_eq_some_iff.mp hparse
    split at hparse
    · rename_i ht
      simp at hparse
    · assumption
    all_goals simp at hparse
  rw [lookup_parsedFields hfields] at htype
  obtain ⟨v, hv, hstr⟩ := Option.bind_eq_some_iff.mp htype
  rw [IsResult, hv]
  cases v with
  | str text => simpa using hstr
  | list items =>
      obtain ⟨_, _, hstr⟩ := Option.map_eq_some_iff.mp hstr
      cases hstr
  | dict fields =>
      obtain ⟨_, _, hstr⟩ := Option.map_eq_some_iff.mp hstr
      cases hstr
  | _ => cases hstr

/-- What the log says of a task is what the report says. -/
def TaskRow.Says (t : TaskRow) (d : Doubles) (r : Report) : Prop :=
  ∃ j, r.result.parsed d = some j ∧ t.Verdict r.ok (some j) r.error

/-- **What the hub reads of an answer**, fresh or replayed. -/
theorem received_answer {d : Doubles} {f : Frame} {r : JournalRow} {x : Handled}
    (hr : r.Answers x) (hf : f = r.payload ∨ f = asCached r.payload) {received : ResultFrame}
    (h : ((PyValue.dict f).parsed d).bind parseInboundFrame = some (.result received)) :
    received.id = x.1.id ∧ received.ok = x.2.ok ∧ received.error = x.2.error ∧
      ∃ j, x.2.result.parsed d = some j ∧ received.result = some j := by
  obtain ⟨-, ts, hpayload⟩ := hr
  have hframe : ∃ cached,
      f = resultFrame x.1.id x.2.ok x.2.result x.2.error x.2.logs cached ts := by
    rcases hf with rfl | rfl
    · exact ⟨false, hpayload⟩
    · exact ⟨true, by rw [hpayload, asCached_resultFrame]⟩
  obtain ⟨cached, rfl⟩ := hframe
  obtain ⟨-, -, -, j, hj, heq⟩ := (received_result ..).mp h
  cases heq
  exact ⟨rfl, rfl, rfl, j, hj, rfl⟩

/-! ## The link -/

namespace Link

/-- What an event shows of the handlers of the agent. -/
def handled (l : Link) : LinkEvent → Option Handled
  | .client e => l.client.handled e
  | _ => none

/-- The node keeps its name, and the controller its reader. -/
theorem step_ends (l : Link) (e : LinkEvent) :
    (l.step e).node = l.node ∧ (l.step e).reader = l.reader := by
  cases e with
  | act a =>
      rw [step]
      split <;> exact ⟨rfl, rfl⟩
  | deliver =>
      rw [step, Link.deliver]
      split <;> exact ⟨rfl, rfl⟩
  | arrive =>
      rw [step, Link.arrive]
      split
      · exact ⟨rfl, rfl⟩
      · split <;> exact ⟨rfl, rfl⟩
  | client e =>
      cases e with
      | claimOutbound =>
          rw [step, clientStep]
          split <;> exact ⟨rfl, rfl⟩
      | sendOutbound acked =>
          rw [step, clientStep]
          split <;> exact ⟨rfl, rfl⟩
      | _ => exact ⟨rfl, rfl⟩
  | _ => exact ⟨rfl, rfl⟩

/-- A task of the node was issued. -/
def Asked (l : Link) (frame : TaskFrame) : Prop := (l.node, frame) ∈ l.controller.issued

/-- To the controller a batch is a consumer tick. -/
theorem push_controller (s : Controller) (node : String) (sends : List Bool) :
    (push s node sends).2 = MassDeployment.step s (.drainNode node sends) := by
  obtain ⟨_, he, -⟩ := Hub.push_spec node 0 (sends.take 20) { controller := s }
  rw [push, he]
  rfl

/-- What a batch sends was issued. -/
theorem issued_of_push {s : Controller} {node : String} {sends : List Bool} (hstock : s.InStock)
    {frame : TaskFrame} (hsent : frame ∈ (push s node sends).1) :
    (node, frame) ∈ (push s node sends).2.issued := by
  obtain ⟨new, hnew, hqueue⟩ := push_sent node 0 (sends.take 20) { controller := s }
  rw [push, hnew, List.append_nil] at hsent
  obtain ⟨x, hx, rfl⟩ := List.mem_map.mp (List.mem_reverse.mp hsent)
  obtain ⟨older, hissued, -⟩ := (step_evolves s (.drainNode node sends)).issued
  rw [push_controller, hissued]
  exact List.mem_append_right _ (hstock.2 node x.frame (hqueue x hx))

/-- What is on its way is what it should be, and so is what has arrived. -/
structure Traced (h : List Handled) (l : Link) : Prop where
  stock : l.controller.InStock
  filed : l.controller.Filed
  down : ∀ frame ∈ l.down, l.Asked frame
  client : l.client.Faithful l.Asked h
  up : ∀ f ∈ l.up, IsResult f → ∃ r ∈ l.client.recorded, f = r.payload ∨ f = asCached r.payload
  judged : ∀ t ∈ l.controller.db.taskLog.rows, t.node = l.node → t.state.terminal = true →
    ∃ x ∈ h, t.taskUuid = x.1.id ∧ t.Says l.reader x.2

namespace Traced

variable {h : List Handled} {l : Link}

/-- The controller moves, and settles tasks of the node as they were answered. -/
theorem controller (hl : Traced h l) {s : Controller} (hs : l.controller.Evolves s)
    (hstock : Keeping Controller.InStock l.controller s)
    (hverdict : ∀ t' ∈ s.db.taskLog.rows, t'.node = l.node → t'.state.terminal = true →
      (∃ t ∈ l.controller.db.taskLog.rows, t.Grows t' ∧ t.state.terminal = true) ∨
        ∃ x ∈ h, t'.taskUuid = x.1.id ∧ t'.Says l.reader x.2) :
    Traced h { l with controller := s } := by
  have hasked : ∀ frame, l.Asked frame → (l.node, frame) ∈ s.issued := by
    intro frame hframe
    obtain ⟨new, hnew, -⟩ := hs.issued
    exact hnew ▸ List.mem_append_right _ hframe
  refine ⟨hstock hl.stock, hs.filed hl.filed, fun frame hf => hasked _ (hl.down frame hf),
    hl.client.mono hasked, hl.up, fun t' ht' hnode hterm => ?_⟩
  rcases hverdict t' ht' hnode hterm with ⟨t, ht, hg, hterm'⟩ | hnew
  · obtain ⟨x, hx, hid, j, hj, hsays⟩ := hl.judged t ht (hg.node ▸ hnode) hterm'
    exact ⟨x, hx, hg.taskUuid.trans hid, j, hj, hsays.grows hg⟩
  · exact hnew

/-- The controller does anything but take a result of the node. -/
theorem act (hl : Traced h l) {a : Act} (ha : ∀ frame, a ≠ .frame l.node (.result frame)) :
    Traced h { l with controller := MassDeployment.step l.controller a } := by
  refine hl.controller (step_evolves _ _) (inStock_step _ _) fun t' ht' hnode hterm => .inl ?_
  rcases verdict_step ht' hterm with hold | ⟨frame, he, -⟩
  · exact hold
  · exact absurd (hnode ▸ he) (ha frame)

/-- The agent moves; the socket carries what it did. -/
theorem agent (hl : Traced h l) {h' : List Handled} {l' : Link} (hnode : l'.node = l.node)
    (hreader : l'.reader = l.reader) (hcontroller : l'.controller = l.controller)
    (hsub : h ⊆ h') (hdown : ∀ frame ∈ l'.down, frame ∈ l.down)
    (hclient : l'.client.Faithful l.Asked h')
    (hup : ∀ f ∈ l'.up, IsResult f → ∃ r ∈ l'.client.recorded, f = r.payload ∨ f = asCached r.payload) :
    Traced h' l' := by
  have hasked : ∀ frame, l.Asked frame → l'.Asked frame := by
    intro frame hframe
    rwa [Asked, hnode, hcontroller]
  refine ⟨hcontroller ▸ hl.stock, hcontroller ▸ hl.filed,
    fun frame hf => hasked _ (hl.down frame (hdown frame hf)), hclient.mono hasked, hup, ?_⟩
  rw [hnode, hreader, hcontroller]
  exact fun t ht hn hterm => (hl.judged t ht hn hterm).imp fun _ hx => ⟨hsub hx.1, hx.2⟩

theorem up_mono {up : List Frame} {recorded recorded' : List JournalRow}
    (h : ∀ f ∈ up, IsResult f → ∃ r ∈ recorded, f = r.payload ∨ f = asCached r.payload)
    (hsub : recorded ⊆ recorded') :
    ∀ f ∈ up, IsResult f → ∃ r ∈ recorded', f = r.payload ∨ f = asCached r.payload :=
  fun f hf hr => (h f hf hr).imp fun _ hmem => ⟨hsub hmem.1, hmem.2⟩

/-- The connection is lost. -/
theorem lose (hl : Traced h l) : Traced h l.lose := by
  refine hl.agent rfl rfl rfl (List.Subset.refl _) nofun ?_ nofun
  have haside : l.client.Aside { l.client with sender := none } :=
    l.client.aside_sender l.client.outbox none l.client.sent
      (fun f hf => Client.mem_outgoing.mpr (.inl hf)) nofun
      fun f hf => Client.mem_outgoing.mpr (.inr (.inr (.inl hf)))
  exact hl.client.aside haside ⟨hl.client.tasks, hl.client.phase⟩ fun _ _ hp => hp

/-- A batch goes from the queue to the wire. -/
theorem tick (hl : Traced h l) (sends : List Bool) : Traced h (l.tick sends) := by
  have hmoved : Traced h { l with controller := (push l.controller l.node sends).2 } := by
    rw [push_controller]
    exact hl.act fun _ he => by cases he
  refine ⟨hmoved.stock, hmoved.filed, fun frame hframe => ?_, hmoved.client, hmoved.up,
    hmoved.judged⟩
  have hdown : frame ∈ l.down ∨ frame ∈ (push l.controller l.node sends).1 := by
    simp only [Link.tick] at hframe
    split at hframe
    · exact List.mem_append.mp hframe
    · exact .inl hframe
  rcases hdown with hdown | hsent
  · exact hmoved.down frame hdown
  · exact issued_of_push hl.stock hsent

/-- A task reaches the agent. -/
theorem deliver (hl : Traced h l) : Traced h l.deliver := by
  unfold Link.deliver
  split
  · exact hl
  · rename_i frame rest hdown
    have hframe : l.Asked frame := hl.down frame (hdown ▸ List.mem_cons_self)
    have haside := l.client.aside_receive (some (.dict frame.wire))
    refine hl.agent rfl rfl rfl (List.Subset.refl _) ?_ ?_ (up_mono hl.up ?_)
    · exact fun f hf => hdown ▸ List.mem_cons_of_mem _ hf
    · refine hl.client.aside haside ⟨?_, hl.client.phase⟩ fun _ _ hp => hp
      intro p hp
      have hp : p ∈ (l.client.tasks.enqueue (some frame.wire)).payloads := hp
      rw [DurableQueue.payloads_enqueue] at hp
      rcases List.mem_append.mp hp with hp | hp
      · exact hl.client.tasks p hp
      · exact ⟨frame, hframe, List.mem_singleton.mp hp⟩
    · exact fun r hr => haside.recorded ▸ hr

/-- **A frame of the agent reaches the hub**: the verdict it brings is that of an answer. -/
theorem arrive (hl : Traced h l) : Traced h l.arrive := by
  unfold Link.arrive
  split
  · exact hl
  rename_i frame rest hup
  have hrest : Traced h { l with up := rest } :=
    hl.agent rfl rfl rfl (List.Subset.refl _) (fun _ hf => hf) hl.client
      fun f hf hr => hl.up f (hup ▸ List.mem_cons_of_mem _ hf) hr
  split
  · exact hrest
  rename_i received hreceived
  by_cases hresult : ∃ result, received = .result result
  case neg => exact hrest.act fun result he => hresult ⟨result, (Act.frame.inj he).2⟩
  obtain ⟨result, rfl⟩ := hresult
  obtain ⟨r, hr, hframe⟩ := hl.up frame (hup ▸ List.mem_cons_self) (isResult_of_received hreceived)
  obtain ⟨x, hx, hanswers⟩ := hl.client.recorded r hr
  obtain ⟨hid, hok, herror, j, hj, hvalue⟩ := received_answer hanswers hframe hreceived
  refine hrest.controller (step_evolves l.controller (.frame l.node (.result result)))
    (inStock_step l.controller (.frame l.node (.result result))) fun t' ht' hnode hterm => ?_
  replace ht' : t' ∈ (MassDeployment.step l.controller
    (.frame l.node (.result result))).db.taskLog.rows := ht'
  rcases verdict_step ht' hterm with hold | ⟨result', he, htask, hverdict⟩
  · exact .inl hold
  · obtain ⟨-, he⟩ := Act.frame.inj he
    cases he
    rw [hok, hvalue, herror] at hverdict
    exact .inr ⟨x, hx, htask.trans hid, j, hj, hverdict⟩

/-- **Step lemma.** -/
theorem step (hl : Traced h l) {e : LinkEvent}
    (he : ∀ frame, e ≠ .act (.frame l.node (.result frame))) :
    Traced (h ++ (l.handled e).toList) (l.step e) := by
  have stay {l' : Link} (hl' : Traced h l') (hnone : l.handled e = none) :
      Traced (h ++ (l.handled e).toList) l' := by
    rwa [hnone, Option.toList_none, List.append_nil]
  cases e with
  | act a =>
      refine stay ?_ rfl
      rw [Link.step]
      split
      · exact hl
      · exact hl.act fun frame ha => he frame (ha ▸ rfl)
  | tick sends => exact stay (hl.tick sends) rfl
  | redeliver jobs =>
      refine stay (hl.controller (Prog.keeps _ _) (inStock_writeQueue ?_)
        fun t' ht' _ hterm => .inl ⟨t', ht', .refl t', hterm⟩) rfl
      rw [DurableQueue.payloads_expire]
  | restart =>
      exact stay (hl.lose.controller { Controller.Evolves.refl l.controller with }
        (inStock_frame rfl le_rfl rfl rfl rfl)
        fun t' ht' _ hterm => .inl ⟨t', ht', .refl t', hterm⟩) rfl
  | dial =>
      have hlost := hl.lose
      exact stay (hlost.agent rfl rfl rfl (List.Subset.refl _) (fun _ hf => hf) hlost.client hlost.up)
        rfl
  | lose => exact stay hl.lose rfl
  | deliver => exact stay hl.deliver rfl
  | arrive => exact stay hl.arrive rfl
  | refuse =>
      exact stay (hl.agent rfl rfl rfl (List.Subset.refl _) (fun _ hf => hf) hl.client
        fun f hf hr => hl.up f (List.mem_of_mem_tail hf) hr) rfl
  | client e =>
      have moves (hreceive : ∀ raw, e ≠ .receive raw) :
          Traced (h ++ (l.client.handled e).toList) { l with client := l.client.step e } :=
        hl.agent rfl rfl rfl (List.subset_append_left _ _) (fun _ hf => hf)
          (hl.client.step hreceive) (up_mono hl.up (l.client.recorded_step e))
      cases e with
      | receive raw => exact stay hl rfl
      | claimOutbound =>
          simp only [Link.step, clientStep]
          split
          · exact moves fun _ he => by cases he
          · exact stay hl rfl
      | sendOutbound acked =>
          simp only [Link.step, clientStep]
          split
          · have hmoved := moves fun _ he => by cases he
            refine hmoved.agent rfl rfl rfl (List.Subset.refl _) (fun _ hf => hf) hmoved.client ?_
            intro f hf hr
            rcases List.mem_append.mp hf with hf | hf
            · exact hmoved.up f hf hr
            · obtain ⟨job, hjob, rfl⟩ := List.mem_map.mp hf
              have hout : job.payload ∈ l.client.outgoing :=
                Client.mem_outgoing.mpr (.inr (.inl ⟨job, Option.mem_toList.mp hjob, rfl⟩))
              exact (hl.client.results _ hout hr).imp fun _ hr =>
                ⟨l.client.recorded_step (.sendOutbound acked) hr.1, hr.2⟩
          · exact stay hl rfl
      | restart workerId =>
          have hmoved := moves fun _ he => by cases he
          exact hmoved.agent rfl rfl rfl (List.Subset.refl _)
            (fun _ hf => absurd hf List.not_mem_nil) hmoved.client
            fun _ hf => absurd hf List.not_mem_nil
      | _ => exact moves fun _ he => by cases he

theorem start (host : Host) (reader : Doubles) (node workerId : String) (retainDays : Nat) :
    Traced [] (.start host reader node workerId retainDays) where
  stock := ⟨⟨⟨fun _ hx => absurd hx List.not_mem_nil, .nil⟩,
    fun _ ht => absurd ht List.not_mem_nil⟩, fun _ _ hmem => absurd hmem List.not_mem_nil⟩
  filed _ ht := absurd ht List.not_mem_nil
  down _ hf := absurd hf List.not_mem_nil
  client := ⟨nofun, trivial, nofun, nofun, nofun, nofun, nofun, nofun⟩
  up _ hf := absurd hf List.not_mem_nil
  judged _ ht := absurd ht List.not_mem_nil

end Traced

end Link

/-- **The verdicts in the log are the answers of the agent.** In every run in which the results of
a node come over its connection only, what the log says of a settled task is what a handler answered
when the agent called it with the action and the parameters that were issued under this id. -/
theorem verdicts_are_answers (host : Host) (reader : Doubles) (node workerId : String)
    (retainDays : Nat) {es : List LinkEvent}
    (he : ∀ frame, LinkEvent.act (.frame node (.result frame)) ∉ es) :
    let start := Link.start host reader node workerId retainDays
    let l := Run.run Link.step start es
    ∀ t ∈ l.controller.db.taskLog.rows, t.node = node → t.state.terminal = true →
      ∃ frame, (node, frame) ∈ l.controller.issued ∧ frame.Issues t ∧
        frame.id ∈ l.client.started ∧
        ∃ x ∈ Run.history Link.step Link.handled start es, frame.Asks x.1 ∧ t.Says reader x.2 := by
  intro start l t ht hnode hterm
  have halong : Run.Along Link.step (fun _ e => ∀ frame, e ≠ .act (.frame node (.result frame)))
      start es := by
    refine ((Run.along_of_forall (C := fun _ _ => True) (fun _ _ => trivial) start es).and ?_).imp
      fun _ _ h => h.2
    rintro e hmem frame rfl
    exact he frame hmem
  have hrun : Link.Traced (Run.history Link.step Link.handled start es) l ∧ l.node = node ∧
      l.reader = reader := by
    refine Run.history_along (h := []) (I := fun l h => Link.Traced h l ∧ l.node = node ∧
      l.reader = reader) (C := fun _ e => ∀ frame, e ≠ .act (.frame node (.result frame)))
      (fun l e h hl he => ?_) ⟨.start host reader node workerId retainDays, rfl, rfl⟩ halong
    obtain ⟨htraced, hnode, hreader⟩ := hl
    exact ⟨htraced.step fun frame => hnode ▸ he frame, (l.step_ends e).1.trans hnode,
      (l.step_ends e).2.trans hreader⟩
  obtain ⟨hl, hnode', hreader⟩ := hrun
  obtain ⟨frame, hissued, hissues⟩ := hl.filed t ht
  obtain ⟨x, hx, hid, hsays⟩ := hl.judged t ht (hnode.trans hnode'.symm) hterm
  obtain ⟨hstarted, asked, hasked, hasks⟩ := hl.client.handled x hx
  -- the id of a task is its own
  have hsame : asked = frame := by
    have heq := hl.stock.1.numbered.eq_of_id hasked hissued
      (hasks.id.symm.trans (hid.symm.trans hissues.taskUuid))
    exact (Prod.mk.inj heq).2
  subst hsame
  rw [hnode] at hissued
  exact ⟨asked, hissued, hissues, hasks.id ▸ hstarted, x, hx, hasks, hreader ▸ hsays⟩

/-- The agent carries a check out, and its frames reach the hub. -/
def carriedOut : List LinkEvent :=
  twoChores ++ [.tick [true, true], .deliver, .deliver] ++ begins ++ finishes ++
    [.client .claimOutbound, .client (.sendOutbound true), .client .claimOutbound,
      .client (.sendOutbound true), .client .claimOutbound, .client (.sendOutbound true),
      .arrive, .arrive, .arrive]

theorem verdicts_are_answers_carriedOut :
    ∃ t ∈ (plainRun carriedOut).controller.db.taskLog.rows, t.state = .failed ∧
      ∃ frame, ("n", frame) ∈ (plainRun carriedOut).controller.issued ∧ frame.Issues t ∧
        frame.id ∈ (plainRun carriedOut).client.started ∧
        ∃ x ∈ Run.history Link.step Link.handled (.start .plain .all "n" "agent-1" 7) carriedOut,
          frame.Asks x.1 ∧ t.Says .all x.2 := by
  have hfailed : ∃ t ∈ (plainRun carriedOut).controller.db.taskLog.rows,
      t.state = .failed ∧ t.node = "n" := by decide +kernel
  obtain ⟨t, ht, hfailed, hnode⟩ := hfailed
  have hown : ∀ frame, LinkEvent.act (.frame "n" (.result frame)) ∉ carriedOut := by
    simp [carriedOut, twoChores, begins, finishes]
  exact ⟨t, ht, hfailed, verdicts_are_answers .plain .all "n" "agent-1" 7 hown t ht hnode
    (by rw [hfailed]; rfl)⟩

end MassDeployment
