import MassDeployment.Lib.Pipeline
import MassDeployment.Link.System

set_option autoImplicit false

/-! # The order in which tasks are begun

Both queues hand out the oldest job that is ready, and a job that was given back is not ready for
a while. As long as no claim passes over a job that waits, the tasks of a node are begun in the
order in which they were enqueued; once a send fails, the tasks behind the one that failed overtake
it.
-/

namespace MassDeployment

open Js Agent

/-! ## The agent's queue -/

/-- The task of a job of the agent, if it can be decoded. -/
def taskOf (payload : Option Frame) : Option String :=
  (payload.bind fun frame => Task.fromFrame frame 0).map Task.id

theorem fromFrame_taskOf {payload : Option Frame} {now : Nat} {task : Task}
    (h : (payload.bind fun frame => Task.fromFrame frame now) = some task) :
    taskOf payload = some task.id := by
  obtain ⟨frame, rfl, hframe⟩ := Option.bind_eq_some_iff.mp h
  unfold Task.fromFrame at hframe
  split at hframe
  · rename_i hid haction
    cases hframe
    simp [taskOf, Task.fromFrame, hid, haction]
  · cases hframe

theorem taskOf_wire (frame : TaskFrame) : taskOf (some frame.wire) = some frame.id := rfl

/-- The task the worker is about to begin. -/
def Agent.Phase.ahead : Phase → Option String
  | .claimed job => taskOf job.payload
  | .looking _ task => some task.id
  | _ => none

/-- The worker is free to claim a task. -/
def Agent.Phase.isIdle : Phase → Bool
  | .idle => true
  | _ => false

namespace Agent.Client

/-- The tasks in the queue of the agent, oldest first. -/
def queued (c : Client) : List String := c.tasks.payloads.filterMap taskOf

/-- A step that begins no task, queues none, and claims none. -/
structure Undisturbed (c c' : Client) : Prop where
  started : c'.started = c.started
  waiting : c'.queued.Sublist c.queued
  ahead : c'.phase.ahead = none ∨ c'.phase.ahead = c.phase.ahead ∧ c'.queued = c.queued

theorem Undisturbed.of_tasks {c c' : Client} (hstarted : c'.started = c.started)
    (htasks : c'.tasks = c.tasks)
    (hahead : c'.phase.ahead = none ∨ c'.phase.ahead = c.phase.ahead) :
    Undisturbed c c' := by
  have hqueued : c'.queued = c.queued := by rw [Client.queued, htasks, Client.queued]
  exact ⟨hstarted, hqueued ▸ .refl _, hahead.imp_right fun h => ⟨h, hqueued⟩⟩

theorem Undisturbed.refl (c : Client) : Undisturbed c c := .of_tasks rfl rfl (.inr rfl)

theorem undisturbed_decode (c : Client) : Undisturbed c c.decode := by
  unfold decode
  split
  case h_1 job hp =>
    split
    case h_1 task hdecode =>
      refine .of_tasks rfl rfl (.inr ?_)
      rw [hp]
      exact (fromFrame_taskOf hdecode).symm
    case h_2 => exact .of_tasks rfl rfl (.inl rfl)
  case h_2 => exact .refl c

theorem undisturbed_ackTask (c : Client) : Undisturbed c c.ackTask := by
  unfold ackTask
  split
  case h_3 => exact .refl c
  all_goals
    exact ⟨rfl, (List.filter_sublist.map _).filterMap _, .inl rfl⟩

theorem undisturbed_retryTask (c : Client) (error : String) :
    Undisturbed c (c.retryTask error) := by
  unfold retryTask
  split
  case h_1 =>
    refine ⟨rfl, ?_, .inl rfl⟩
    rw [queued, queued]
    simp [log, enqueueOutbound]
  case h_2 => exact .refl c

/-- **Only a claim brings a task to the front, and only a miss in the journal begins one.** -/
theorem undisturbed_step (c : Client) {e : AgentEvent} (hreceive : ∀ raw, e ≠ .receive raw)
    (hclaim : e ≠ .claimTask) (hlook : ∀ readable, e ≠ .cachedResult readable) :
    Undisturbed c (c.step e) := by
  cases e with
  | receive raw => exact absurd rfl (hreceive raw)
  | claimTask => exact absurd rfl hclaim
  | cachedResult readable => exact absurd rfl (hlook readable)
  | decode => exact c.undisturbed_decode
  | ackTask => exact c.undisturbed_ackTask
  | retryTask error => exact c.undisturbed_retryTask error
  | handleReturns handlers =>
      simp only [step, handleReturns]
      split
      · exact .of_tasks rfl rfl (.inl rfl)
      · exact .refl c
  | recordResult =>
      simp only [step, recordResult]
      split
      · exact .of_tasks rfl rfl (.inl rfl)
      · exact .refl c
  | emitResult =>
      simp only [step, emitResult]
      split
      · exact .of_tasks rfl rfl (.inl rfl)
      · exact .of_tasks rfl rfl (.inl rfl)
      · exact .refl c
  | raises =>
      rcases c.raises_eq with h | ⟨job, h⟩
      · rw [step, h]
        exact .refl c
      · rw [step, h]
        exact .of_tasks rfl rfl (.inl rfl)
  | restart workerId => exact .of_tasks rfl rfl (.inl rfl)
  | claimOutbound =>
      simp only [step, claimOutbound]
      split
      · split
        · exact .refl c
        · exact .of_tasks rfl rfl (.inr rfl)
      · exact .refl c
  | sendOutbound acked =>
      simp only [step, sendOutbound]
      split
      · exact .refl c
      · exact .of_tasks rfl rfl (.inr rfl)
  | sendFails =>
      simp only [step, sendFails]
      split
      · exact .refl c
      · exact .of_tasks rfl rfl (.inr rfl)
  | note e => cases e <;> exact .of_tasks rfl rfl (.inr rfl)
  | expireTasks p =>
      have hqueued : (c.step (.expireTasks p)).queued = c.queued := by
        rw [queued, queued]
        simp [step]
      exact ⟨rfl, hqueued ▸ .refl _, .inr ⟨rfl, hqueued⟩⟩
  | expireOutbound p => exact .of_tasks rfl rfl (.inr rfl)
  | elapse ms => exact .of_tasks rfl rfl (.inr rfl)

/-- A task frame that arrives is queued behind the others. -/
theorem receive_wire (c : Client) (frame : TaskFrame) :
    (c.receive (some (.dict frame.wire))).queued = c.queued ++ [frame.id] ∧
    (c.receive (some (.dict frame.wire))).started = c.started ∧
    (c.receive (some (.dict frame.wire))).phase = c.phase := by
  have hreceive : c.receive (some (.dict frame.wire)) =
      ({ c with tasks := c.tasks.enqueue (some frame.wire) } : Client).enqueueOutbound
        (receiptFrame frame.id (.of c.now)) := rfl
  rw [hreceive]
  refine ⟨?_, rfl, rfl⟩
  rw [queued, queued]
  simp [enqueueOutbound, taskOf_wire]

end Agent.Client

/-! ## Whose turn it is -/

/-- The task has been begun, or no task before it waits to be begun. -/
def Foremost (started queue : List String) (id : String) : Prop :=
  id ∈ started ∨ ∃ before after, queue = before ++ id :: after ∧ ∀ b ∈ before, b ∈ started

theorem Foremost.append {started queue : List String} {id : String}
    (h : Foremost started queue id) (new : List String) :
    Foremost started (queue ++ new) id := by
  rcases h with h | ⟨before, after, rfl, hbefore⟩
  · exact .inl h
  · exact .inr ⟨before, after ++ new, by simp, hbefore⟩

namespace Link

/-- The tasks on their way to the worker, the first ones first. -/
def waiting (l : Link) : List String :=
  l.client.queued ++ (l.down.map TaskFrame.id ++ l.controller.queued l.node)

/-- A job of the agent whose task has not been begun. -/
def pending (l : Link) (job : TaskJob) : Bool :=
  (taskOf job.payload).any fun id => decide (id ∉ l.client.started)

/-- **No claim passes over a task.** A tick that sends to the agent, and a claim of the worker, find
no task that could be claimed behind one that waits for a delay or for a claim to run out. -/
def InTurn (l : Link) : LinkEvent → Prop
  | .tick sends => l.connected = true ∧ sends.head? = some true →
    (l.controller.queues l.node).InTurn l.controller.now fun job => job.payload.readable
  | .client .claimTask => l.client.phase.isIdle = true →
    l.client.tasks.InTurn l.client.now l.pending
  | _ => True

instance : ∀ (l : Link) (e : LinkEvent), Decidable (l.InTurn e)
  | l, .tick sends => inferInstanceAs (Decidable (l.connected = true ∧ sends.head? = some true →
      (l.controller.queues l.node).InTurn l.controller.now fun job => job.payload.readable))
  | l, .client .claimTask => inferInstanceAs (Decidable (l.client.phase.isIdle = true →
      l.client.tasks.InTurn l.client.now l.pending))
  | _, .client (.receive _) | _, .client .decode | _, .client (.cachedResult _)
  | _, .client (.handleReturns _) | _, .client .recordResult | _, .client .emitResult
  | _, .client .ackTask | _, .client .raises | _, .client (.retryTask _) | _, .client (.restart _)
  | _, .client .claimOutbound | _, .client (.sendOutbound _) | _, .client .sendFails
  | _, .client (.note _) | _, .client (.expireTasks _) | _, .client (.expireOutbound _)
  | _, .client (.elapse _) | _, .act _ | _, .redeliver _ | _, .restart | _, .dial | _, .lose
  | _, .deliver | _, .arrive | _, .refuse => isTrue trivial

/-- What has been begun and what waits are in the order of enqueueing. -/
structure InOrder (l : Link) : Prop where
  accounted : l.controller.Accounted
  line : (Pipeline.line l.client.started l.waiting).Sublist (l.controller.enqueued l.node)
  foremost : ∀ id, l.client.phase.ahead = some id →
    Foremost l.client.started l.client.queued id

namespace InOrder

variable {l : Link}

theorem nodup (h : InOrder l) : (Pipeline.line l.client.started l.waiting).Nodup :=
  (h.accounted.nodup l.node).sublist h.line

/-- Only tasks that were enqueued are begun. -/
theorem enqueued (h : InOrder l) {id : String} (hid : id ∈ l.client.started) :
    id ∈ l.controller.enqueued l.node :=
  h.line.subset (Pipeline.mem_line.mpr (.inl hid))

/-- The controller adds tasks behind those that wait. -/
theorem controller (h : InOrder l) {s : Controller} (hs : Controller.Appends l.node l.controller s)
    (down : List TaskFrame)
    (hwait : ∀ new, (s.queued l.node).Sublist (l.controller.queued l.node ++ new) →
      (down.map TaskFrame.id ++ s.queued l.node).Sublist
        ((l.down.map TaskFrame.id ++ l.controller.queued l.node) ++ new)) :
    InOrder { l with controller := s, down := down } := by
  obtain ⟨haccounted, hlengthens⟩ := hs h.accounted
  obtain ⟨new, henqueued, hqueued, hdrawn⟩ := hlengthens.appended
  refine ⟨haccounted, ?_, h.foremost⟩
  have hfresh : ∀ id ∈ new, id ∉ l.client.started := fun id hid hstarted =>
    h.accounted.not_drewId (h.enqueued hstarted) (hdrawn id hid)
  have hwaiting : (l.client.queued ++ (down.map TaskFrame.id ++ s.queued l.node)).Sublist
      (l.waiting ++ new) := by
    rw [waiting, List.append_assoc]
    exact (List.Sublist.refl _).append (hwait new hqueued)
  show (Pipeline.line l.client.started
    (l.client.queued ++ (down.map TaskFrame.id ++ s.queued l.node))).Sublist (s.enqueued l.node)
  have hline := @Pipeline.line_sublist _ _ l.client.started _ _ hwaiting
  rw [Pipeline.line_append hfresh] at hline
  rw [henqueued]
  exact hline.trans (h.line.append_right new)

/-- The controller works on what is not in flight. -/
theorem apart (h : InOrder l) {s : Controller} (hs : Controller.Appends l.node l.controller s) :
    InOrder { l with controller := s } :=
  h.controller hs l.down fun new hqueued => by
    rw [List.append_assoc]
    exact (List.Sublist.refl _).append hqueued

/-- What is lost does not come back. -/
theorem shorter (h : InOrder l) {l' : Link} (hnode : l'.node = l.node)
    (hcontroller : l'.controller = l.controller)
    (hc : l.client.Undisturbed l'.client) (hdown : l'.down.Sublist l.down) : InOrder l' := by
  refine ⟨hcontroller ▸ h.accounted, ?_, ?_⟩
  · rw [hc.started, hcontroller, hnode]
    refine (Pipeline.line_sublist ?_).trans h.line
    rw [waiting, hcontroller, hnode, waiting]
    exact hc.waiting.append ((hdown.map _).append (.refl _))
  · intro id hid
    rw [hc.started]
    rcases hc.ahead with hnone | ⟨hsame, hqueued⟩
    · rw [hnone] at hid
      cases hid
    · rw [hqueued]
      exact h.foremost id (hsame ▸ hid)

/-- A batch goes from the queue to the wire in order. -/
theorem tick (h : InOrder l) {sends : List Bool} (hturn : l.InTurn (.tick sends)) :
    InOrder (l.tick sends) := by
  set hub : Hub := { controller := l.controller }
  have hmoves : Controller.Appends l.node l.controller (push l.controller l.node sends).2 := by
    obtain ⟨_, he, -⟩ := Hub.push_spec l.node 0 (sends.take 20) hub
    have hstep : Controller.Appends l.node l.controller _ :=
      appends_step l.controller (.drainNode l.node sends)
    rw [push, he]
    exact hstep
  by_cases hconnected : l.connected = true
  case neg =>
    have hlost : l.tick sends = { l with controller := (push l.controller l.node sends).2 } := by
      simp only [Link.tick, if_neg hconnected]
    rw [hlost]
    exact h.apart hmoves
  have hhead : (sends.take 20).head? = some true → sends.head? = some true := by
    cases sends <;> exact id
  obtain ⟨new, hsent, hqueued⟩ :=
    push_queued l.node 0 (sends.take 20) hub fun hs => hturn ⟨hconnected, hhead hs⟩
  have hframes : l.controller.queued l.node =
      (push l.controller l.node sends).1.map TaskFrame.id ++
        (push l.controller l.node sends).2.queued l.node := by
    rw [push, hsent, List.append_nil, ← List.map_reverse]
    simpa [List.map_reverse, Function.comp_def] using hqueued
  have hsends : l.tick sends =
      { l with
        controller := (push l.controller l.node sends).2
        down := l.down ++ (push l.controller l.node sends).1 } := by
    simp only [Link.tick, if_pos hconnected]
  rw [hsends]
  refine h.controller hmoves _ fun new' _ => ?_
  rw [hframes, List.map_append, List.append_assoc]
  exact List.sublist_append_left ..

theorem deliver (h : InOrder l) : InOrder l.deliver := by
  unfold Link.deliver
  split
  · exact h
  · rename_i frame rest hdown
    obtain ⟨hqueued, hstarted, hphase⟩ := l.client.receive_wire frame
    refine ⟨h.accounted, ?_, ?_⟩
    · have hline := h.line
      rw [waiting, hdown] at hline
      rw [waiting]
      dsimp only
      rw [hqueued, hstarted, List.append_assoc]
      exact hline
    · intro id hid
      dsimp only at hid ⊢
      rw [hqueued, hstarted]
      rw [hphase] at hid
      exact (h.foremost id hid).append _

/-- The worker claims a task that is begun already, or the first one that is not. -/
theorem claimTask (h : InOrder l) (hturn : l.InTurn (.client .claimTask)) :
    InOrder { l with client := l.client.claimTask } := by
  unfold Client.claimTask
  split
  case h_2 => exact h
  case h_1 hp =>
    have hturn := hturn (by rw [hp]; rfl)
    cases hc : l.client.tasks.claimOne l.client.now l.client.workerId with
    | none => exact h
    | some claimed =>
        obtain ⟨job, tasks⟩ := claimed
        have hpay : tasks.payloads = l.client.tasks.payloads := DurableQueue.payloads_claimOne hc
        obtain ⟨before, after, hrows, hready, hbefore, -, -⟩ := DurableQueue.claimOne_split hc
        refine ⟨h.accounted, ?_, ?_⟩
        · have hline := h.line
          rw [waiting, Client.queued] at hline
          rw [waiting, Client.queued]
          dsimp only
          rw [hpay]
          exact hline
        · intro id hid
          replace hid : taskOf job.payload = some id := hid
          show Foremost l.client.started (tasks.payloads.filterMap taskOf) id
          rw [hpay]
          by_cases hstarted : id ∈ l.client.started
          · exact .inl hstarted
          · have hskip := DurableQueue.InTurn.before hturn hrows hready hbefore
              (by simp [pending, hid, hstarted])
            refine .inr ⟨before.filterMap fun j => taskOf j.payload,
              after.filterMap fun j => taskOf j.payload, ?_, ?_⟩
            · simp [DurableQueue.payloads, hrows, List.filterMap_map, hid]
            · intro id' hid'
              obtain ⟨j, hj, htask⟩ := List.mem_filterMap.mp hid'
              have := hskip j hj
              simpa [pending, htask] using this

/-- On a miss in the journal the worker begins the task in front. -/
theorem cachedResult (h : InOrder l) (readable : Bool) :
    InOrder { l with client := l.client.cachedResult readable } := by
  unfold Client.cachedResult
  split
  case h_2 => exact h
  case h_1 job task hp =>
    split
    case h_1 cached =>
      exact ⟨h.accounted, h.line, nofun⟩
    case h_2 =>
      refine ⟨h.accounted, ?_, nofun⟩
      have hfront := h.foremost task.id (by rw [hp]; rfl)
      have hline := h.line
      show (Pipeline.line (l.client.started ++ [task.id]) l.waiting).Sublist _
      rcases hfront with hstarted | ⟨before, after, hqueued, hbefore⟩
      · rwa [Pipeline.line_again hstarted]
      · have hwaiting : l.waiting = before ++ task.id ::
            (after ++ (l.down.map TaskFrame.id ++ l.controller.queued l.node)) := by
          rw [waiting, hqueued, List.append_assoc, List.cons_append]
        have hnodup := h.nodup
        rw [hwaiting] at hline hnodup ⊢
        rwa [Pipeline.line_begin hbefore hnodup]

/-- **Step lemma.** In turn, the order is kept. -/
theorem step (h : InOrder l) {e : LinkEvent} (he : l.InTurn e) : InOrder (l.step e) := by
  cases e with
  | act a =>
      simp only [Link.step]
      split
      · exact h
      · exact h.apart (appends_step l.controller a)
  | tick sends => exact h.tick he
  | redeliver jobs => exact h.apart (appendsWalk.redeliver l.node _ _)
  | restart =>
      have hrestart := h.apart (appendsWalk.restart l.controller)
      exact hrestart.shorter rfl rfl (.of_tasks rfl rfl (.inr rfl)) (List.nil_sublist _)
  | dial => exact h.shorter rfl rfl (.of_tasks rfl rfl (.inr rfl)) (List.nil_sublist _)
  | lose => exact h.shorter rfl rfl (.of_tasks rfl rfl (.inr rfl)) (List.nil_sublist _)
  | deliver => exact h.deliver
  | arrive =>
      simp only [Link.step, arrive]
      split
      · exact h
      · split
        · exact h.shorter rfl rfl (.refl _) (.refl _)
        · rename_i received _
          have hmoved := h.apart (appends_step l.controller (.frame l.node received))
          exact hmoved.shorter rfl rfl (.refl _) (.refl _)
  | refuse => exact h.shorter rfl rfl (.refl _) (.refl _)
  | client e =>
      have hrest (hreceive : ∀ raw, e ≠ .receive raw) (hclaim : e ≠ .claimTask)
          (hlook : ∀ readable, e ≠ .cachedResult readable) :
          InOrder { l with client := l.client.step e } :=
        h.shorter rfl rfl (l.client.undisturbed_step hreceive hclaim hlook) (.refl _)
      cases e with
      | receive raw => exact h
      | claimTask => exact h.claimTask he
      | cachedResult readable => exact h.cachedResult readable
      | claimOutbound =>
          simp only [Link.step, clientStep]
          split
          · exact hrest nofun nofun nofun
          · exact h
      | sendOutbound acked =>
          simp only [Link.step, clientStep]
          split
          · exact (hrest nofun nofun nofun).shorter rfl rfl (.refl _) (.refl _)
          · exact h
      | restart workerId =>
          exact h.shorter rfl rfl (.of_tasks rfl rfl (.inl rfl)) (List.nil_sublist _)
      | _ => exact hrest nofun nofun nofun

theorem start (host : Host) (reader : Doubles) (node workerId : String) (retainDays : Nat) :
    InOrder (.start host reader node workerId retainDays) where
  accounted := ⟨⟨fun x hx => absurd hx List.not_mem_nil, .nil⟩,
    fun t ht => absurd ht List.not_mem_nil⟩
  line := List.Sublist.refl _
  foremost _ h := by cases h

theorem run {es : List LinkEvent} (h : InOrder l) (he : Run.Along Link.step InTurn l es) :
    InOrder (Run.run Link.step l es) :=
  Run.invariant (fun _ _ h he => h.step he) h he

end InOrder

end Link

/-- **Tasks are begun in the order in which they were enqueued**, in every run in which no claim
passes over a task. -/
theorem begun_in_order (host : Host) (reader : Doubles) (node workerId : String) (retainDays : Nat)
    {es : List LinkEvent}
    (he : Run.Along Link.step Link.InTurn (.start host reader node workerId retainDays) es) :
    let l := Run.run Link.step (.start host reader node workerId retainDays) es
    l.client.started.eraseDups.Sublist (l.controller.enqueued l.node) := by
  have hl := (Link.InOrder.start host reader node workerId retainDays).run he
  exact (Pipeline.eraseDups_sublist_line ..).trans hl.line

/-- A node with a check and a repair in its queue, and its agent connected. -/
def twoChores : List LinkEvent :=
  [.act (.provisionNode "n" none), .act (.maintain "n" .check none),
    .act (.maintain "n" .repair none), .dial]

/-- The worker takes the next task up to the call of its handler. -/
def begins : List LinkEvent := [.client .claimTask, .client .decode, .client (.cachedResult true)]

/-- The worker carries a task to its end. -/
def finishes : List LinkEvent :=
  [.client (.handleReturns fun _ => none), .client .recordResult, .client .emitResult,
    .client .ackTask]

abbrev plainRun (es : List LinkEvent) : Link :=
  Run.run Link.step (.start .plain .all "n" "agent-1" 7) es

theorem begun_in_order_twoChores :
    (plainRun (twoChores ++ [.tick [true, true], .deliver, .deliver] ++ begins ++ finishes ++
      begins)).client.started.eraseDups.Sublist
    ((plainRun (twoChores ++ [.tick [true, true], .deliver, .deliver] ++ begins ++ finishes ++
      begins)).controller.enqueued "n") :=
  begun_in_order .plain .all "n" "agent-1" 7 (by decide +kernel)

/-- The send of the check fails. Before its five seconds are over the repair is sent and begun. -/
def overtaken : List LinkEvent :=
  twoChores ++ [.tick [false], .tick [true], .deliver] ++ begins ++ finishes ++
    [.act (.tick 5000), .tick [true], .deliver] ++ begins

theorem begun_out_of_order :
    ¬ (plainRun overtaken).client.started.eraseDups.Sublist
      ((plainRun overtaken).controller.enqueued "n") := by
  decide +kernel

end MassDeployment
