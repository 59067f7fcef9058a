import Mathlib.Data.List.Nodup
import MassDeployment.Agent.Frames
import MassDeployment.Lib.DurableQueue
import MassDeployment.Lib.Run

set_option autoImplicit false

/-! # The task worker of the agent (`client.py`, `localq.py`)

Tasks are queued before they run, results are journalled before they are sent, and a job is
acknowledged last: an at-least-once queue in front of an idempotency journal. The worker is a
coroutine, and everything else may happen between two of its steps, so what it holds between two
steps is part of the state (`Phase`). The state also remembers which handlers were started, which
of these starts were cut off, what was recorded and what was sent.
-/

namespace MassDeployment.Agent

abbrev Frame := List (String × PyValue)

/-! ## The journal -/

/-- A row of the table `results`. -/
structure JournalRow where
  taskUuid : String
  payload : Frame
  createdAt : Nat

abbrev TaskJournal := List JournalRow

namespace TaskJournal

/-- The row of a task, decrypted. -/
def get (journal : TaskJournal) (taskUuid : String) : Option Frame :=
  (journal.find? fun r => r.taskUuid == taskUuid).map JournalRow.payload

/-- `INSERT OR REPLACE`, then the rows older than the retention are deleted. -/
def put (journal : TaskJournal) (taskUuid : String) (resultFrame : Frame) (now retainMs : Nat) :
    TaskJournal :=
  let replaced := journal.filter (fun r => r.taskUuid != taskUuid) ++
    [JournalRow.mk taskUuid resultFrame now]
  replaced.filter fun r => decide (now ≤ r.createdAt + retainMs)

theorem get_append (j j' : TaskJournal) (id : String) :
    get (j ++ j') id = (get j id).or (get j' id) := by
  simp only [get, List.find?_append]
  cases j.find? fun r => r.taskUuid == id <;> rfl

theorem get_filter (j : TaskJournal) (id : String) {p : JournalRow → Bool}
    (hp : ∀ r ∈ j, r.taskUuid = id → p r = true) : get (j.filter p) id = get j id := by
  induction j with
  | nil => rfl
  | cons r j ih =>
      have hrest := ih fun r' hr' => hp r' (List.mem_cons_of_mem r hr')
      by_cases hid : r.taskUuid = id
      · simp [get, hp r List.mem_cons_self hid, hid]
      · by_cases hr : p r = true
        · simpa [get, hr, hid] using hrest
        · simpa [get, hr, hid] using hrest

theorem get_put (j : TaskJournal) (id : String) (f : Frame) (now retainMs : Nat) :
    get (put j id f now retainMs) id = some f := by
  have hold : get (j.filter fun r => r.taskUuid != id) id = none := by
    simp [get]
  have hput : get (put j id f now retainMs) id =
      get (j.filter (fun r => r.taskUuid != id) ++ [JournalRow.mk id f now]) id := by
    refine get_filter _ id fun r hr hid => ?_
    rcases List.mem_append.mp hr with hr | hr
    · exact absurd hid (by simpa using (List.mem_filter.mp hr).2)
    · simp [List.mem_singleton.mp hr]
  rw [hput, get_append, hold]
  simp [get]

theorem get_put_of_ne {j : TaskJournal} {id id' : String} (hne : id' ≠ id) (f : Frame)
    {now retainMs : Nat}
    (hkept : ∀ r ∈ j, r.taskUuid = id' → now ≤ r.createdAt + retainMs) :
    get (put j id f now retainMs) id' = get j id' := by
  calc get (put j id f now retainMs) id'
      = get (j.filter (fun r => r.taskUuid != id) ++ [JournalRow.mk id f now]) id' := by
        refine get_filter _ id' fun r hr hid => ?_
        rcases List.mem_append.mp hr with hr | hr
        · exact decide_eq_true (hkept r (List.mem_filter.mp hr).1 hid)
        · simp [List.mem_singleton.mp hr]
    _ = get (j.filter fun r => r.taskUuid != id) id' := by
        rw [get_append]
        simp [get, hne.symm]
    _ = get j id' := get_filter j id' fun r _ hid => by simp [hid, hne]

theorem mem_of_get {j : TaskJournal} {id : String} {f : Frame} (h : get j id = some f) :
    ∃ r ∈ j, r.taskUuid = id ∧ r.payload = f := by
  obtain ⟨r, hr, rfl⟩ := Option.map_eq_some_iff.mp h
  exact ⟨r, List.mem_of_find?_eq_some hr, by simpa using List.find?_some hr, rfl⟩

theorem mem_put {j : TaskJournal} {id : String} {f : Frame} {now retainMs : Nat} {r : JournalRow}
    (h : r ∈ put j id f now retainMs) : r ∈ j ∨ r = ⟨id, f, now⟩ := by
  have hr := (List.mem_filter.mp h).1
  rcases List.mem_append.mp hr with hr | hr
  · exact .inl (List.mem_filter.mp hr).1
  · exact .inr (List.mem_singleton.mp hr)

end TaskJournal

/-! ## The state -/

/-- `value or {}`. -/
def PyValue.orEmpty : PyValue → PyValue
  | .none | .bool false | .str "" | .list [] => .dict []
  | .num q => if q = 0 then .dict [] else .num q
  | v => v

/-- What `now_ms` reads. -/
def Moment.of (now : Nat) : Moment := ⟨min now (2 ^ 53), Nat.min_le_right ..⟩

/-- `Task.from_frame`; `none` where it raises. The receiver lets only texts in as `id` and
`action`. -/
def Task.fromFrame (frame : Frame) (now : Nat) : Option Task :=
  match frame.lookup "id", frame.lookup "action" with
  | some (.str id), some (.str action) => some {
      id := id
      action := action
      params := ((frame.lookup "params").getD (.dict [])).orEmpty
      requestedBy := match frame.lookup "requested_by" with
        | some (.str by') => some by'
        | _ => none
      ts := (frame.lookup "ts").getD (.ofMoment (.of now)) }
  | _, _ => none

/-- A job of the queue `tasks`: the frame, or `none` where it cannot be decrypted. -/
abbrev TaskJob := Job (Option Frame)

/-- What the worker holds between two of its awaits. -/
inductive Phase where
  | idle
  | claimed (job : TaskJob)
  /-- The payload could not be decoded: the job is to be acknowledged. -/
  | dropping (job : TaskJob)
  | looking (job : TaskJob) (task : Task)
  | replaying (job : TaskJob) (cached : Frame)
  /-- `Dispatcher.handle` was called and has not returned. -/
  | handling (job : TaskJob) (task : Task)
  | recording (job : TaskJob) (task : Task) (result : Frame)
  | emitting (job : TaskJob) (result : Frame)
  | acking (job : TaskJob)
  /-- A step raised: the job is to be retried. -/
  | retrying (job : TaskJob)

/-- The task whose handler was started and whose result is not yet in the journal. -/
def Phase.unrecorded : Phase → Option String
  | .handling _ task | .recording _ task _ => some task.id
  | _ => none

/-- The task whose row the worker is about to look for. -/
def Phase.looksUp : Phase → Option String
  | .looking _ task => some task.id
  | _ => none

/-- The handler has returned and its result is not in the journal. -/
def Phase.returned : Phase → Bool
  | .recording .. => true
  | _ => false

/-- The frame the worker is about to put into the outbox. -/
def Phase.emits : Phase → Option Frame
  | .replaying _ cached => some (asCached cached)
  | .emitting _ result => some result
  | _ => none

/-- The agent: its durable queues and journal, its worker and its sender, and what has
happened. -/
structure Client where
  nodeName : String
  workerId : String
  now : Nat
  retainMs : Nat
  tasks : DurableQueue (Option Frame)
  journal : TaskJournal
  outbox : DurableQueue Frame
  phase : Phase
  /-- The job the sender holds. -/
  sender : Option (Job Frame)
  /-- The tasks `Dispatcher.handle` was called with, call by call. -/
  started : List String
  /-- Those of the calls that ended without a result in the journal. -/
  cutOff : List String
  /-- What `record_result` wrote. -/
  recorded : List JournalRow
  /-- What was handed to `ws.send`. -/
  sent : List Frame

namespace Client

/-- An agent that starts on an empty state directory. -/
def fresh (nodeName workerId : String) (retainDays : Nat) : Client where
  nodeName := nodeName
  workerId := workerId
  now := 0
  retainMs := retainDays * 86400 * 1000
  tasks := .empty
  journal := []
  outbox := .empty
  phase := .idle
  sender := none
  started := []
  cutOff := []
  recorded := []
  sent := []

/-! ## The steps -/

/-- `enqueue_outbound`. -/
def enqueueOutbound (s : Client) (frame : Frame) : Client :=
  { s with outbox := s.outbox.enqueue frame }

/-- A line on the log bus goes through the outbox. -/
def log (s : Client) (level : Level) (source msg : String) : Client :=
  s.enqueueOutbound
    (Emission.log s.nodeName level source msg none none none none (.of s.now)).frame

/-- `_receiver` on one message: what `json.loads` makes of it, `none` where it raises. -/
def receive (s : Client) (raw : Option PyValue) : Client :=
  match raw with
  | none => s.log .warn "client" "received non-JSON frame"
  | some (.dict frame) =>
    match frame.lookup "type" with
    | some (.str "task") =>
      match frame.lookup "id", frame.lookup "action" with
      | some (.str id), some (.str _) =>
        -- persisted before it runs, and receipted once it is persisted
        ({ s with tasks := s.tasks.enqueue (some frame) } : Client).enqueueOutbound
          (receiptFrame id (.of s.now))
      | _, _ => s.log .warn "client" "ignoring malformed task frame"
    | _ => s
  | some _ => s.log .warn "client" "received non-object frame"

/-- `claim_task`. -/
def claimTask (s : Client) : Client :=
  match s.phase with
  | .idle =>
    match s.tasks.claimOne s.now s.workerId with
    | none => s
    | some (job, tasks) => { s with tasks := tasks, phase := .claimed job }
  | _ => s

/-- `payload_of` and `Task.from_frame`. -/
def decode (s : Client) : Client :=
  match s.phase with
  | .claimed job =>
    match job.payload.bind fun frame => Task.fromFrame frame s.now with
    | some task => { s with phase := .looking job task }
    | none => ({ s with phase := .dropping job } : Client).log .error "client"
        "dropping undecodable task"
  | _ => s

/-- `cached_result`: a row that cannot be read is a miss. On a miss `Dispatcher.handle` is
called. -/
def cachedResult (s : Client) (readable : Bool) : Client :=
  match s.phase with
  | .looking job task =>
    match if readable then s.journal.get task.id else none with
    | some cached => { s with phase := .replaying job cached }
    -- a miss: never executed, pruned, or not readable
    | none => { s with phase := .handling job task, started := s.started ++ [task.id] }
  | _ => s

/-- `Dispatcher.handle` returns; what the handlers did depends on the node. -/
def handleReturns (s : Client) (handlers : String → Option (PyValue → Outcome)) : Client :=
  match s.phase with
  | .handling job task =>
    { s with phase := .recording job task (handle handlers task (.of s.now)) }
  | _ => s

/-- `record_result`. -/
def recordResult (s : Client) : Client :=
  match s.phase with
  | .recording job task result =>
    { s with
      phase := .emitting job result
      journal := s.journal.put task.id result s.now s.retainMs
      recorded := s.recorded ++ [⟨task.id, result, s.now⟩] }
  | _ => s

/-- The fresh or the replayed result goes into the outbox. -/
def emitResult (s : Client) : Client :=
  match s.phase with
  | .replaying job cached =>
    ({ s with phase := .acking job } : Client).enqueueOutbound (asCached cached)
  | .emitting job result => ({ s with phase := .acking job } : Client).enqueueOutbound result
  | _ => s

/-- `job.ack`. -/
def ackTask (s : Client) : Client :=
  match s.phase with
  | .dropping job | .acking job =>
    { s with tasks := s.tasks.ack job.id s.workerId, phase := .idle }
  | _ => s

/-- A call inside the `try` raises. What it was to do is not done, and a call of the handler that
has no row in the journal is cut off. -/
def raises (s : Client) : Client :=
  match s.phase with
  | .looking job _ | .replaying job _ | .emitting job _ | .acking job =>
    { s with phase := .retrying job }
  | .handling job task | .recording job task _ =>
    { s with phase := .retrying job, cutOff := s.cutOff ++ [task.id] }
  | _ => s

/-- `job.retry(30, …)`. -/
def retryTask (s : Client) (error : String) : Client :=
  match s.phase with
  | .retrying job =>
    ({ s with
      tasks := s.tasks.retry job.id s.workerId s.now (30 * 1000)
      phase := .idle } : Client).log .error "client" s!"task worker error: {error}"
  | _ => s

/-- The process ends and another one starts. -/
def restart (s : Client) (workerId : String) : Client :=
  { s with
    workerId := workerId
    phase := .idle
    sender := none
    cutOff := s.cutOff ++ s.phase.unrecorded.toList }

/-- `claim_outbound`. -/
def claimOutbound (s : Client) : Client :=
  match s.sender with
  | none =>
    match s.outbox.claimOne s.now s.workerId with
    | none => s
    | some (job, outbox) => { s with outbox := outbox, sender := some job }
  | some _ => s

/-- `ws.send`, and the `job.ack` after it where the process gets there. -/
def sendOutbound (s : Client) (acked : Bool) : Client :=
  match s.sender with
  | none => s
  | some job => { s with
      sent := s.sent ++ [job.payload]
      sender := none
      -- without the acknowledgement the frame is sent again
      outbox := if acked then s.outbox.ack job.id s.workerId else s.outbox }

/-- `ws.send` raises. -/
def sendFails (s : Client) : Client :=
  match s.sender with
  | none => s
  | some job => { s with sender := none, outbox := s.outbox.retry job.id s.workerId s.now 1000 }

/-- The other loops put logs, events and telemetry into the outbox. -/
def note (s : Client) (e : Emission) : Client :=
  match e with
  | .handled .. => s
  | e => s.enqueueOutbound e.frame

end Client

/-- What happens at the agent. -/
inductive AgentEvent where
  | receive (raw : Option PyValue)
  | claimTask
  | decode
  | cachedResult (readable : Bool)
  | handleReturns (handlers : String → Option (PyValue → Outcome))
  | recordResult
  | emitResult
  | ackTask
  | raises
  | retryTask (error : String)
  | restart (workerId : String)
  | claimOutbound
  | sendOutbound (acked : Bool)
  | sendFails
  | note (e : Emission)
  /-- Claims nobody acknowledged run out. -/
  | expireTasks (p : TaskJob → Bool)
  | expireOutbound (p : Job Frame → Bool)
  | elapse (ms : Nat)

def Client.step (s : Client) : AgentEvent → Client
  | .receive raw => s.receive raw
  | .claimTask => s.claimTask
  | .decode => s.decode
  | .cachedResult readable => s.cachedResult readable
  | .handleReturns handlers => s.handleReturns handlers
  | .recordResult => s.recordResult
  | .emitResult => s.emitResult
  | .ackTask => s.ackTask
  | .raises => s.raises
  | .retryTask error => s.retryTask error
  | .restart workerId => s.restart workerId
  | .claimOutbound => s.claimOutbound
  | .sendOutbound acked => s.sendOutbound acked
  | .sendFails => s.sendFails
  | .note e => s.note e
  | .expireTasks p => { s with tasks := s.tasks.expire p }
  | .expireOutbound p => { s with outbox := s.outbox.expire p }
  | .elapse ms => { s with now := s.now + ms }

/-! ## What one step does -/

/-- The frame of a result. -/
def IsResult (frame : Frame) : Prop := frame.lookup "type" = some (.str "result")

theorem handle_id (handlers : String → Option (PyValue → Outcome)) (task : Task) (ts : Moment) :
    (handle handlers task ts).lookup "id" = some (.str task.id) := by
  unfold handle
  split
  · rfl
  · split <;> rfl

/-- `{**frame, "cached": True}` changes no other key. -/
theorem lookup_asCached (frame : Frame) {key : String} (hkey : key ≠ "cached") :
    (asCached frame).lookup key = frame.lookup key := by
  induction frame with
  | nil => rfl
  | cons kv rest ih =>
      obtain ⟨k, v⟩ := kv
      by_cases hc : k = "cached"
      · have hk : (key == k) = false := by simpa [hc] using hkey
        simpa only [asCached, List.map_cons, if_pos hc, List.lookup_cons, hk] using ih
      · simp only [asCached, List.map_cons, if_neg hc, List.lookup_cons]
        cases key == k
        · exact ih
        · rfl

namespace Client

/-- The frames on their way: queued, held by the sender, sent, or about to be queued. -/
def outgoing (s : Client) : List Frame :=
  s.outbox.payloads ++ s.sender.toList.map Job.payload ++ s.sent ++ s.phase.emits.toList

theorem mem_outgoing {s : Client} {f : Frame} : f ∈ s.outgoing ↔
    f ∈ s.outbox.payloads ∨ (∃ job, s.sender = some job ∧ job.payload = f) ∨
      f ∈ s.sent ∨ s.phase.emits = some f := by
  simp [outgoing]

/-- Every task with a call of the handler that was not cut off, each as often as it had one. -/
def done (s : Client) : List String :=
  s.phase.unrecorded.toList ++ s.recorded.map JournalRow.taskUuid

/-- A step that starts no handler, records nothing and makes no new frame of a result. -/
structure Aside (s s' : Client) : Prop where
  started : s'.started = s.started
  recorded : s'.recorded = s.recorded
  journal : s'.journal = s.journal
  retainMs : s'.retainMs = s.retainMs
  now : s.now ≤ s'.now
  cutOff : s'.cutOff ++ s'.phase.unrecorded.toList = s.cutOff ++ s.phase.unrecorded.toList
  unrecorded : s'.phase.unrecorded = none ∨ s'.phase.unrecorded = s.phase.unrecorded
  recording : ∀ job task result, s'.phase = .recording job task result →
    s.phase = .recording job task result
  outgoing : ∀ frame ∈ s'.outgoing, IsResult frame → frame ∈ s.outgoing

theorem Aside.refl (s : Client) : Aside s s :=
  ⟨rfl, rfl, rfl, rfl, le_rfl, rfl, .inr rfl, fun _ _ _ h => h, fun _ h _ => h⟩

theorem Aside.trans {s s' s'' : Client} (h : Aside s s') (h' : Aside s' s'') : Aside s s'' where
  started := h'.started.trans h.started
  recorded := h'.recorded.trans h.recorded
  journal := h'.journal.trans h.journal
  retainMs := h'.retainMs.trans h.retainMs
  now := h.now.trans h'.now
  cutOff := h'.cutOff.trans h.cutOff
  unrecorded := by
    rcases h'.unrecorded with hu | hu
    · exact .inl hu
    · exact h.unrecorded.imp (hu.trans ·) (hu.trans ·)
  recording := fun job task result hp => h.recording _ _ _ (h'.recording job task result hp)
  outgoing := fun frame hf hr => h.outgoing frame (h'.outgoing frame hf hr) hr

/-- The worker moves between phases in which no handler was called. -/
theorem aside_phase (s : Client) (tasks : DurableQueue (Option Frame)) {p : Phase}
    (hs : s.phase.unrecorded = none) (hp : p.unrecorded = none) (he : p.emits = none) :
    Aside s { s with tasks := tasks, phase := p } where
  started := rfl
  recorded := rfl
  journal := rfl
  retainMs := rfl
  now := le_rfl
  cutOff := by simp only [hs, hp]
  unrecorded := .inl hp
  recording := by
    rintro job task result rfl
    exact absurd hp (by simp [Phase.unrecorded])
  outgoing := by
    intro frame hf _
    simp only [outgoing, he, Option.toList_none, List.append_nil] at hf
    exact List.mem_append_left _ hf

theorem aside_enqueue (s : Client) {frame : Frame} (hf : ¬ IsResult frame) :
    Aside s (s.enqueueOutbound frame) where
  started := rfl
  recorded := rfl
  journal := rfl
  retainMs := rfl
  now := le_rfl
  cutOff := rfl
  unrecorded := .inr rfl
  recording := fun _ _ _ h => h
  outgoing := by
    intro f hmem hres
    have hne : f ≠ frame := fun h => hf (h ▸ hres)
    simpa [outgoing, enqueueOutbound, hne] using hmem

theorem aside_log (s : Client) (level : Level) (source msg : String) :
    Aside s (s.log level source msg) :=
  s.aside_enqueue (by simp [IsResult, Emission.frame, logFrame])

theorem aside_receive (s : Client) (raw : Option PyValue) : Aside s (s.receive raw) := by
  unfold receive
  split
  · exact s.aside_log ..
  · split
    · split
      · refine Aside.trans ?_ (aside_enqueue _ (by simp [IsResult, receiptFrame]))
        exact ⟨rfl, rfl, rfl, rfl, le_rfl, rfl, .inr rfl, fun _ _ _ h => h, fun _ h _ => h⟩
      · exact s.aside_log ..
    · exact .refl s
  · exact s.aside_log ..

theorem aside_claimTask (s : Client) : Aside s s.claimTask := by
  unfold claimTask
  split
  case h_1 hp =>
    split
    · exact .refl s
    · exact s.aside_phase _ (by rw [hp]; rfl) rfl rfl
  case h_2 => exact .refl s

theorem aside_decode (s : Client) : Aside s s.decode := by
  unfold decode
  split
  case h_1 job hp =>
    have hnone : s.phase.unrecorded = none := by rw [hp]; rfl
    split
    · exact s.aside_phase s.tasks hnone rfl rfl
    · exact (s.aside_phase s.tasks (p := .dropping job) hnone rfl rfl).trans (aside_log ..)
  case h_2 => exact .refl s

/-- What the worker is about to queue is queued. -/
theorem aside_emit (s : Client) (job : TaskJob) {frame : Frame} (hs : s.phase.unrecorded = none)
    (he : s.phase.emits = some frame) :
    Aside s (({ s with phase := .acking job } : Client).enqueueOutbound frame) where
  started := rfl
  recorded := rfl
  journal := rfl
  retainMs := rfl
  now := le_rfl
  cutOff := by rw [hs]; rfl
  unrecorded := .inl rfl
  recording := nofun
  outgoing := by
    intro f hf _
    simp only [mem_outgoing, enqueueOutbound, DurableQueue.payloads_enqueue, List.mem_append,
      List.mem_singleton] at hf
    rw [mem_outgoing]
    rcases hf with (hf | rfl) | hf | hf | hf
    · exact .inl hf
    · exact .inr (.inr (.inr he))
    · exact .inr (.inl hf)
    · exact .inr (.inr (.inl hf))
    · exact absurd hf (by simp [Phase.emits])

theorem aside_emitResult (s : Client) : Aside s s.emitResult := by
  unfold emitResult
  split
  case h_1 job cached hp => exact s.aside_emit job (by rw [hp]; rfl) (by rw [hp]; rfl)
  case h_2 job result hp => exact s.aside_emit job (by rw [hp]; rfl) (by rw [hp]; rfl)
  case h_3 => exact .refl s

theorem aside_ackTask (s : Client) : Aside s s.ackTask := by
  unfold ackTask
  split
  case h_1 hp => exact s.aside_phase _ (by rw [hp]; rfl) rfl rfl
  case h_2 hp => exact s.aside_phase _ (by rw [hp]; rfl) rfl rfl
  case h_3 => exact .refl s

/-- The worker lets go of what it holds: a call without a row in the journal is cut off. -/
theorem aside_drop (s : Client) (workerId : String) (sender : Option (Job Frame)) {p : Phase}
    (hsender : ∀ job, sender = some job → s.sender = some job) (hp : p.unrecorded = none)
    (he : p.emits = none) :
    Aside s { s with
      workerId := workerId
      sender := sender
      phase := p
      cutOff := s.cutOff ++ s.phase.unrecorded.toList } where
  started := rfl
  recorded := rfl
  journal := rfl
  retainMs := rfl
  now := le_rfl
  cutOff := by simp only [hp, Option.toList_none, List.append_nil]
  unrecorded := .inl hp
  recording := by
    rintro job task result rfl
    exact absurd hp (by simp [Phase.unrecorded])
  outgoing := by
    intro f hf _
    rw [mem_outgoing] at hf ⊢
    rcases hf with hf | ⟨job, hf, hpay⟩ | hf | hf
    · exact .inl hf
    · exact .inr (.inl ⟨job, hsender job hf, hpay⟩)
    · exact .inr (.inr (.inl hf))
    · exact absurd hf (by simp [he])

theorem raises_eq (s : Client) : s.raises = s ∨ ∃ job, s.raises =
    { s with phase := .retrying job, cutOff := s.cutOff ++ s.phase.unrecorded.toList } := by
  unfold raises
  cases hp : s.phase with
  | idle | claimed | dropping | retrying => exact .inl rfl
  | looking job | replaying job | emitting job | acking job =>
      exact .inr ⟨job, by simp [Phase.unrecorded]⟩
  | handling job | recording job => exact .inr ⟨job, rfl⟩

theorem aside_raises (s : Client) : Aside s s.raises := by
  rcases s.raises_eq with h | ⟨job, h⟩
  · rw [h]
    exact .refl s
  · rw [h]
    exact s.aside_drop s.workerId s.sender (p := .retrying job) (fun _ h => h) rfl rfl

theorem aside_retryTask (s : Client) (error : String) : Aside s (s.retryTask error) := by
  unfold retryTask
  split
  case h_1 job hp =>
    exact (s.aside_phase _ (p := .idle) (by rw [hp]; rfl) rfl rfl).trans (aside_log ..)
  case h_2 => exact .refl s

theorem aside_restart (s : Client) (workerId : String) : Aside s (s.restart workerId) :=
  s.aside_drop workerId none (p := .idle) nofun rfl rfl

/-- The sender takes, sends or gives back what was on its way already. -/
theorem aside_sender (s : Client) (outbox : DurableQueue Frame) (sender : Option (Job Frame))
    (sent : List Frame) (hout : ∀ f ∈ outbox.payloads, f ∈ s.outgoing)
    (hsender : ∀ job, sender = some job → job.payload ∈ s.outgoing)
    (hsent : ∀ f ∈ sent, f ∈ s.outgoing) :
    Aside s { s with outbox := outbox, sender := sender, sent := sent } where
  started := rfl
  recorded := rfl
  journal := rfl
  retainMs := rfl
  now := le_rfl
  cutOff := rfl
  unrecorded := .inr rfl
  recording := fun _ _ _ h => h
  outgoing := by
    intro f hf _
    rcases mem_outgoing.mp hf with hf | ⟨job, hjob, rfl⟩ | hf | hf
    · exact hout f hf
    · exact hsender job hjob
    · exact hsent f hf
    · exact mem_outgoing.mpr (.inr (.inr (.inr hf)))

theorem aside_claimOutbound (s : Client) : Aside s s.claimOutbound := by
  unfold claimOutbound
  split
  · split
    · exact .refl s
    · rename_i job outbox hclaim
      have hpay := DurableQueue.payloads_claimOne hclaim
      have hjob := (DurableQueue.claimOne_eq_some hclaim).1
      refine s.aside_sender outbox (some job) s.sent ?_ ?_ ?_
      · exact fun f hf => mem_outgoing.mpr (.inl (hpay ▸ hf))
      · rintro _ ⟨⟩
        exact mem_outgoing.mpr (.inl (List.mem_map_of_mem hjob))
      · exact fun f hf => mem_outgoing.mpr (.inr (.inr (.inl hf)))
  · exact .refl s

theorem aside_sendOutbound (s : Client) (acked : Bool) : Aside s (s.sendOutbound acked) := by
  unfold sendOutbound
  split
  · exact .refl s
  · rename_i job hsender
    refine s.aside_sender _ none _ ?_ nofun ?_
    · intro f hf
      refine mem_outgoing.mpr (.inl ?_)
      cases acked
      · exact hf
      · exact DurableQueue.mem_payloads_ack hf
    · intro f hf
      rcases List.mem_append.mp hf with hf | hf
      · exact mem_outgoing.mpr (.inr (.inr (.inl hf)))
      · exact mem_outgoing.mpr (.inr (.inl ⟨job, hsender, (List.mem_singleton.mp hf).symm⟩))

theorem aside_sendFails (s : Client) : Aside s s.sendFails := by
  unfold sendFails
  split
  · exact .refl s
  · refine s.aside_sender _ none s.sent ?_ nofun ?_
    · exact fun f hf => mem_outgoing.mpr (.inl (by simpa using hf))
    · exact fun f hf => mem_outgoing.mpr (.inr (.inr (.inl hf)))

theorem aside_note (s : Client) (e : Emission) : Aside s (s.note e) := by
  cases e with
  | handled => exact .refl s
  | receipt => exact s.aside_enqueue (by simp [IsResult, Emission.frame, receiptFrame])
  | hello => exact s.aside_enqueue (by simp [IsResult, Emission.frame, helloFrame])
  | log => exact s.aside_enqueue (by simp [IsResult, Emission.frame, logFrame])
  | event => exact s.aside_enqueue (by simp [IsResult, Emission.frame, eventFrame])
  | telemetry => exact s.aside_enqueue (by simp [IsResult, Emission.frame, telemetryFrame])

/-! ## What is promised -/

/-- Every task that is looked up while it has a row is looked up within the retention. -/
def InRetention (s : Client) : Prop :=
  ∀ r ∈ s.recorded, s.phase.looksUp = some r.taskUuid → s.now ≤ r.createdAt + s.retainMs

instance (s : Client) : Decidable s.InRetention :=
  inferInstanceAs (Decidable (∀ r ∈ s.recorded, _ → _))

/-- The journal is readable, redeliveries are within the retention, and no process ends between
the return of a handler and its row. -/
def Promised (s : Client) : AgentEvent → Prop
  | .cachedResult readable => readable = true ∧ s.InRetention
  | .restart _ => s.phase.returned = false
  | _ => True

instance : ∀ (s : Client) (e : AgentEvent), Decidable (Promised s e)
  | s, .cachedResult readable => inferInstanceAs (Decidable (readable = true ∧ s.InRetention))
  | s, .restart _ => inferInstanceAs (Decidable (s.phase.returned = false))
  | _, .receive _ | _, .claimTask | _, .decode | _, .handleReturns _ | _, .recordResult
  | _, .emitResult | _, .ackTask | _, .raises | _, .retryTask _ | _, .claimOutbound
  | _, .sendOutbound _ | _, .sendFails | _, .note _ | _, .expireTasks _ | _, .expireOutbound _
  | _, .elapse _ => isTrue trivial

/-- Moreover `record_result` does not raise. -/
def Sound (s : Client) (e : AgentEvent) : Prop :=
  Promised s e ∧ (e matches .raises → s.phase.returned = false)

instance : ∀ (s : Client) (e : AgentEvent), Decidable (Sound s e) :=
  fun _ _ => inferInstanceAs (Decidable (_ ∧ (_ → _)))

/-! ## What holds in every state

A call of the handler is cut off, is waiting for its row, or has its row; no task has two of the
last two kinds, because a row that is still in the journal is found before the handler is called.
-/

structure Consistent (s : Client) : Prop where
  counted : ∀ id, s.started.count id = s.cutOff.count id + s.done.count id
  once : s.done.Nodup
  kept : ∀ r ∈ s.recorded, s.now ≤ r.createdAt + s.retainMs →
    s.journal.get r.taskUuid = some r.payload
  genuine : ∀ r ∈ s.journal, r ∈ s.recorded
  named : ∀ r ∈ s.recorded, r.payload.lookup "id" = some (.str r.taskUuid)
  returned : ∀ job task result, s.phase = .recording job task result →
    result.lookup "id" = some (.str task.id)
  results : ∀ f ∈ s.outgoing, IsResult f →
    ∃ r ∈ s.recorded, f = r.payload ∨ f = asCached r.payload

theorem consistent_fresh (nodeName workerId : String) (retainDays : Nat) :
    Consistent (fresh nodeName workerId retainDays) where
  counted := fun _ => rfl
  once := List.nodup_nil
  kept := nofun
  genuine := nofun
  named := nofun
  returned := nofun
  results := nofun

theorem Consistent.aside {s s' : Client} (hs : Consistent s) (h : Aside s s') :
    Consistent s' where
  counted := by
    intro id
    -- a call that is cut off moves from the phase to `cutOff`: the two together stay the same
    have hcut := congrArg (List.count id) h.cutOff
    have hcount := hs.counted id
    simp only [List.count_append] at hcut
    simp only [done, List.count_append, h.started, h.recorded] at hcount ⊢
    omega
  once := by
    have hnodup := hs.once
    rw [done, h.recorded]
    rcases h.unrecorded with hu | hu
    · rw [hu]
      exact hnodup.sublist (List.sublist_append_right ..)
    · rw [hu]
      exact hnodup
  kept := by
    intro r hr hnow
    rw [h.recorded] at hr
    rw [h.journal]
    have := h.now
    exact hs.kept r hr (by rw [h.retainMs] at hnow; omega)
  genuine := by
    rw [h.journal, h.recorded]
    exact hs.genuine
  named := by
    rw [h.recorded]
    exact hs.named
  returned := fun job task result hp => hs.returned job task result (h.recording _ _ _ hp)
  results := by
    rw [h.recorded]
    exact fun f hf hr => hs.results f (h.outgoing f hf hr) hr

theorem Consistent.handleReturns {s : Client} (hs : Consistent s)
    (handlers : String → Option (PyValue → Outcome)) : Consistent (s.handleReturns handlers) := by
  unfold Client.handleReturns
  split
  case h_2 => exact hs
  case h_1 job task hp =>
    have hdone : s.done = task.id :: s.recorded.map JournalRow.taskUuid := by
      simp [done, hp, Phase.unrecorded]
    have hcount := hs.counted
    have honce := hs.once
    rw [hdone] at hcount honce
    refine ⟨hcount, honce, hs.kept, hs.genuine, hs.named, ?_, ?_⟩
    · rintro _ _ _ ⟨⟩
      exact handle_id handlers task _
    · intro f hf hr
      refine hs.results f ?_ hr
      rw [mem_outgoing] at hf ⊢
      exact hf.imp_right (Or.imp_right (Or.imp_right nofun))

theorem Consistent.unique {s : Client} (hs : Consistent s) {r r' : JournalRow}
    (hr : r ∈ s.recorded) (hr' : r' ∈ s.recorded) (hid : r.taskUuid = r'.taskUuid) : r = r' :=
  List.inj_on_of_nodup_map (hs.once.sublist (List.sublist_append_right ..)) hr hr' hid

/-- The result is written: the task has its row, and the journal finds it. -/
theorem Consistent.recordResult {s : Client} (hs : Consistent s) :
    Consistent s.recordResult := by
  unfold Client.recordResult
  split
  case h_2 => exact hs
  case h_1 job task result hp =>
    have hdone : s.done = task.id :: s.recorded.map JournalRow.taskUuid := by
      simp [done, hp, Phase.unrecorded]
    have hnew : ∀ r ∈ s.recorded, r.taskUuid ≠ task.id := by
      intro r hr hid
      have honce := hs.once
      rw [hdone, List.nodup_cons] at honce
      exact honce.1 (hid ▸ List.mem_map_of_mem hr)
    have hid := hs.returned job task result hp
    refine ⟨?_, ?_, ?_, ?_, ?_, nofun, ?_⟩
    · intro id
      have hcount := hs.counted id
      rw [hdone] at hcount
      simp only [done, Phase.unrecorded, Option.toList_none, List.nil_append, List.map_append,
        List.map_cons, List.map_nil, List.count_append, List.count_cons, List.count_nil]
        at hcount ⊢
      omega
    · have honce := hs.once
      rw [hdone] at honce
      simp only [done, Phase.unrecorded, Option.toList_none, List.nil_append, List.map_append,
        List.map_cons, List.map_nil]
      exact (List.nodup_append_comm.mp honce)
    · intro r hr hnow
      rcases List.mem_append.mp hr with hr | hr
      · rw [TaskJournal.get_put_of_ne (hnew r hr)]
        · exact hs.kept r hr hnow
        · intro r' hr' hid'
          -- a row of another task is deleted only when it is older than the retention
          rw [hs.unique (hs.genuine r' hr') hr hid']
          exact hnow
      · rw [List.mem_singleton.mp hr, TaskJournal.get_put]
    · intro r hr
      rcases TaskJournal.mem_put hr with hr | rfl
      · exact List.mem_append_left _ (hs.genuine r hr)
      · exact List.mem_append_right _ (List.mem_singleton.mpr rfl)
    · intro r hr
      rcases List.mem_append.mp hr with hr | hr
      · exact hs.named r hr
      · rw [List.mem_singleton.mp hr]
        exact hid
    · intro f hf hr
      by_cases hout : f ∈ s.outgoing
      · obtain ⟨r, hmem, hf⟩ := hs.results f hout hr
        exact ⟨r, List.mem_append_left _ hmem, hf⟩
      · rw [mem_outgoing] at hf hout
        have hf : f = result := by
          rcases hf with hf | hf | hf | hf
          · exact absurd (.inl hf) hout
          · exact absurd (.inr (.inl hf)) hout
          · exact absurd (.inr (.inr (.inl hf))) hout
          · exact (Option.some.inj hf).symm
        exact ⟨_, List.mem_append_right _ (List.mem_singleton.mpr rfl), .inl hf⟩

/-- The worker found the row of the task, or calls the handler of a task that has none. -/
theorem Consistent.cachedResult {s : Client} (hs : Consistent s) (hret : s.InRetention) :
    Consistent (s.cachedResult true) := by
  unfold Client.cachedResult
  split
  case h_2 => exact hs
  case h_1 job task hp =>
    have hdone : s.done = s.recorded.map JournalRow.taskUuid := by
      simp [done, hp, Phase.unrecorded]
    rw [if_pos rfl]
    split
    case h_1 cached hget =>
      refine ⟨?_, ?_, hs.kept, hs.genuine, hs.named, nofun, ?_⟩
      · have hcount := hs.counted
        rwa [hdone] at hcount
      · have honce := hs.once
        rwa [hdone] at honce
      · intro f hf hr
        rcases mem_outgoing.mp hf with hf | hf | hf | hf
        · exact hs.results f (mem_outgoing.mpr (.inl hf)) hr
        · exact hs.results f (mem_outgoing.mpr (.inr (.inl hf))) hr
        · exact hs.results f (mem_outgoing.mpr (.inr (.inr (.inl hf)))) hr
        · obtain ⟨r, hr, -, rfl⟩ := TaskJournal.mem_of_get hget
          exact ⟨r, hs.genuine r hr, .inr (Option.some.inj hf).symm⟩
    case h_2 hget =>
      have hnew : task.id ∉ s.recorded.map JournalRow.taskUuid := by
        intro hmem
        -- a row of the task is younger than the retention, so the journal still has it
        obtain ⟨r, hr, hid⟩ := List.mem_map.mp hmem
        have hrow := hs.kept r hr (hret r hr (by simp [hp, Phase.looksUp, hid]))
        rw [hid, hget] at hrow
        exact absurd hrow nofun
      refine ⟨?_, ?_, hs.kept, hs.genuine, hs.named, nofun, ?_⟩
      · intro id
        have hcount := hs.counted id
        rw [hdone] at hcount
        simp only [done, Phase.unrecorded, Option.toList_some, List.count_append,
          List.singleton_append, List.count_cons, List.count_nil] at hcount ⊢
        omega
      · have honce := hs.once
        rw [hdone] at honce
        exact List.nodup_cons.mpr ⟨hnew, honce⟩
      · intro f hf hr
        refine hs.results f ?_ hr
        rw [mem_outgoing] at hf ⊢
        exact hf.imp_right (Or.imp_right (Or.imp_right nofun))

/-- **Step lemma.** -/
theorem Consistent.step {s : Client} (hs : Consistent s) (e : AgentEvent) (he : Sound s e) :
    Consistent (s.step e) := by
  cases e with
  | cachedResult readable =>
      obtain ⟨rfl, hret⟩ := he.1
      exact hs.cachedResult hret
  | handleReturns handlers => exact hs.handleReturns handlers
  | recordResult => exact hs.recordResult
  | receive raw => exact hs.aside (s.aside_receive raw)
  | claimTask => exact hs.aside s.aside_claimTask
  | decode => exact hs.aside s.aside_decode
  | emitResult => exact hs.aside s.aside_emitResult
  | ackTask => exact hs.aside s.aside_ackTask
  | raises => exact hs.aside s.aside_raises
  | retryTask error => exact hs.aside (s.aside_retryTask error)
  | restart workerId => exact hs.aside (s.aside_restart workerId)
  | claimOutbound => exact hs.aside s.aside_claimOutbound
  | sendOutbound acked => exact hs.aside (s.aside_sendOutbound acked)
  | sendFails => exact hs.aside s.aside_sendFails
  | note e => exact hs.aside (s.aside_note e)
  | expireTasks p =>
      exact hs.aside
        ⟨rfl, rfl, rfl, rfl, le_rfl, rfl, .inr rfl, fun _ _ _ h => h, fun _ h _ => h⟩
  | expireOutbound p =>
      refine hs.aside (s.aside_sender (s.outbox.expire p) s.sender s.sent ?_ ?_ ?_)
      · exact fun f hf => mem_outgoing.mpr (.inl (by simpa using hf))
      · exact fun job hjob => mem_outgoing.mpr (.inr (.inl ⟨job, hjob, rfl⟩))
      · exact fun f hf => mem_outgoing.mpr (.inr (.inr (.inl hf)))
  | elapse ms =>
      exact hs.aside ⟨rfl, rfl, rfl, rfl, Nat.le_add_right .., rfl, .inr rfl, fun _ _ _ h => h,
        fun _ h _ => h⟩

/-- What two frames of one task's result have in common. -/
def SameReport (f g : Frame) : Prop :=
  ∀ key ∈ ["ok", "result", "error", "logs"], f.lookup key = g.lookup key

theorem sameReport_asCached (f : Frame) : SameReport (asCached f) f := by
  intro key hkey
  refine lookup_asCached f ?_
  rintro rfl
  simp at hkey

theorem SameReport.symm {f g : Frame} (h : SameReport f g) : SameReport g f :=
  fun key hkey => (h key hkey).symm

theorem SameReport.trans {f g h : Frame} (hfg : SameReport f g) (hgh : SameReport g h) :
    SameReport f h :=
  fun key hkey => (hfg key hkey).trans (hgh key hkey)

/-- A frame of a result that was sent reports what the row of its task does. -/
theorem Consistent.sent_row {s : Client} (hs : Consistent s) {f : Frame} {id : String}
    (hf : f ∈ s.sent) (hr : IsResult f) (hid : f.lookup "id" = some (.str id)) :
    ∃ r ∈ s.recorded, r.taskUuid = id ∧ SameReport f r.payload := by
  obtain ⟨r, hmem, hf⟩ := hs.results f (mem_outgoing.mpr (.inr (.inr (.inl hf)))) hr
  have hlookup : f.lookup "id" = r.payload.lookup "id" := by
    rcases hf with rfl | rfl
    · rfl
    · exact lookup_asCached r.payload (by decide)
  have hname : PyValue.str id = .str r.taskUuid := by
    rw [hlookup, hs.named r hmem] at hid
    exact (Option.some.inj hid).symm
  refine ⟨r, hmem, (PyValue.str.inj hname).symm, ?_⟩
  rcases hf with rfl | rfl
  · exact fun _ _ => rfl
  · exact sameReport_asCached r.payload

end Client

/-- A task as the controller sends it. -/
def checkTask : PyValue :=
  .dict [("type", .str "task"), ("id", .str "t1"), ("action", .str "node.check")]

/-- A task is delivered twice: the handler runs, and the duplicate is answered from the journal. -/
def deliveredTwice : List AgentEvent :=
  [.receive (some checkTask), .receive (some checkTask),
    .claimTask, .decode, .cachedResult true, .handleReturns fun _ => none, .recordResult,
    .emitResult, .ackTask,
    .claimTask, .decode, .cachedResult true, .emitResult, .ackTask]

/-- The process ends while the handler of a task runs, and its job is handed out again. -/
def restartedTwice : List AgentEvent :=
  [.receive (some checkTask), .claimTask, .decode, .cachedResult true,
    .restart "agent-2", .expireTasks fun _ => true, .claimTask, .decode, .cachedResult true]

/-- `record_result` raises, and the job is retried. -/
def retriedTwice : List AgentEvent :=
  [.receive (some checkTask), .claimTask, .decode, .cachedResult true,
    .handleReturns fun _ => none, .raises, .retryTask "disk I/O error", .elapse 30000,
    .claimTask, .decode, .cachedResult true]

end MassDeployment.Agent
