import MassDeployment.Controller.State

set_option autoImplicit false

/-! # The durable task queue (`queue.ts`)

One honker queue per node, and the mirror of every task in `task_log`. The queue carries the
full frame; the log carries a redacted copy of the parameters.
-/

namespace MassDeployment

open Js

/-! ## Enqueueing -/

/-- The frame `enqueueTask` builds. -/
def Controller.nextFrame (s : Controller) (action : Action) (params : Params)
    (requestedBy : Option String) : TaskFrame :=
  { id := s.host.uuid s.draws, action, params, requestedBy, ts := s.now }

/-- The state with a frame in a node's queue and its task id drawn. -/
def Controller.withJob (s : Controller) (node : String) (frame : TaskFrame) : Controller :=
  { s with
    draws := s.draws + 1
    queues := fun n => if n = node then (s.queues node).enqueue (.sealed frame) else s.queues n }

/-- The row `enqueueTask` inserts. -/
def TaskFrame.row (frame : TaskFrame) (node : String) (jobId now id : Nat) : TaskRow :=
  { id, taskUuid := frame.id, jobId, node, action := frame.action
    params := .text (redactSecrets (.obj frame.params)), requestedBy := frame.requestedBy
    state := .queued, createdAt := now, updatedAt := now }

/-- What is read back from the log when the result of a task arrives. -/
def readBack : List String := ["lab", "username", "removal_id", "cold_cleanup_nodes"]

/-- The log says what is read back as the task does. -/
def Legible (params : Params) : Prop :=
  ∀ k ∈ readBack, (redactFields params).lookup k = params.lookup k

/-- Enqueue a task for a node. The frame gets the next random task id; the job is in the
queue before the row is in the log. -/
def enqueueTask (node : String) (action : Action) (params : Params) (requestedBy : Option String) :
    Op TaskFrame where
  run s :=
    match s.db.taskLog.insert
      ((s.nextFrame action params requestedBy).row node ((s.queues node).seq + 1) s.now)
      fun _ => rfl with
    | some T =>
      (.ok (s.nextFrame action params requestedBy),
        { s.withJob node (s.nextFrame action params requestedBy) with
          db := { s.db with taskLog := T }
          issued := (node, s.nextFrame action params requestedBy) :: s.issued })
    | none =>
      (.error (.sqliteError "UNIQUE constraint failed: task_log.task_uuid"),
        s.withJob node (s.nextFrame action params requestedBy))
  keeps s := by
    split
    · rename_i T hT
      obtain ⟨hrows, hseq⟩ := Table.insert_eq_some hT
      exact { Controller.Evolves.refl s with
        draws := Nat.le_succ _
        taskLog := .of_insert hT
        issued := by
          refine ⟨[(node, s.nextFrame action params requestedBy)], rfl, ?_, fun t ht hlt => ?_⟩
          · intro x hx
            rw [List.mem_singleton.mp hx]
            exact ⟨s.draws, le_rfl, Nat.lt_succ_self _, rfl⟩
          · replace ht : t ∈ T.rows := ht
            rw [hrows] at ht
            rcases List.mem_append.mp ht with ht | ht
            · exact absurd (s.db.taskLog.bounded t ht) (Nat.not_le.mpr hlt)
            · rw [List.mem_singleton.mp ht]
              exact ⟨_, List.mem_singleton_self _, rfl, rfl, rfl⟩ }
    · exact { Controller.Evolves.refl s with
        draws := Nat.le_succ _
        issued := Controller.Evolves.issued_none rfl rfl }

/-- What `enqueueTask` does: the frame is issued and its row is in the log, or the row was
refused and only the queue has the job. -/
theorem enqueueTask_run (node : String) (action : Action) (params : Params)
    (requestedBy : Option String) (s : Controller) :
    (∃ T s',
      s.db.taskLog.insert
        ((s.nextFrame action params requestedBy).row node ((s.queues node).seq + 1) s.now)
        (fun _ => rfl) = some T ∧
      (enqueueTask node action params requestedBy).run s =
        (.ok (s.nextFrame action params requestedBy), s') ∧
      s'.db = { s.db with taskLog := T } ∧ s'.host = s.host ∧ s'.draws = s.draws + 1 ∧
      s'.issued = (node, s.nextFrame action params requestedBy) :: s.issued ∧
      s'.trace = s.trace) ∨
    ∃ e s',
      s.db.taskLog.insert
        ((s.nextFrame action params requestedBy).row node ((s.queues node).seq + 1) s.now)
        (fun _ => rfl) = none ∧
      (enqueueTask node action params requestedBy).run s = (.error e, s') ∧
      s'.db = s.db ∧ s'.issued = s.issued := by
  simp only [enqueueTask]
  split
  · exact .inl ⟨_, _, ‹_›, rfl, rfl, rfl, rfl, rfl, rfl⟩
  · exact .inr ⟨_, _, ‹_›, rfl, rfl, rfl⟩

/-! ## The mirror in `task_log` -/

/-- `UPDATE task_log … WHERE p`. -/
def updateTasks (p : TaskRow → Bool) (f : TaskRow → TaskRow) (h : Row.Keeps p f) : Op Unit :=
  .write (fun s => { s with db := { s.db with taskLog := s.db.taskLog.update p f h } }) fun s =>
    { Controller.Evolves.refl s with
      taskLog := .of_update _ p f h
      issued := Controller.Evolves.issued_none rfl rfl }

/-- `DELETE FROM task_log WHERE p`. -/
def deleteTasks (p : TaskRow → Bool) : Op Unit :=
  .write (fun s => { s with db := { s.db with taskLog := s.db.taskLog.delete p } }) fun s =>
    { Controller.Evolves.refl s with
      taskLog := .of_delete _ p
      issued := Controller.Evolves.issued_none rfl rfl }

/-- A single task's full record. -/
def Db.getTask (d : Db) (taskUuid : String) : Option TaskRow :=
  d.taskLog.find fun t => t.taskUuid == taskUuid

/-- The states `markTaskState` is called with. -/
inductive Mark where
  | sent
  | done (ok : Bool)
  deriving DecidableEq, Repr

def Mark.state : Mark → TaskState
  | .sent => .sent
  | .done true => .ok
  | .done false => .failed

/-- A row `markTaskState` may change: bound to the node, not yet in a terminal state. -/
def TaskRow.openFor (node taskUuid : String) (t : TaskRow) : Bool :=
  t.taskUuid == taskUuid && t.node == node && !t.state.terminal

/-- What `markTaskState` writes. -/
def TaskRow.marked (m : Mark) (result : Value) (error : Option String) (cached : Bool)
    (now : Nat) (t : TaskRow) : TaskRow :=
  { t with
    state := m.state, result := stringify result, error := error, resultCached := cached
    updatedAt := now }

theorem TaskRow.marked_grows (m : Mark) (result : Value) (error : Option String) (cached : Bool)
    (now : Nat) {t : TaskRow} (ht : t.state.terminal = false) :
    t.Grows (t.marked m result error cached now) where
  id := rfl
  taskUuid := rfl
  node := rfl
  action := rfl
  params := rfl
  requestedBy := rfl
  forward := by
    rcases m with _ | _ | _ <;> cases hs : t.state <;>
      simp_all [marked, Mark.state, TaskState.rank, TaskState.terminal]
  final h := by simp [ht] at h

theorem keeps_marked (node taskUuid : String) (m : Mark) (result : Value) (error : Option String)
    (cached : Bool) (now : Nat) :
    Row.Keeps (TaskRow.openFor node taskUuid) (TaskRow.marked m result error cached now) where
  grows t ht := by
    simp only [TaskRow.openFor, Bool.and_eq_true, Bool.not_eq_true'] at ht
    exact TaskRow.marked_grows m result error cached now ht.2
  clash _ _ h := h

/-- Update a task's lifecycle state, bound to the node the task was queued for; returns
whether a row matched. -/
def markTaskState (node taskUuid : String) (m : Mark) (result : Value) (error : Option String)
    (cached : Bool) : Op Bool := do
  let now ← Op.now
  let changed ← Op.query fun d => d.taskLog.rows.any (TaskRow.openFor node taskUuid)
  updateTasks (TaskRow.openFor node taskUuid) (TaskRow.marked m result error cached now)
    (keeps_marked ..)
  return changed

theorem TaskRow.grows_bookkeeping (t : TaskRow) (receivedAt : Option Nat) (attempts : Nat) :
    t.Grows { t with receivedAt := receivedAt, attempts := attempts } :=
  ⟨rfl, rfl, rfl, rfl, rfl, rfl, .inl rfl, fun _ => ⟨rfl, rfl, rfl, rfl⟩⟩

/-- Record the agent's durable receipt of a pushed task, once. -/
def markTaskReceived (node taskUuid : String) : Op Unit := do
  let now ← Op.now
  updateTasks
    (fun t => t.taskUuid == taskUuid && t.node == node && t.receivedAt.isNone)
    (fun t => { t with receivedAt := some now })
    ⟨fun t _ => t.grows_bookkeeping _ _, fun _ _ h => h⟩

/-- Count a (re)send of a task. -/
def bumpAttempts (node taskUuid : String) : Op Unit :=
  updateTasks (fun t => t.taskUuid == taskUuid && t.node == node)
    (fun t => { t with attempts := t.attempts + 1 })
    ⟨fun t _ => t.grows_bookkeeping _ _, fun _ _ h => h⟩

/-! ## The consumer's side of the queue -/

/-- Decode a job payload; throws where it no longer decrypts or parses. -/
def decodeFrame : Payload → Except Error TaskFrame
  | .sealed frame => .ok frame
  | .unreadable message => .error (.error message)

/-- Write the queue of one node. -/
def writeQueue (node : String) (f : DurableQueue Payload → DurableQueue Payload) : Op Unit :=
  .write (fun s => { s with queues := fun n => if n = node then f (s.queues node) else s.queues n })
    fun s => { Controller.Evolves.refl s with }

/-- Claim the next pending task for a node. -/
def claimTask (node workerId : String) : Op (Option (Nat × TaskFrame)) := do
  let claimed ← .read fun s => (s.queues node).claimOne s.now workerId
  match claimed with
  | none => return none
  | some (job, queue) =>
    writeQueue node fun _ => queue
    let frame ← Op.lift (decodeFrame job.payload)
    return some (job.id, frame)

def ackTask (node : String) (jobId : Nat) (workerId : String) : Op Unit :=
  writeQueue node fun q => q.ack jobId workerId

/-- Give a claimed job back for five seconds. -/
def retryTask (node : String) (jobId : Nat) (workerId : String) : Op Unit := do
  let now ← Op.now
  writeQueue node fun q => q.retry jobId workerId now 5000

end MassDeployment
