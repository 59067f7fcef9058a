import Mathlib.Data.List.Nodup
import MassDeployment.Lib.DurableQueue
import MassDeployment.Lib.JsValue

set_option autoImplicit false

/-! # Jobs that cannot be decoded (`hub.ts`, `queue.ts`)

A job of a node's queue is an encrypted text, and the queue outlives the secret it was encrypted
with. Here the payloads are arbitrary values, and the tick of `drainNode` is followed through
claiming, decoding, sending and bookkeeping, with every place where it may throw. Only part of the
loop's body stands in its `try` block: what `claimTask` throws leaves the timer's callback.
-/

namespace MassDeployment

open Js

/-! ## The tick -/

/-- `decryptSecret` and `JSON.parse`. -/
structure FrameCodec where
  decryptSecret : String → String
  parse : String → Except Error Json

/-- A node's queue, with what the tick has sent and whose tasks it has marked as sent. -/
structure NodeQueue where
  jobs : DurableQueue Json
  sent : List Json := []
  marked : List (List SqlValue) := []

/-- Decode a job payload; a payload without an envelope is taken as it is. -/
def FrameCodec.decodeFrame (c : FrameCodec) (payload : Json) : Except Error Json :=
  match Value.asString (Value.field "_enc" payload) with
  | some enc => c.parse (c.decryptSecret enc)
  | none => .ok payload

namespace NodeQueue

variable (c : FrameCodec) (node workerId : String) (now : Nat)

/-- Claim the next pending task for a node. -/
def claimTask (q : NodeQueue) : Except Error (Option (Nat × Json)) × NodeQueue :=
  match q.jobs.claimOne now workerId with
  | none => (.ok none, q)
  | some (job, jobs) =>
    match c.decodeFrame job.payload with
    | .error e => (.error e, { q with jobs })
    | .ok frame => (.ok (some (job.id, frame)), { q with jobs })

def ackTask (jobId : Nat) (q : NodeQueue) : NodeQueue :=
  { q with jobs := q.jobs.ack jobId workerId }

/-- Give a claimed job back for five seconds. -/
def retryTask (jobId : Nat) (q : NodeQueue) : NodeQueue :=
  { q with jobs := q.jobs.retry jobId workerId now 5000 }

/-- The bookkeeping of a frame that was sent, `markTaskState` and `bumpAttempts`: what their
statements are bound to. It throws where the frame is `null` or its id is no parameter. -/
def bookkeeping (frame : Json) : Except Error (List SqlValue) := do
  let id ← Value.get (some frame) "id"
  let marked ← bindAll 7 [some (.str "sent"), some .null, some .null, some (.num 0),
    some (.num now), id, some (.str node)]
  let _ ← bindAll 2 [id, some (.str node)]
  return marked

/-- The `try` block; `sent` tells whether `ws.send` returned. -/
def pushFrame (jobId : Nat) (frame : Json) (sent : Bool) (q : NodeQueue) :
    Except Error Unit × NodeQueue :=
  if sent then
    let q := ackTask workerId jobId { q with sent := q.sent ++ [frame] }
    match bookkeeping node now frame with
    | .error e => (.error e, q)
    | .ok marked => (.ok (), { q with marked := q.marked ++ [marked] })
  else (.error (.error "send failed"), q)

/-- One round of the loop; returns whether there is another one. -/
def drainOne (sent : Bool) (q : NodeQueue) : Except Error Bool × NodeQueue :=
  match claimTask c workerId now q with
  | (.error e, q) => (.error e, q)
  | (.ok none, q) => (.ok false, q)
  | (.ok (some (jobId, frame)), q) =>
    match pushFrame node workerId now jobId frame sent q with
    | (.ok _, q) => (.ok true, q)
    | (.error _, q) => (.ok false, retryTask workerId now jobId q)

def drainBatch : List Bool → NodeQueue → Except Error Unit × NodeQueue
  | [], q => (.ok (), q)
  | sent :: rest, q =>
    match drainOne c node workerId now sent q with
    | (.error e, q) => (.error e, q)
    | (.ok true, q) => drainBatch rest q
    | (.ok false, q) => (.ok (), q)

/-- A tick of `drainNode` behind its guards: twenty rounds at most. -/
def drainTick (sends : ℕ → Bool) (jobs : DurableQueue Json) : Except Error Unit × NodeQueue :=
  drainBatch c node workerId now ((List.range 20).map sends) { jobs }

/-! ## What a round does to the rows -/

/-- The first job a worker may claim. -/
def next (rows : List (Job Json)) : Option (Job Json) := rows.find? (DurableQueue.ready now)

/-- The rows with a job claimed by the worker. -/
def held (job : Job Json) (rows : List (Job Json)) : List (Job Json) :=
  rows.map fun r => if r.id == job.id then { r with worker := some workerId } else r

/-- The rows without a job. -/
def without (job : Job Json) (rows : List (Job Json)) : List (Job Json) :=
  rows.filter fun r => !(r.id == job.id)

/-- The rows with a job given back. -/
def givenBack (job : Job Json) (rows : List (Job Json)) : List (Job Json) :=
  rows.map fun r => if r.id == job.id then { r with worker := none, notBefore := now + 5000 } else r

variable {c node workerId now}

theorem claimTask_none {q : NodeQueue} (h : next now q.jobs.rows = none) :
    claimTask c workerId now q = (.ok none, q) := by
  have hclaim : q.jobs.claimOne now workerId = none := by
    rw [DurableQueue.claimOne, Table.find]
    exact Option.map_eq_none_iff.mpr h
  rw [claimTask, hclaim]

variable (c workerId) in
/-- The first job that is ready is claimed, and decoded. -/
theorem claimTask_some {q : NodeQueue} {job : Job Json} (h : next now q.jobs.rows = some job) :
    ∃ jobs, jobs.rows = held workerId job q.jobs.rows ∧
      claimTask c workerId now q =
        match c.decodeFrame job.payload with
        | .error e => (.error e, { q with jobs })
        | .ok frame => (.ok (some (job.id, frame)), { q with jobs }) := by
  obtain ⟨jobs, hclaim⟩ : ∃ jobs, q.jobs.claimOne now workerId = some (job, jobs) := by
    unfold DurableQueue.claimOne Table.find
    unfold next at h
    rw [h]
    exact ⟨_, rfl⟩
  refine ⟨jobs, (DurableQueue.claimOne_eq_some hclaim).2.2.1, ?_⟩
  rw [claimTask, hclaim]

/-- Acknowledged, a claimed job is gone. -/
theorem ack_held {jobs : DurableQueue Json} {rows : List (Job Json)} {job : Job Json}
    (h : jobs.rows = held workerId job rows) :
    (jobs.ack job.id workerId).rows = without job rows := by
  have hack : (jobs.ack job.id workerId).rows =
      jobs.rows.filter fun r => !(r.id == job.id && r.worker == some workerId) := rfl
  rw [hack, h, held, without]
  clear hack h
  induction rows with
  | nil => rfl
  | cons r rows ih =>
      rw [List.map_cons]
      cases hid : r.id == job.id with
      | true =>
          rw [if_pos rfl, List.filter_cons_of_neg (by simp [hid]),
            List.filter_cons_of_neg (by simp [hid])]
          exact ih
      | false =>
          rw [if_neg Bool.false_ne_true, List.filter_cons_of_pos (by simp [hid]),
            List.filter_cons_of_pos (by simp [hid]), ih]

/-- Given back, a claimed job waits for five seconds. -/
theorem retry_held {jobs : DurableQueue Json} {rows : List (Job Json)} {job : Job Json}
    (h : jobs.rows = held workerId job rows) :
    (jobs.retry job.id workerId now 5000).rows = givenBack now job rows := by
  have hretry : (jobs.retry job.id workerId now 5000).rows = jobs.rows.map fun r =>
      if r.id == job.id && r.worker == some workerId then
        { r with worker := none, notBefore := now + 5000 } else r := rfl
  rw [hretry, h, held, givenBack, List.map_map]
  apply List.map_congr_left
  intro r _
  simp only [Function.comp]
  cases hid : r.id == job.id with
  | true => simp [hid]
  | false => simp [hid]

/-- A job that is gone is not given back. -/
theorem retry_without {jobs : DurableQueue Json} {rows : List (Job Json)} {job : Job Json}
    (h : jobs.rows = without job rows) :
    (jobs.retry job.id workerId now 5000).rows = without job rows := by
  have hretry : (jobs.retry job.id workerId now 5000).rows = jobs.rows.map fun r =>
      if r.id == job.id && r.worker == some workerId then
        { r with worker := none, notBefore := now + 5000 } else r := rfl
  have hother : ∀ r ∈ without job rows, (r.id == job.id) = false := by
    intro r hr
    simpa using (List.mem_filter.mp hr).2
  rw [hretry, h]
  apply (List.map_congr_left fun r hr => ?_).trans (List.map_id _)
  rw [hother r hr]
  rfl

/-! ## The tick on the rows -/

/-- The bookkeeping of the frame does not throw. -/
def Marked (node : String) (now : Nat) (frame : Json) : Bool :=
  match bookkeeping node now frame with
  | .ok _ => true
  | .error _ => false

/-- The rows a tick leaves and the frames it sends, up to a job that cannot be decoded. -/
def drained (c : FrameCodec) (node : String) (now : Nat) :
    List Bool → List (Job Json) → List (Job Json) × List Json
  | [], rows => (rows, [])
  | sent :: rest, rows =>
    match next now rows with
    | none => (rows, [])
    | some job =>
      match c.decodeFrame job.payload with
      | .error _ => (rows, [])
      | .ok frame =>
        if sent then
          if Marked node now frame then
            let (rows, frames) := drained c node now rest (without job rows)
            (rows, frame :: frames)
          else (without job rows, [frame])
        else (givenBack now job rows, [])

section Drained

variable {rows : List (Job Json)} {job : Job Json} {frame : Json} (rest : List Bool)

theorem drained_none (sent : Bool) (h : next now rows = none) :
    drained c node now (sent :: rest) rows = (rows, []) := by
  rw [drained, h]

theorem drained_failed (h : next now rows = some job)
    (hdecode : c.decodeFrame job.payload = .ok frame) :
    drained c node now (false :: rest) rows = (givenBack now job rows, []) := by
  simp [drained, h, hdecode]

theorem drained_unmarked (h : next now rows = some job)
    (hdecode : c.decodeFrame job.payload = .ok frame) (hmarked : Marked node now frame = false) :
    drained c node now (true :: rest) rows = (without job rows, [frame]) := by
  simp [drained, h, hdecode, hmarked]

theorem drained_marked (h : next now rows = some job)
    (hdecode : c.decodeFrame job.payload = .ok frame) (hmarked : Marked node now frame = true) :
    drained c node now (true :: rest) rows =
      ((drained c node now rest (without job rows)).1,
        frame :: (drained c node now rest (without job rows)).2) := by
  simp [drained, h, hdecode, hmarked]

end Drained

/-- Every job the tick comes to can be decoded. The payloads are those of the jobs that are ready;
the tick comes to the first one, and to the next one if the send returned and the frame has an id
to mark. -/
def Clear (c : FrameCodec) (node : String) (now : Nat) : List Bool → List Json → Prop
  | sent :: rest, payload :: payloads => ∃ frame, c.decodeFrame payload = .ok frame ∧
      (sent = true → Marked node now frame = true → Clear c node now rest payloads)
  | _, _ => True

/-- The payloads of the jobs that are ready, oldest first. -/
def readyPayloads (now : Nat) (rows : List (Job Json)) : List Json :=
  (rows.filter (DurableQueue.ready now)).map Job.payload

/-- Behind the first job that is ready come the others. -/
theorem readyPayloads_next {rows : List (Job Json)} {job : Job Json}
    (hsorted : rows.Pairwise fun a b => a.id < b.id) (h : next now rows = some job) :
    readyPayloads now rows = job.payload :: readyPayloads now (without job rows) := by
  obtain ⟨hready, before, after, rfl, hbefore⟩ := List.find?_eq_some_iff_append.mp h
  obtain ⟨-, hafter, hcross⟩ := List.pairwise_append.mp hsorted
  have hfront : before.filter (DurableQueue.ready now) = [] := by
    apply List.filter_eq_nil_iff.mpr
    intro r hr
    simpa using hbefore r hr
  have hgone : without job (before ++ job :: after) = before ++ after := by
    have hfront : before.filter (fun r => !(r.id == job.id)) = before := by
      apply List.filter_eq_self.mpr
      intro r hr
      have hlt := hcross r hr job (List.mem_cons_self ..)
      simp [hlt.ne]
    have hback : after.filter (fun r => !(r.id == job.id)) = after := by
      apply List.filter_eq_self.mpr
      intro r hr
      have hlt := List.rel_of_pairwise_cons hafter hr
      simp [hlt.ne']
    rw [without, List.filter_append, List.filter_cons_of_neg (by simp), hfront, hback]
  unfold readyPayloads
  rw [hgone, List.filter_append, List.filter_append, hfront, List.filter_cons_of_pos hready]
  rfl

theorem readyPayloads_none {rows : List (Job Json)} (h : next now rows = none) :
    readyPayloads now rows = [] := by
  have hnone := List.find?_eq_none.mp h
  rw [readyPayloads, List.filter_eq_nil_iff.mpr hnone, List.map_nil]

/-! ## Rounds -/

variable (node workerId) in
/-- A job that cannot be decoded is claimed, and the round throws. -/
theorem drainOne_undecodable {q : NodeQueue} {job : Job Json} {e : Error} (sent : Bool)
    (h : next now q.jobs.rows = some job) (hdecode : c.decodeFrame job.payload = .error e) :
    (drainOne c node workerId now sent q).1 = .error e := by
  obtain ⟨jobs, -, hclaim⟩ := claimTask_some c workerId h
  rw [hdecode] at hclaim
  rw [drainOne, hclaim]

variable (node workerId) in
/-- A frame that is sent is acknowledged, whether its task can be marked or not. -/
theorem drainOne_sent {q : NodeQueue} {job : Job Json} {frame : Json}
    (h : next now q.jobs.rows = some job) (hdecode : c.decodeFrame job.payload = .ok frame) :
    ∃ q', drainOne c node workerId now true q = (.ok (Marked node now frame), q') ∧
      q'.jobs.rows = without job q.jobs.rows ∧ q'.sent = q.sent ++ [frame] := by
  obtain ⟨jobs, hheld, hclaim⟩ := claimTask_some c workerId h
  rw [hdecode] at hclaim
  rw [drainOne, hclaim]
  dsimp only
  rw [pushFrame, if_pos rfl]
  unfold Marked
  cases bookkeeping node now frame with
  | ok marked => exact ⟨_, rfl, ack_held hheld, rfl⟩
  | error e => exact ⟨_, rfl, retry_without (ack_held hheld), rfl⟩

variable (node workerId) in
/-- After a failed send the job is given back. -/
theorem drainOne_failed {q : NodeQueue} {job : Job Json} {frame : Json}
    (h : next now q.jobs.rows = some job) (hdecode : c.decodeFrame job.payload = .ok frame) :
    ∃ q', drainOne c node workerId now false q = (.ok false, q') ∧
      q'.jobs.rows = givenBack now job q.jobs.rows ∧ q'.sent = q.sent := by
  obtain ⟨jobs, hheld, hclaim⟩ := claimTask_some c workerId h
  rw [hdecode] at hclaim
  rw [drainOne, hclaim]
  exact ⟨_, rfl, retry_held hheld, rfl⟩

variable (node workerId) in
/-- A clear tick does what it does to the rows, and does not throw. -/
theorem drainBatch_clear (sends : List Bool) {q : NodeQueue}
    (hclear : Clear c node now sends (readyPayloads now q.jobs.rows)) :
    ∃ q', drainBatch c node workerId now sends q = (.ok (), q') ∧
      q'.jobs.rows = (drained c node now sends q.jobs.rows).1 ∧
      q'.sent = q.sent ++ (drained c node now sends q.jobs.rows).2 := by
  induction sends generalizing q with
  | nil => exact ⟨q, rfl, rfl, (List.append_nil _).symm⟩
  | cons sent rest ih =>
      cases hnext : next now q.jobs.rows with
      | none =>
          have hdrain : drainOne c node workerId now sent q = (.ok false, q) := by
            rw [drainOne, claimTask_none hnext]
          rw [drainBatch, hdrain, drained_none rest sent hnext, List.append_nil]
          exact ⟨q, rfl, rfl, rfl⟩
      | some job =>
          rw [readyPayloads_next q.jobs.sorted hnext] at hclear
          obtain ⟨frame, hdecode, hrest⟩ := hclear
          cases sent with
          | false =>
              obtain ⟨q', hdrain, hrows, hsent⟩ :=
                drainOne_failed node workerId hnext hdecode
              rw [drainBatch, hdrain, drained_failed rest hnext hdecode, List.append_nil]
              exact ⟨q', rfl, hrows, hsent⟩
          | true =>
              obtain ⟨q', hdrain, hrows, hsent⟩ :=
                drainOne_sent node workerId hnext hdecode
              cases hmarked : Marked node now frame with
              | false =>
                  rw [hmarked] at hdrain
                  rw [drainBatch, hdrain, drained_unmarked rest hnext hdecode hmarked]
                  exact ⟨q', rfl, hrows, hsent⟩
              | true =>
                  rw [hmarked] at hdrain
                  have hrest := hrest rfl hmarked
                  rw [← hrows] at hrest
                  obtain ⟨q'', hbatch, hrows', hsent'⟩ := ih hrest
                  rw [drainBatch, hdrain, drained_marked rest hnext hdecode hmarked, ← hrows]
                  refine ⟨q'', hbatch, hrows', ?_⟩
                  rw [hsent', hsent, List.append_assoc, List.singleton_append]

/-- A tick that does not throw was clear. -/
theorem clear_of_drainBatch (sends : List Bool) {q : NodeQueue}
    (h : (drainBatch c node workerId now sends q).1 = .ok ()) :
    Clear c node now sends (readyPayloads now q.jobs.rows) := by
  induction sends generalizing q with
  | nil => trivial
  | cons sent rest ih =>
      cases hnext : next now q.jobs.rows with
      | none =>
          rw [readyPayloads_none hnext]
          trivial
      | some job =>
          rw [readyPayloads_next q.jobs.sorted hnext]
          cases hdecode : c.decodeFrame job.payload with
          | error e =>
              have hthrows := drainOne_undecodable node workerId sent hnext
                hdecode
              rw [drainBatch] at h
              split at h
              · cases h
              · rename_i hround
                rw [hround] at hthrows
                cases hthrows
              · rename_i hround
                rw [hround] at hthrows
                cases hthrows
          | ok frame =>
              refine ⟨frame, hdecode, ?_⟩
              rintro rfl hmarked
              obtain ⟨q', hdrain, hrows, -⟩ :=
                drainOne_sent node workerId hnext hdecode
              rw [hmarked] at hdrain
              rw [drainBatch, hdrain] at h
              have hrest := ih h
              rwa [hrows] at hrest

/-! ## What becomes of the jobs -/

theorem eq_of_id {rows : List (Job Json)} (hsorted : rows.Pairwise fun a b => a.id < b.id)
    {a b : Job Json} (ha : a ∈ rows) (hb : b ∈ rows) (h : a.id = b.id) : a = b := by
  have hnodup : (rows.map Job.id).Nodup :=
    List.pairwise_map.mpr (hsorted.imp fun hlt => hlt.ne)
  exact List.inj_on_of_nodup_map hnodup ha hb h

theorem mem_without {rows : List (Job Json)} {job r : Job Json} :
    r ∈ without job rows ↔ r ∈ rows ∧ r.id ≠ job.id := by
  simp [without]

theorem mem_givenBack_self {rows : List (Job Json)} {job : Job Json} (h : job ∈ rows) :
    { job with worker := none, notBefore := now + 5000 } ∈ givenBack now job rows := by
  refine List.mem_map.mpr ⟨job, h, ?_⟩
  rw [beq_self_eq_true, if_pos rfl]

theorem mem_givenBack_of_ne {rows : List (Job Json)} {job r : Job Json} (h : r ∈ rows)
    (hne : r.id ≠ job.id) : r ∈ givenBack now job rows := by
  refine List.mem_map.mpr ⟨r, h, ?_⟩
  rw [beq_eq_false_iff_ne.mpr hne, if_neg Bool.false_ne_true]

/-- A tick adds no jobs. -/
theorem drained_ids (sends : List Bool) {rows : List (Job Json)} :
    ∀ r ∈ (drained c node now sends rows).1, ∃ r' ∈ rows, r'.id = r.id := by
  induction sends generalizing rows with
  | nil => exact fun r hr => ⟨r, hr, rfl⟩
  | cons sent rest ih =>
      cases hnext : next now rows with
      | none =>
          rw [drained_none rest sent hnext]
          exact fun r hr => ⟨r, hr, rfl⟩
      | some first =>
          cases hdecode : c.decodeFrame first.payload with
          | error e =>
              rw [drained, hnext]
              dsimp only
              rw [hdecode]
              exact fun r hr => ⟨r, hr, rfl⟩
          | ok frame =>
              cases sent with
              | false =>
                  rw [drained_failed rest hnext hdecode]
                  intro r hr
                  obtain ⟨r', hr', rfl⟩ := List.mem_map.mp hr
                  refine ⟨r', hr', ?_⟩
                  split <;> rfl
              | true =>
                  cases hmarked : Marked node now frame with
                  | false =>
                      rw [drained_unmarked rest hnext hdecode hmarked]
                      exact fun r hr => ⟨r, (mem_without.mp hr).1, rfl⟩
                  | true =>
                      rw [drained_marked rest hnext hdecode hmarked]
                      intro r hr
                      obtain ⟨r', hr', hid⟩ := ih r hr
                      exact ⟨r', (mem_without.mp hr').1, hid⟩

/-- What a tick has done about a job: nothing, or its frame was sent and it is gone, or it was given
back. -/
def Settled (c : FrameCodec) (now : Nat) (job : Job Json) (rows : List (Job Json))
    (frames : List Json) : Prop :=
  job ∈ rows ∨
    ((∀ r ∈ rows, r.id ≠ job.id) ∧ ∃ frame ∈ frames, c.decodeFrame job.payload = .ok frame) ∨
    { job with worker := none, notBefore := now + 5000 } ∈ rows

theorem drained_settled (sends : List Bool) {rows : List (Job Json)}
    (hsorted : rows.Pairwise fun a b => a.id < b.id) {job : Job Json} (hjob : job ∈ rows) :
    Settled c now job (drained c node now sends rows).1 (drained c node now sends rows).2 := by
  induction sends generalizing rows with
  | nil => exact .inl hjob
  | cons sent rest ih =>
      cases hnext : next now rows with
      | none =>
          rw [drained_none rest sent hnext]
          exact .inl hjob
      | some first =>
          have hfirst := List.mem_of_find?_eq_some hnext
          cases hdecode : c.decodeFrame first.payload with
          | error e =>
              rw [drained, hnext]
              dsimp only
              rw [hdecode]
              exact .inl hjob
          | ok frame =>
              by_cases hid : job.id = first.id
              · -- the job the round claims
                obtain rfl := eq_of_id hsorted hjob hfirst hid
                cases sent with
                | false =>
                    rw [drained_failed rest hnext hdecode]
                    exact .inr (.inr (mem_givenBack_self hjob))
                | true =>
                    refine .inr (.inl ?_)
                    cases hmarked : Marked node now frame with
                    | false =>
                        rw [drained_unmarked rest hnext hdecode hmarked]
                        exact ⟨fun r hr => (mem_without.mp hr).2, frame,
                          List.mem_singleton_self _, hdecode⟩
                    | true =>
                        rw [drained_marked rest hnext hdecode hmarked]
                        refine ⟨fun r hr => ?_, frame, List.mem_cons_self .., hdecode⟩
                        obtain ⟨r', hr', hid'⟩ := drained_ids rest r hr
                        rw [← hid']
                        exact (mem_without.mp hr').2
              · cases sent with
                | false =>
                    rw [drained_failed rest hnext hdecode]
                    exact .inl (mem_givenBack_of_ne hjob hid)
                | true =>
                    cases hmarked : Marked node now frame with
                    | false =>
                        rw [drained_unmarked rest hnext hdecode hmarked]
                        exact .inl (mem_without.mpr ⟨hjob, hid⟩)
                    | true =>
                        rw [drained_marked rest hnext hdecode hmarked]
                        have hrest := @ih (without first rows) (hsorted.filter _)
                          (mem_without.mpr ⟨hjob, hid⟩)
                        rcases hrest with hleft | ⟨hgone, frame', hframe', hdecode'⟩ | hback
                        · exact .inl hleft
                        · exact .inr (.inl ⟨hgone, frame', List.mem_cons_of_mem _ hframe', hdecode'⟩)
                        · exact .inr (.inr hback)

/-! ## Jobs that cannot be decoded -/

/-- The payload can be decoded. -/
def decodes (c : FrameCodec) (job : Job Json) : Bool :=
  match c.decodeFrame job.payload with
  | .ok _ => true
  | .error _ => false

theorem decodes_of_ok {job : Job Json} {frame : Json} (h : c.decodeFrame job.payload = .ok frame) :
    decodes c job = true := by
  rw [decodes, h]

theorem next_filter_none {rows : List (Job Json)} (h : next now rows = none) :
    next now (rows.filter (decodes c)) = none := by
  apply List.find?_eq_none.mpr
  intro r hr
  exact List.find?_eq_none.mp h r (List.mem_of_mem_filter hr)

theorem next_filter {rows : List (Job Json)} {job : Job Json} (h : next now rows = some job)
    (hdecodes : decodes c job = true) : next now (rows.filter (decodes c)) = some job := by
  obtain ⟨hready, before, after, rfl, hbefore⟩ := List.find?_eq_some_iff_append.mp h
  apply List.find?_eq_some_iff_append.mpr
  refine ⟨hready, before.filter (decodes c), after.filter (decodes c), ?_, ?_⟩
  · rw [List.filter_append, List.filter_cons_of_pos hdecodes]
  · exact fun r hr => hbefore r (List.mem_of_mem_filter hr)

/-- Where the tick comes to jobs only that can be decoded, those that cannot make no difference to
the others. -/
theorem drained_filter (sends : List Bool) {rows : List (Job Json)}
    (hsorted : rows.Pairwise fun a b => a.id < b.id)
    (hclear : Clear c node now sends (readyPayloads now rows)) :
    (drained c node now sends (rows.filter (decodes c))).1 =
      (drained c node now sends rows).1.filter (decodes c) := by
  induction sends generalizing rows with
  | nil => rfl
  | cons sent rest ih =>
      cases hnext : next now rows with
      | none => rw [drained_none rest sent hnext, drained_none rest sent (next_filter_none hnext)]
      | some first =>
          rw [readyPayloads_next hsorted hnext] at hclear
          obtain ⟨frame, hdecode, hrest⟩ := hclear
          have hnext' := next_filter hnext (decodes_of_ok hdecode)
          have hwithout : without first (rows.filter (decodes c)) =
              (without first rows).filter (decodes c) := List.filter_comm _ _ rows
          cases sent with
          | false =>
              rw [drained_failed rest hnext hdecode, drained_failed rest hnext' hdecode]
              have hsame : ∀ r : Job Json, decodes c (if r.id == first.id then
                  { r with worker := none, notBefore := now + 5000 } else r) = decodes c r := by
                intro r
                split <;> rfl
              simp only [givenBack, List.filter_map, Function.comp_def, hsame]
          | true =>
              cases hmarked : Marked node now frame with
              | false =>
                  rw [drained_unmarked rest hnext hdecode hmarked,
                    drained_unmarked rest hnext' hdecode hmarked]
                  exact hwithout
              | true =>
                  rw [drained_marked rest hnext hdecode hmarked,
                    drained_marked rest hnext' hdecode hmarked, hwithout]
                  exact ih (hsorted.filter _) (hrest rfl hmarked)

theorem clear_of_decodes (sends : List Bool) {rows : List (Job Json)}
    (h : ∀ job ∈ rows, decodes c job = true) :
    Clear c node now sends (readyPayloads now rows) := by
  have hpayloads : ∀ payload ∈ readyPayloads now rows, ∃ frame, c.decodeFrame payload = .ok frame := by
    intro payload hpayload
    obtain ⟨job, hjob, rfl⟩ := List.mem_map.mp hpayload
    have hdecodes := h job (List.mem_of_mem_filter hjob)
    unfold decodes at hdecodes
    cases hdecode : c.decodeFrame job.payload with
    | ok frame => exact ⟨frame, rfl⟩
    | error e => rw [hdecode] at hdecodes; cases hdecodes
  generalize readyPayloads now rows = payloads at hpayloads
  induction payloads generalizing sends with
  | nil => cases sends <;> trivial
  | cons payload payloads ih =>
      cases sends with
      | nil => trivial
      | cons sent rest =>
          obtain ⟨frame, hdecode⟩ := hpayloads payload (List.mem_cons_self ..)
          refine ⟨frame, hdecode, fun _ _ => ?_⟩
          exact ih rest fun p hp => hpayloads p (List.mem_cons_of_mem _ hp)

/-- What a tick is to do about any content of the queue. -/
structure Unstalled (c : FrameCodec) (node workerId : String) (now : Nat) (sends : ℕ → Bool)
    (jobs : DurableQueue Json) : Prop where
  returns : (drainTick c node workerId now sends jobs).1 = .ok ()
  settled : ∀ job ∈ jobs.rows, Settled c now job (drainTick c node workerId now sends jobs).2.jobs.rows
    (drainTick c node workerId now sends jobs).2.sent
  /-- What can be decoded fares as in the queue without the jobs that cannot. -/
  unhindered : ∀ job ∈ jobs.rows, decodes c job = true →
    job ∈ (drainTick c node workerId now sends jobs).2.jobs.rows →
    job ∈ (drainTick c node workerId now sends
      (jobs.delete fun job => !decodes c job)).2.jobs.rows

/-- **A job that cannot be decoded stalls the node** exactly if the tick comes to it. -/
theorem drain_unstalled_iff (c : FrameCodec) (node workerId : String) (now : Nat) (sends : ℕ → Bool)
    (jobs : DurableQueue Json) : Unstalled c node workerId now sends jobs ↔
      Clear c node now ((List.range 20).map sends) (readyPayloads now jobs.rows) := by
  constructor
  · intro h
    exact clear_of_drainBatch _ h.returns
  · intro hclear
    obtain ⟨q, hrun, hrows, hsent⟩ :=
      drainBatch_clear node workerId ((List.range 20).map sends) (q := { jobs }) hclear
    have htick : drainTick c node workerId now sends jobs = (.ok (), q) := hrun
    rw [List.nil_append] at hsent
    constructor
    case returns => rw [htick]
    case settled =>
      intro job hjob
      rw [htick, hrows, hsent]
      exact drained_settled _ jobs.sorted hjob
    case unhindered =>
      intro job _ hdecodes hjob
      have hall : ∀ r ∈ (jobs.delete fun job => !decodes c job).rows, decodes c r = true := by
        intro r hr
        simpa using (List.mem_filter.mp hr).2
      obtain ⟨q', hrun', hrows', -⟩ := drainBatch_clear node workerId
        ((List.range 20).map sends) (q := { jobs := jobs.delete fun job => !decodes c job })
        (clear_of_decodes _ hall)
      have htick' : drainTick c node workerId now sends (jobs.delete fun job => !decodes c job) =
        (.ok (), q') := hrun'
      have hfiltered : (jobs.delete fun job => !decodes c job).rows =
          jobs.rows.filter (decodes c) := by
        simp [Table.delete]
      rw [htick', hrows', hfiltered, drained_filter _ jobs.sorted hclear]
      rw [htick, hrows] at hjob
      exact List.mem_filter.mpr ⟨hjob, hdecodes⟩

/-- What the platform makes of a text that was encrypted under another secret: it decrypts to the
empty text, which is no JSON. -/
def rotated : FrameCodec where
  decryptSecret _ := ""
  parse _ := .error (.error "Unexpected end of JSON input")

/-- A job that was enqueued under another secret, and a plain one behind it. -/
def rotatedJobs : DurableQueue Json :=
  (DurableQueue.enqueue Table.empty (.obj [("_enc", .str "enc:v1:aXY=:dGFn:Y3Q=")])).enqueue
    (.obj [("type", .str "task"), ("id", .str "t"), ("action", .str "noop")])

/-- The tick throws; the first job stays claimed, and the second one is not reached. -/
theorem drain_rotated :
    let tick := drainTick rotated "n" "hub" 0 (fun _ => true) rotatedJobs
    tick.1 = .error (.error "Unexpected end of JSON input") ∧
      tick.2.jobs.rows.map (fun job => (job.id, job.worker)) = [(1, some "hub"), (2, none)] ∧
      tick.2.sent = [] :=
  ⟨rfl, rfl, rfl⟩

end NodeQueue

end MassDeployment
