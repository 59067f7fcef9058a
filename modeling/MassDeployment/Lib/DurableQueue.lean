import MassDeployment.Lib.Table

set_option autoImplicit false

/-! # Durable work queues

A persistent queue of jobs with at-least-once delivery. A job stays in the queue until the
worker that claimed it acknowledges it; a claim that is retried or expires makes the job
available again, after a delay where the worker asked for one. A claim takes **the oldest
job that is available**, which is not always the oldest job: a delayed job is passed over
until its delay is over.

The engine of such a queue is not part of the program that uses it. `WorkQueue` is what it offers,
`WorkQueue.Lawful` what its users rely on, and what follows about jobs and payloads follows from
these laws. `DurableQueue`, a list of jobs, obeys them.
-/

/-- A queued job. -/
structure Job (α : Type) where
  id : Nat
  payload : α
  /-- The worker that holds the claim. -/
  worker : Option String
  /-- The job is not handed out before this time. -/
  notBefore : Nat
  deriving DecidableEq, Repr

/-- A job a worker may claim: nobody holds it and its delay is over. -/
def DurableQueue.ready {α : Type} (now : Nat) (j : Job α) : Bool :=
  j.worker.isNone && decide (j.notBefore ≤ now)

/-! ## What a queue offers -/

/-- The operations of a queue whose states are `Q`, and the jobs that are in it, oldest first. -/
structure WorkQueue (Q α : Type) where
  jobs : Q → List (Job α)
  enqueue : Q → α → Q
  claimOne : Q → (now : Nat) → (worker : String) → Option (Job α × Q)
  ack : Q → (id : Nat) → (worker : String) → Q
  retry : Q → (id : Nat) → (worker : String) → (now delay : Nat) → Q
  /-- The claims of some jobs run out. -/
  expire : Q → (Job α → Bool) → Q

namespace WorkQueue

open DurableQueue (ready)

variable {Q α : Type} {W : WorkQueue Q α} {q q' : Q} {j : Job α} {now : Nat} {worker : String}

/-- What is waiting in the queue, oldest first. -/
def payloads (W : WorkQueue Q α) (q : Q) : List α := (W.jobs q).map Job.payload

/-- **What the users of a queue rely on.** Jobs stand in the order in which they were added, told
apart by their numbers. A claim takes the first that is ready. Only the worker that holds the claim
can drop a job, or give it back for later. -/
structure Lawful (W : WorkQueue Q α) : Prop where
  ids (q : Q) : (W.jobs q).Pairwise fun a b => a.id ≠ b.id
  enqueue (q : Q) (a : α) : ∃ id, W.jobs (W.enqueue q a) = W.jobs q ++ [⟨id, a, none, 0⟩]
  claimed (q : Q) (now : Nat) (worker : String) :
    (W.claimOne q now worker).map Prod.fst = (W.jobs q).find? (ready now)
  claimOne (q q' : Q) (now : Nat) (worker : String) (j : Job α) :
    W.claimOne q now worker = some (j, q') →
      W.jobs q' = (W.jobs q).map fun r =>
        if r.id == j.id then { r with worker := some worker } else r
  ack (q : Q) (id : Nat) (worker : String) :
    W.jobs (W.ack q id worker) = (W.jobs q).filter fun j => !(j.id == id && j.worker == some worker)
  retry (q : Q) (id : Nat) (worker : String) (now delay : Nat) :
    W.jobs (W.retry q id worker now delay) = (W.jobs q).map fun j =>
      if j.id == id && j.worker == some worker then
        { j with worker := none, notBefore := now + delay }
      else j
  expire (q : Q) (p : Job α → Bool) :
    W.jobs (W.expire q p) = (W.jobs q).map fun j => if p j then { j with worker := none } else j

/-- Marks on jobs leave the payloads as they are. -/
theorem map_payload_mark (jobs : List (Job α)) (p : Job α → Bool) {f : Job α → Job α}
    (hf : ∀ j, (f j).payload = j.payload) :
    (jobs.map fun j => if p j then f j else j).map Job.payload = jobs.map Job.payload := by
  rw [List.map_map]
  refine List.map_congr_left fun j _ => ?_
  rw [Function.comp]
  split
  · exact hf j
  · rfl

namespace Lawful

theorem payloads_enqueue (h : W.Lawful) (q : Q) (a : α) :
    W.payloads (W.enqueue q a) = W.payloads q ++ [a] := by
  obtain ⟨id, hjobs⟩ := h.enqueue q a
  rw [payloads, hjobs, List.map_append]
  rfl

theorem payloads_retry (h : W.Lawful) (q : Q) (id : Nat) (worker : String) (now delay : Nat) :
    W.payloads (W.retry q id worker now delay) = W.payloads q := by
  rw [payloads, h.retry]
  exact map_payload_mark _ _ fun _ => rfl

theorem payloads_expire (h : W.Lawful) (q : Q) (p : Job α → Bool) :
    W.payloads (W.expire q p) = W.payloads q := by
  rw [payloads, h.expire]
  exact map_payload_mark _ _ fun _ => rfl

theorem payloads_claimOne (h : W.Lawful) (hc : W.claimOne q now worker = some (j, q')) :
    W.payloads q' = W.payloads q := by
  rw [payloads, h.claimOne _ _ _ _ _ hc]
  exact map_payload_mark _ _ fun _ => rfl

/-- An acknowledgement adds nothing. -/
theorem mem_payloads_ack (h : W.Lawful) {id : Nat} {a : α}
    (ha : a ∈ W.payloads (W.ack q id worker)) : a ∈ W.payloads q := by
  rw [payloads, h.ack] at ha
  obtain ⟨j, hj, rfl⟩ := List.mem_map.mp ha
  exact List.mem_map_of_mem (List.mem_filter.mp hj).1

/-- **What a claim takes**: the first job that is ready. The others stay where they are. -/
theorem claimOne_split (h : W.Lawful) (hc : W.claimOne q now worker = some (j, q')) :
    ∃ before after, W.jobs q = before ++ j :: after ∧ ready now j = true ∧
      (∀ x ∈ before, ready now x = false) ∧ (∀ x ∈ before ++ after, x.id ≠ j.id) ∧
      W.jobs q' = before ++ { j with worker := some worker } :: after := by
  have hfind : (W.jobs q).find? (ready now) = some j := by
    rw [← h.claimed q now worker, hc]
    rfl
  obtain ⟨hready, before, after, hsplit, hbefore⟩ := List.find?_eq_some_iff_append.mp hfind
  have hids : ∀ x ∈ before ++ after, x.id ≠ j.id := by
    intro x hx
    have hall := h.ids q
    rw [hsplit, List.pairwise_append] at hall
    obtain ⟨-, hafter, hcross⟩ := hall
    rcases List.mem_append.mp hx with hx | hx
    · exact hcross x hx j List.mem_cons_self
    · exact ((List.pairwise_cons.mp hafter).1 x hx).symm
  have hkept : ∀ l : List (Job α), (∀ x ∈ l, x.id ≠ j.id) →
      l.map (fun r => if r.id == j.id then { r with worker := some worker } else r) = l := by
    intro l hl
    refine (List.map_congr_left fun x hx => ?_).trans (List.map_id l)
    rw [if_neg (by simpa using hl x hx), id]
  refine ⟨before, after, hsplit, hready, fun x hx => by simpa using hbefore x hx, hids, ?_⟩
  rw [h.claimOne _ _ _ _ _ hc, hsplit, List.map_append, List.map_cons,
    hkept before fun x hx => hids x (List.mem_append_left _ hx),
    hkept after fun x hx => hids x (List.mem_append_right _ hx)]
  simp

/-- An acknowledged job leaves its place. -/
theorem ack_split (h : W.Lawful) {before after : List (Job α)}
    (hjobs : W.jobs q = before ++ j :: after) (hw : j.worker = some worker)
    (hids : ∀ x ∈ before ++ after, x.id ≠ j.id) :
    W.jobs (W.ack q j.id worker) = before ++ after := by
  have hkept : ∀ l : List (Job α), (∀ x ∈ l, x.id ≠ j.id) →
      (l.filter fun x => !(x.id == j.id && x.worker == some worker)) = l := by
    intro l hl
    refine List.filter_eq_self.mpr fun x hx => ?_
    simp [hl x hx]
  rw [h.ack, hjobs, List.filter_append, List.filter_cons_of_neg (by simp [hw]),
    hkept before fun x hx => hids x (List.mem_append_left _ hx),
    hkept after fun x hx => hids x (List.mem_append_right _ hx)]

end Lawful

end WorkQueue

/-! ## The list of jobs -/

/-- Jobs are told apart by their number alone, and a job's payload never changes. -/
instance {α : Type} : Row (Job α) where
  id := Job.id
  clash _ _ := False
  clash_symm _ _ h := h
  decClash _ _ := isFalse id
  grows a b := b.id = a.id ∧ b.payload = a.payload
  grows_id _ _ h := h.1
  grows_refl _ := ⟨rfl, rfl⟩
  grows_trans _ _ _ h h' := ⟨h'.1.trans h.1, h'.2.trans h.2⟩

/-- The jobs of a queue, oldest first. -/
abbrev DurableQueue (α : Type) := Table (Job α)

namespace DurableQueue

variable {α : Type}

/-- Add a job at the end. -/
def enqueue (q : DurableQueue α) (a : α) : DurableQueue α :=
  (q.insert (fun i => ⟨i, a, none, 0⟩) fun _ => rfl).getD q

theorem enqueue_eq (q : DurableQueue α) (a : α) :
    (q.enqueue a).rows = q.rows ++ [⟨q.seq + 1, a, none, 0⟩] ∧
      (q.enqueue a).seq = q.seq + 1 := by
  cases h : q.insert (fun i => (⟨i, a, none, 0⟩ : Job α)) (fun _ => rfl) with
  | none =>
      exact absurd h (by simp [Table.insert, Row.clash])
  | some q' =>
      rw [enqueue, h]
      exact Table.insert_eq_some h

theorem enqueue_rows (q : DurableQueue α) (a : α) :
    (q.enqueue a).rows = q.rows ++ [⟨q.seq + 1, a, none, 0⟩] := (enqueue_eq q a).1

private theorem keeps_worker (p : Job α → Bool) (w : Option String) :
    Row.Keeps p fun j : Job α => { j with worker := w } :=
  ⟨fun _ _ => ⟨rfl, rfl⟩, fun _ _ h => h⟩

/-- Claim the oldest job that is ready. -/
def claimOne (q : DurableQueue α) (now : Nat) (worker : String) :
    Option (Job α × DurableQueue α) :=
  (q.find (ready now)).map fun j =>
    (j, q.update (fun r => r.id == j.id) (fun r => { r with worker := some worker })
      (keeps_worker _ _))

/-- Drop a job; only the worker holding its claim can. -/
def ack (q : DurableQueue α) (id : Nat) (worker : String) : DurableQueue α :=
  q.delete fun j => j.id == id && j.worker == some worker

/-- Give a claimed job back, not to be handed out for `delay`. -/
def retry (q : DurableQueue α) (id : Nat) (worker : String) (now delay : Nat) : DurableQueue α :=
  q.update (fun j => j.id == id && j.worker == some worker)
    (fun j => { j with worker := none, notBefore := now + delay })
    ⟨fun _ _ => ⟨rfl, rfl⟩, fun _ _ h => h⟩

/-- The claims of jobs satisfying `p` expire: they are handed out again. -/
def expire (q : DurableQueue α) (p : Job α → Bool) : DurableQueue α :=
  q.update p (fun j => { j with worker := none }) (keeps_worker _ _)

/-- What is waiting in the queue, oldest first. -/
def payloads (q : DurableQueue α) : List α := q.rows.map Job.payload

/-- A queue that is a list of jobs. -/
def workQueue (α : Type) : WorkQueue (DurableQueue α) α where
  jobs := Table.rows
  enqueue := enqueue
  claimOne := claimOne
  ack := ack
  retry := retry
  expire := expire

theorem claimOne_eq_some {q q' : DurableQueue α} {now : Nat} {w : String} {j : Job α}
    (h : q.claimOne now w = some (j, q')) :
    j ∈ q.rows ∧ ready now j = true ∧
      q'.rows = q.rows.map (fun r => if r.id == j.id then { r with worker := some w } else r) ∧
      q'.seq = q.seq := by
  unfold claimOne at h
  cases hf : q.find (ready now) with
  | none => simp [hf] at h
  | some x =>
      simp only [hf, Option.map_some, Option.some.injEq, Prod.mk.injEq] at h
      obtain ⟨rfl, rfl⟩ := h
      obtain ⟨hm, hp⟩ := Table.find_some hf
      exact ⟨hm, hp, rfl, rfl⟩

/-- **The list obeys the laws of a queue.** -/
theorem lawful : (workQueue α).Lawful where
  ids q := q.sorted.imp Nat.ne_of_lt
  enqueue q a := ⟨_, enqueue_rows q a⟩
  claimed q now worker := by
    show (q.claimOne now worker).map Prod.fst = q.find (ready now)
    rw [claimOne, Option.map_map]
    exact Option.map_id'
  claimOne _ _ _ _ _ h := (claimOne_eq_some h).2.2.1
  ack _ _ _ := rfl
  retry _ _ _ _ _ := rfl
  expire _ _ := rfl

@[simp] theorem payloads_enqueue (q : DurableQueue α) (a : α) :
    (q.enqueue a).payloads = q.payloads ++ [a] := lawful.payloads_enqueue q a

@[simp] theorem payloads_retry (q : DurableQueue α) (id : Nat) (w : String) (now delay : Nat) :
    (q.retry id w now delay).payloads = q.payloads := lawful.payloads_retry q id w now delay

@[simp] theorem payloads_expire (q : DurableQueue α) (p : Job α → Bool) :
    (q.expire p).payloads = q.payloads := lawful.payloads_expire q p

theorem mem_payloads_ack {q : DurableQueue α} {id : Nat} {w : String} {a : α}
    (h : a ∈ (q.ack id w).payloads) : a ∈ q.payloads := lawful.mem_payloads_ack h

theorem payloads_claimOne {q q' : DurableQueue α} {now : Nat} {w : String} {j : Job α}
    (h : q.claimOne now w = some (j, q')) : q'.payloads = q.payloads := lawful.payloads_claimOne h

theorem claimOne_split {q q' : DurableQueue α} {now : Nat} {w : String} {j : Job α}
    (h : q.claimOne now w = some (j, q')) : ∃ before after, q.rows = before ++ j :: after ∧
      ready now j = true ∧ (∀ x ∈ before, ready now x = false) ∧
      (∀ x ∈ before ++ after, x.id ≠ j.id) ∧
      q'.rows = before ++ { j with worker := some w } :: after := lawful.claimOne_split h

theorem ack_split {q : DurableQueue α} {before after : List (Job α)} {j : Job α} {w : String}
    (hrows : q.rows = before ++ j :: after) (hw : j.worker = some w)
    (hids : ∀ x ∈ before ++ after, x.id ≠ j.id) : (q.ack j.id w).rows = before ++ after :=
  lawful.ack_split hrows hw hids

/-! ## Jobs in turn -/

/-- No job that counts and is ready stands behind one that counts and is not: a claim passes over
none of them. -/
def InTurn (q : DurableQueue α) (now : Nat) (counts : Job α → Bool) : Prop :=
  q.rows.Pairwise fun a b =>
    counts a = true → counts b = true → ready now b = true → ready now a = true

instance (q : DurableQueue α) (now : Nat) (counts : Job α → Bool) :
    Decidable (q.InTurn now counts) :=
  inferInstanceAs (Decidable (List.Pairwise _ _))

/-- In turn, what stands before a job that is claimed and counts does not count. -/
theorem InTurn.before {q : DurableQueue α} {now : Nat} {counts : Job α → Bool}
    (h : q.InTurn now counts) {before after : List (Job α)} {j : Job α}
    (hrows : q.rows = before ++ j :: after) (hready : ready now j = true)
    (hbefore : ∀ x ∈ before, ready now x = false) (hj : counts j = true) :
    ∀ x ∈ before, counts x = false := by
  intro x hx
  by_contra hcounts
  rw [InTurn, hrows, List.pairwise_append] at h
  have hx' := h.2.2 x hx j List.mem_cons_self (by simpa using hcounts) hj hready
  rw [hbefore x hx] at hx'
  cases hx'

theorem InTurn.drop {q q' : DurableQueue α} {now : Nat} {counts : Job α → Bool}
    (h : q.InTurn now counts) {before after : List (Job α)} {j : Job α}
    (hrows : q.rows = before ++ j :: after) (hrows' : q'.rows = before ++ after) :
    q'.InTurn now counts := by
  rw [InTurn, hrows] at h
  rw [InTurn, hrows']
  exact h.sublist ((List.Sublist.refl _).append (List.sublist_cons_self ..))

end DurableQueue
