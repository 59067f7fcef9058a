import Mathlib.Algebra.Order.Ring.Rat
import Mathlib.Data.List.Nodup
import Mathlib.Tactic.NormNum
import Mathlib.Tactic.Ring
import MassDeployment.Lib.Dict
import MassDeployment.Lib.History
import MassDeployment.Lib.TokenBucket

set_option autoImplicit false

/-! # The rate limit of the sign-in (`ratelimit.ts`)

Every key has a token bucket. The map of the buckets is bounded: over the bound the idle ones are
dropped, and then the oldest, and a key that was dropped starts with a full bucket again.
-/

namespace MassDeployment.RateLimit

abbrev Bucket := TokenBucket ℚ

/-- The map, in the order of insertion. -/
abbrev Buckets := Dict String Bucket

def maxBuckets : Nat := 10000

def idleMs : ℚ := 60 * 60 * 1000

structure RateLimitOptions where
  ratePerSec : ℚ
  burst : ℚ
  ratePerSec_nonneg : 0 ≤ ratePerSec
  burst_nonneg : 0 ≤ burst

/-- The loop over the oldest buckets. -/
def dropOldest : Buckets → Buckets
  | [] => []
  | e :: rest => if maxBuckets < (e :: rest).length then dropOldest rest else e :: rest

def prune (now : ℚ) (buckets : Buckets) : Buckets :=
  if buckets.length ≤ maxBuckets then buckets
  else dropOldest (buckets.filter fun e => !decide (idleMs < now - e.2.last))

structure Call where
  now : ℚ
  key : String

def consume (opts : RateLimitOptions) (buckets : Buckets) (c : Call) : Buckets × Bool :=
  let buckets := prune c.now buckets
  let b := (buckets.lookup c.key).getD ⟨opts.burst, c.now⟩
  let tokens := min opts.burst (b.tokens + (c.now - b.last) / 1000 * opts.ratePerSec)
  if tokens < 1 then (buckets.set c.key ⟨tokens, c.now⟩, false)
  else (buckets.set c.key ⟨tokens - 1, c.now⟩, true)

/-- `AUTH_LIMIT`. -/
def authLimit : RateLimitOptions := ⟨1 / 12, 5, by norm_num, by norm_num⟩

/-! ## Runs -/

def step (opts : RateLimitOptions) (buckets : Buckets) (c : Call) : Buckets :=
  (consume opts buckets c).1

/-- The key is in the map and is dropped by a call. -/
def evicts (buckets : Buckets) (now : ℚ) (key : String) : Bool :=
  (buckets.lookup key).isSome && ((prune now buckets).lookup key).isNone

/-- What a call shows: whether it was allowed, and which keys it dropped. -/
structure Verdict where
  now : ℚ
  key : String
  allowed : Bool
  evicted : String → Bool

def verdict (opts : RateLimitOptions) (buckets : Buckets) (c : Call) : Option Verdict :=
  some ⟨c.now, c.key, (consume opts buckets c).2, evicts buckets c.now⟩

def history (opts : RateLimitOptions) (buckets : Buckets) (calls : List Call) : List Verdict :=
  Run.history (step opts) (verdict opts) buckets calls

/-- The allowed calls of a key in a window. -/
def allowedIn (h : List Verdict) (key : String) (s t : ℚ) : Nat :=
  h.countP fun v => v.key == key && v.allowed && decide (s ≤ v.now ∧ v.now ≤ t)

/-- How often the key was dropped in a window. -/
def evictionsIn (h : List Verdict) (key : String) (s t : ℚ) : Nat :=
  h.countP fun v => v.evicted key && decide (s ≤ v.now ∧ v.now ≤ t)

/-! ## The map -/

theorem dropOldest_sublist (buckets : Buckets) : (dropOldest buckets).Sublist buckets := by
  induction buckets with
  | nil => exact .slnil
  | cons e rest ih =>
      rw [dropOldest]
      split
      · exact ih.trans (List.sublist_cons_self e rest)
      · exact List.Sublist.refl _

theorem length_dropOldest (buckets : Buckets) : (dropOldest buckets).length ≤ maxBuckets := by
  induction buckets with
  | nil => exact Nat.zero_le _
  | cons e rest ih =>
      rw [dropOldest]
      split
      · exact ih
      · rename_i hle
        exact not_lt.mp hle

theorem prune_sublist (now : ℚ) (buckets : Buckets) : (prune now buckets).Sublist buckets := by
  unfold prune
  split
  · exact List.Sublist.refl _
  · exact (dropOldest_sublist _).trans List.filter_sublist

theorem length_prune (now : ℚ) (buckets : Buckets) : (prune now buckets).length ≤ maxBuckets := by
  unfold prune
  split
  · assumption
  · exact length_dropOldest _

theorem length_set_le (d : Buckets) (key : String) (b : Bucket) :
    (d.set key b).length ≤ d.length + 1 := by
  induction d with
  | nil => exact le_refl 1
  | cons e rest ih =>
      rw [Dict.set]
      split
      · exact Nat.le_succ _
      · exact Nat.succ_le_succ ih

theorem consume_eq (opts : RateLimitOptions) (buckets : Buckets) (c : Call) :
    consume opts buckets c =
      let b := ((prune c.now buckets).lookup c.key).getD (.full opts.burst c.now)
      let taken := b.take (opts.ratePerSec / 1000) opts.burst c.now
      ((prune c.now buckets).set c.key taken.1, taken.2) := by
  have htokens : ∀ b : Bucket,
      min opts.burst (b.tokens + (c.now - b.last) / 1000 * opts.ratePerSec) =
        b.level (opts.ratePerSec / 1000) opts.burst c.now := by
    intro b
    unfold TokenBucket.level
    congr 2
    ring
  unfold consume TokenBucket.take TokenBucket.full
  dsimp only
  rw [htokens]
  split <;> rfl

theorem length_step (opts : RateLimitOptions) (buckets : Buckets) (c : Call) :
    (step opts buckets c).length ≤ maxBuckets + 1 := by
  unfold step
  rw [consume_eq]
  exact (length_set_le _ _ _).trans (Nat.succ_le_succ (length_prune _ _))

/-- After every call the map has one bucket more than the bound at most. -/
theorem length_run (opts : RateLimitOptions) (calls : List Call) :
    (Run.run (step opts) [] calls).length ≤ maxBuckets + 1 :=
  Run.invariant_all (I := fun b : Buckets => b.length ≤ maxBuckets + 1)
    (fun b c _ => length_step opts b c) (Nat.zero_le _)

/-! ## The tokens of a key -/

/-- The keys are distinct, and the buckets were last used before. -/
structure Sound (buckets : Buckets) (now : ℚ) : Prop where
  keys : (buckets.map Prod.fst).Nodup
  buckets : ∀ e ∈ buckets, e.2.Sound now

theorem sound_empty (now : ℚ) : Sound [] now := ⟨List.nodup_nil, nofun⟩

section

variable {opts : RateLimitOptions} {buckets : Buckets} {c : Call} {key : String} {s t : ℚ}

theorem Sound.later (h : Sound buckets s) (hst : s ≤ t) : Sound buckets t :=
  ⟨h.keys, fun e he => (h.buckets e he).later hst⟩

theorem Sound.prune (h : Sound buckets s) (now : ℚ) : Sound (prune now buckets) s :=
  ⟨h.keys.sublist ((prune_sublist now buckets).map _),
    fun e he => h.buckets e ((prune_sublist now buckets).subset he)⟩

theorem rate_nonneg (opts : RateLimitOptions) : 0 ≤ opts.ratePerSec / 1000 :=
  div_nonneg opts.ratePerSec_nonneg (by norm_num)

theorem Sound.get (h : Sound buckets s) (opts : RateLimitOptions) (key : String) :
    ((buckets.lookup key).getD (.full opts.burst s)).Sound s := by
  cases hlookup : buckets.lookup key with
  | none => exact ⟨opts.burst_nonneg, le_rfl⟩
  | some b => exact h.buckets _ (Dict.mem_of_lookup hlookup)

theorem Sound.step (h : Sound buckets c.now) : Sound (step opts buckets c) c.now := by
  have hpruned := h.prune c.now
  unfold RateLimit.step
  rw [consume_eq]
  refine ⟨Dict.nodup_set hpruned.keys _ _, fun e he => ?_⟩
  rcases Dict.mem_set hpruned.keys he with rfl | ⟨he, -⟩
  · exact (hpruned.get opts c.key).take (rate_nonneg opts) opts.burst_nonneg
  · exact hpruned.buckets e he

/-- What the key could take at once. -/
def tokensOf (opts : RateLimitOptions) (buckets : Buckets) (key : String) (now : ℚ) : ℚ :=
  ((buckets.lookup key).getD (.full opts.burst now)).level (opts.ratePerSec / 1000) opts.burst now

theorem tokensOf_le (opts : RateLimitOptions) (buckets : Buckets) (key : String) (now : ℚ) :
    tokensOf opts buckets key now ≤ opts.burst := TokenBucket.level_le_burst _ _ _ _

variable (opts key) in
theorem tokensOf_nonneg (h : Sound buckets s) : 0 ≤ tokensOf opts buckets key s :=
  TokenBucket.level_nonneg (rate_nonneg opts) opts.burst_nonneg (h.get opts key)

theorem tokensOf_none (hlookup : buckets.lookup key = none) (now : ℚ) :
    tokensOf opts buckets key now = opts.burst := by
  unfold tokensOf
  rw [hlookup]
  exact TokenBucket.level_full _ _ _

variable (opts key buckets) in
/-- With time the tokens grow at the rate at most. -/
theorem tokensOf_later (hst : s ≤ t) :
    tokensOf opts buckets key t ≤
      tokensOf opts buckets key s + opts.ratePerSec / 1000 * (t - s) := by
  cases hlookup : buckets.lookup key with
  | none =>
      rw [tokensOf_none hlookup, tokensOf_none hlookup]
      exact le_add_of_nonneg_right (mul_nonneg (rate_nonneg opts) (sub_nonneg.mpr hst))
  | some b =>
      unfold tokensOf
      rw [hlookup]
      exact TokenBucket.level_le_add (rate_nonneg opts) hst

variable (opts key) in
/-- Only for a key that is dropped, pruning changes anything. -/
theorem tokensOf_prune (h : Sound buckets t) : tokensOf opts (prune t buckets) key t ≤
    tokensOf opts buckets key t + if evicts buckets t key then opts.burst else 0 := by
  have hnonneg := tokensOf_nonneg opts key h
  cases hpruned : (prune t buckets).lookup key with
  | some b =>
      have hlookup : buckets.lookup key = some b := Dict.lookup_of_mem h.keys
        ((prune_sublist t buckets).subset (Dict.mem_of_lookup hpruned))
      have hkept : evicts buckets t key = false := by simp [evicts, hpruned]
      unfold tokensOf
      rw [hpruned, hlookup, hkept, if_neg (by decide), add_zero]
  | none =>
      rw [tokensOf_none hpruned]
      cases hlookup : buckets.lookup key with
      | none =>
          rw [tokensOf_none hlookup]
          refine le_add_of_nonneg_right ?_
          split
          · exact opts.burst_nonneg
          · exact le_rfl
      | some b =>
          have hdropped : evicts buckets t key = true := by simp [evicts, hpruned, hlookup]
          rw [hdropped, if_pos rfl]
          linarith

/-- A call takes a token of its key, and of no other. -/
theorem tokensOf_consume : tokensOf opts (step opts buckets c) key c.now +
    (if c.key = key ∧ (consume opts buckets c).2 = true then 1 else 0) =
      tokensOf opts (prune c.now buckets) key c.now := by
  unfold step
  rw [consume_eq]
  dsimp only
  by_cases hkey : c.key = key
  · subst hkey
    have htake := TokenBucket.level_take (opts.ratePerSec / 1000) opts.burst
      (((prune c.now buckets).lookup c.key).getD (.full opts.burst c.now)) c.now
    unfold tokensOf
    rw [Dict.lookup_set, if_pos rfl, Option.getD_some, ← htake]
    simp
  · unfold tokensOf
    rw [Dict.lookup_set, if_neg (Ne.symm hkey), if_neg fun h => hkey h.1, add_zero]

variable (opts key) in
/-- **Step lemma.** A call at the end of an interval: what it takes is paid for by the tokens, the
refill and a dropped bucket. -/
theorem step_pays (h : Sound buckets s) (hsc : s ≤ c.now) :
    tokensOf opts (step opts buckets c) key c.now +
      (if c.key = key ∧ (consume opts buckets c).2 = true then 1 else 0) ≤
    tokensOf opts buckets key s + opts.ratePerSec / 1000 * (c.now - s) +
      if evicts buckets c.now key then opts.burst else 0 := by
  rw [tokensOf_consume]
  have hpruned := tokensOf_prune opts key (h.later hsc)
  have hlater := tokensOf_later opts buckets key hsc
  linarith

/-! ## Windows -/

theorem history_cons (calls : List Call) : history opts buckets (c :: calls) =
    ⟨c.now, c.key, (consume opts buckets c).2, evicts buckets c.now⟩ ::
      history opts (step opts buckets c) calls := rfl

theorem allowedIn_cons (v : Verdict) (h : List Verdict) (hs : s ≤ v.now) (ht : v.now ≤ t) :
    (allowedIn (v :: h) key s t : ℚ) =
      (if v.key = key ∧ v.allowed = true then 1 else 0) + allowedIn h key s t := by
  unfold allowedIn
  rw [List.countP_cons, Nat.cast_add, add_comm]
  congr 1
  simp [hs, ht]

theorem evictionsIn_cons (v : Verdict) (h : List Verdict) (hs : s ≤ v.now) (ht : v.now ≤ t) :
    (evictionsIn (v :: h) key s t : ℚ) =
      (if v.evicted key then 1 else 0) + evictionsIn h key s t := by
  unfold evictionsIn
  rw [List.countP_cons, Nat.cast_add, add_comm]
  congr 1
  simp [hs, ht]

theorem allowedIn_append (h h' : List Verdict) :
    allowedIn (h ++ h') key s t = allowedIn h key s t + allowedIn h' key s t :=
  List.countP_append

/-- Calls outside the window do not count. -/
theorem allowedIn_cons_of_not (v : Verdict) (h : List Verdict) (hout : ¬ (s ≤ v.now ∧ v.now ≤ t)) :
    allowedIn (v :: h) key s t = allowedIn h key s t := by
  unfold allowedIn
  rw [List.countP_cons_of_neg (by simp [hout])]

theorem evictionsIn_cons_of_not (v : Verdict) (h : List Verdict)
    (hout : ¬ (s ≤ v.now ∧ v.now ≤ t)) :
    evictionsIn (v :: h) key s t = evictionsIn h key s t := by
  unfold evictionsIn
  rw [List.countP_cons_of_neg (by simp [hout])]

theorem allowedIn_after {calls : List Call} (h : ∀ c ∈ calls, t < c.now) :
    allowedIn (history opts buckets calls) key s t = 0 := by
  induction calls generalizing buckets with
  | nil => rfl
  | cons c calls ih =>
      have hout : ¬ (s ≤ c.now ∧ c.now ≤ t) := fun hin =>
        absurd hin.2 (not_le.mpr (h c List.mem_cons_self))
      rw [history_cons, allowedIn_cons_of_not _ _ hout]
      exact ih fun c' hc' => h c' (List.mem_cons_of_mem _ hc')

variable (opts key) in
/-- **Run lemma.** From a time on, the tokens of the key, the refill and the dropped buckets pay for
what is allowed. -/
theorem allowedIn_le {calls : List Call} (hsorted : calls.Pairwise fun a b => a.now ≤ b.now)
    {s' : ℚ} (hfrom : ∀ c ∈ calls, s' ≤ c.now) (hsound : Sound buckets s') (hs : s ≤ s')
    (ht : s' ≤ t) :
    (allowedIn (history opts buckets calls) key s t : ℚ) ≤
      tokensOf opts buckets key s' + opts.ratePerSec / 1000 * (t - s') +
        evictionsIn (history opts buckets calls) key s t * opts.burst := by
  have hrate := rate_nonneg opts
  induction calls generalizing buckets s' with
  | nil =>
      have htokens := tokensOf_nonneg opts key hsound
      have hrefill := mul_nonneg hrate (sub_nonneg.mpr ht)
      show ((0 : Nat) : ℚ) ≤ _ + ((0 : Nat) : ℚ) * _
      rw [Nat.cast_zero, zero_mul]
      linarith
  | cons c calls ih =>
      have hc := hfrom c List.mem_cons_self
      obtain ⟨hnext, hsorted⟩ := List.pairwise_cons.mp hsorted
      by_cases hin : c.now ≤ t
      · have hpays := step_pays opts key hsound hc
        have hsound' : Sound (step opts buckets c) c.now := (hsound.later hc).step
        have hrest := ih hsorted hnext hsound' (hs.trans hc) hin
        rw [history_cons, allowedIn_cons _ _ (hs.trans hc) hin,
          evictionsIn_cons _ _ (hs.trans hc) hin, add_mul]
        dsimp only
        have hcost : (if evicts buckets c.now key then opts.burst else 0) =
            (if evicts buckets c.now key = true then (1 : ℚ) else 0) * opts.burst := by
          split <;> ring
        have hsplit : opts.ratePerSec / 1000 * (t - s') =
            opts.ratePerSec / 1000 * (c.now - s') + opts.ratePerSec / 1000 * (t - c.now) := by
          ring
        rw [hcost] at hpays
        linarith
      · have hafter : ∀ c' ∈ c :: calls, t < c'.now := by
          intro c' hc'
          rcases List.mem_cons.mp hc' with rfl | hc'
          · exact not_le.mp hin
          · exact (not_le.mp hin).trans_le (hnext c' hc')
        rw [allowedIn_after hafter, Nat.cast_zero]
        have htokens := tokensOf_nonneg opts key hsound
        have hrefill := mul_nonneg hrate (sub_nonneg.mpr ht)
        have hdropped := mul_nonneg (Nat.cast_nonneg (α := ℚ)
          (evictionsIn (history opts buckets (c :: calls)) key s t)) opts.burst_nonneg
        linarith

variable (opts key) in
/-- Over a window that begins anywhere, a full bucket, the refill and the dropped buckets pay. -/
theorem allowedIn_window {calls : List Call}
    (hsorted : calls.Pairwise fun a b => a.now ≤ b.now)
    (hsound : ∀ c ∈ calls, Sound buckets c.now) (hst : s ≤ t) :
    (allowedIn (history opts buckets calls) key s t : ℚ) ≤
      (1 + evictionsIn (history opts buckets calls) key s t) * opts.burst +
        opts.ratePerSec / 1000 * (t - s) := by
  have hrate := rate_nonneg opts
  have hrefill := mul_nonneg hrate (sub_nonneg.mpr hst)
  have hbound : ∀ h : List Verdict, (0 : ℚ) ≤
      (1 + evictionsIn h key s t) * opts.burst + opts.ratePerSec / 1000 * (t - s) := fun h =>
    add_nonneg (mul_nonneg (by positivity) opts.burst_nonneg) hrefill
  induction calls generalizing buckets with
  | nil => exact (Nat.cast_zero (R := ℚ)).le.trans (hbound _)
  | cons c calls ih =>
      obtain ⟨hnext, hrest⟩ := List.pairwise_cons.mp hsorted
      have hc := hsound c List.mem_cons_self
      by_cases hbefore : c.now < s
      · have hout : ¬ (s ≤ c.now ∧ c.now ≤ t) := fun hin => absurd hin.1 (not_le.mpr hbefore)
        rw [history_cons, allowedIn_cons_of_not _ _ hout, evictionsIn_cons_of_not _ _ hout]
        exact ih hrest fun c' hc' => hc.step.later (hnext c' hc')
      · by_cases hin : c.now ≤ t
        · have hfrom : ∀ c' ∈ c :: calls, c.now ≤ c'.now := by
            intro c' hc'
            rcases List.mem_cons.mp hc' with rfl | hc'
            · exact le_rfl
            · exact hnext c' hc'
          have hle := allowedIn_le opts key hsorted hfrom hc (not_lt.mp hbefore) hin
          have hfull := tokensOf_le opts buckets key c.now
          have hlater : opts.ratePerSec / 1000 * (t - c.now) ≤ opts.ratePerSec / 1000 * (t - s) :=
            mul_le_mul_of_nonneg_left (by linarith [not_lt.mp hbefore]) hrate
          rw [add_mul, one_mul]
          linarith
        · have hafter : ∀ c' ∈ c :: calls, t < c'.now := by
            intro c' hc'
            rcases List.mem_cons.mp hc' with rfl | hc'
            · exact not_le.mp hin
            · exact (not_le.mp hin).trans_le (hnext c' hc')
          rw [allowedIn_after hafter]
          exact (Nat.cast_zero (R := ℚ)).le.trans (hbound _)

end

/-- **The limit of a key.** Over any window of any calls in the order of their times, a key is
allowed what its bucket holds at most, as often over as its bucket was dropped in the window, and
the refill; and the map has one bucket more than its bound at most. -/
theorem rate_limit_holds (opts : RateLimitOptions) (calls : List Call)
    (hsorted : calls.Pairwise fun a b => a.now ≤ b.now) :
    (∀ key s t, s ≤ t → (allowedIn (history opts [] calls) key s t : ℚ) ≤
      (1 + evictionsIn (history opts [] calls) key s t) * opts.burst +
        opts.ratePerSec * ((t - s) / 1000)) ∧
    (Run.run (step opts) [] calls).length ≤ maxBuckets + 1 := by
  refine ⟨fun key s t hst => ?_, length_run opts calls⟩
  have hwindow := allowedIn_window opts key hsorted (fun c _ => sound_empty c.now) hst
  have hrefill : opts.ratePerSec * ((t - s) / 1000) = opts.ratePerSec / 1000 * (t - s) := by ring
  rw [hrefill]
  exact hwindow

/-- Two sign-ins within the time of one refill. -/
theorem rate_limit_holds_twice :
    (allowedIn (history authLimit [] [⟨0, "k"⟩, ⟨12000, "k"⟩]) "k" 0 12000 : ℚ) ≤
      (1 + evictionsIn (history authLimit [] [⟨0, "k"⟩, ⟨12000, "k"⟩]) "k" 0 12000) *
        authLimit.burst + authLimit.ratePerSec * ((12000 - 0) / 1000) :=
  (rate_limit_holds authLimit [⟨0, "k"⟩, ⟨12000, "k"⟩] (by decide +kernel)).1 "k" 0 12000
    (by norm_num)

/-! ## A flood of other keys -/

section

variable {opts : RateLimitOptions} {buckets : Buckets}

/-- A key without a bucket is allowed its call. -/
theorem consume_fresh (hburst : 1 ≤ opts.burst) {c : Call}
    (h : (prune c.now buckets).lookup c.key = none) : consume opts buckets c =
      ((prune c.now buckets).set c.key ⟨opts.burst - 1, c.now⟩, true) := by
  rw [consume_eq, h]
  dsimp only [Option.getD_none]
  have htake : (TokenBucket.full opts.burst c.now).take (opts.ratePerSec / 1000) opts.burst c.now =
      (⟨opts.burst - 1, c.now⟩, true) := by
    unfold TokenBucket.take
    rw [TokenBucket.level_full]
    exact if_neg (not_lt.mpr hburst)
  rw [htake]

theorem lookup_eq_none {d : Buckets} {key : String} (h : key ∉ d.map Prod.fst) :
    d.lookup key = none := by
  cases hlookup : d.lookup key with
  | none => rfl
  | some b => exact absurd (List.mem_map.mpr ⟨_, Dict.mem_of_lookup hlookup, rfl⟩) h

/-- As long as there is room, every new key adds its bucket at the end. -/
theorem run_flood (hburst : 1 ≤ opts.burst) (now : ℚ) {keys : List String}
    (hkeys : (buckets.map Prod.fst ++ keys).Nodup)
    (hroom : buckets.length + keys.length ≤ maxBuckets + 1) :
    Run.run (step opts) buckets (keys.map fun k => ⟨now, k⟩) =
      buckets ++ keys.map fun k => (k, ⟨opts.burst - 1, now⟩) := by
  induction keys generalizing buckets with
  | nil => exact (List.append_nil _).symm
  | cons k keys ih =>
      have hfresh : k ∉ buckets.map Prod.fst := fun hmem =>
        (List.nodup_append.mp hkeys).2.2 k hmem k List.mem_cons_self rfl
      have hpruned : prune now buckets = buckets := by
        refine if_pos ?_
        rw [List.length_cons] at hroom
        omega
      have hstep : step opts buckets ⟨now, k⟩ = buckets ++ [(k, ⟨opts.burst - 1, now⟩)] := by
        unfold step
        rw [consume_fresh hburst (by rw [hpruned]; exact lookup_eq_none hfresh), hpruned]
        exact Dict.set_fresh hfresh _
      rw [List.map_cons, Run.run_cons, hstep, ih ?_ ?_, List.append_assoc]
      · rfl
      · rwa [List.map_append, List.map_singleton, List.append_assoc]
      · rw [List.length_append, List.length_singleton]
        rw [List.length_cons] at hroom
        omega

end

/-- The options of the test of independent keys. -/
def oneShot : RateLimitOptions := ⟨0, 1, le_rfl, zero_le_one⟩

theorem dropOldest_of_le {d : Buckets} (h : d.length ≤ maxBuckets) : dropOldest d = d := by
  cases d with
  | nil => rfl
  | cons e rest => exact if_neg (not_lt.mpr h)

section

variable {keys : List String} (hkeys : ("k" :: keys).Nodup) (hlength : keys.length = maxBuckets)

include hkeys hlength

/-- After as many other keys as the map has room for, the next call drops the first one. -/
theorem prune_flood (tokens : ℚ) : (prune 0 ((("k" :: keys).map fun k =>
    (k, (⟨tokens, 0⟩ : Bucket))))).lookup "k" = none := by
  have hrest : (keys.map fun k => (k, (⟨tokens, 0⟩ : Bucket))).length = maxBuckets := by
    rw [List.length_map, hlength]
  have hover : ¬ (("k", (⟨tokens, 0⟩ : Bucket)) :: keys.map fun k =>
      (k, (⟨tokens, 0⟩ : Bucket))).length ≤ maxBuckets := by
    rw [List.length_cons, hrest]
    omega
  have hactive : ∀ e ∈ (("k" :: keys).map fun k => (k, (⟨tokens, 0⟩ : Bucket))),
      (!decide (idleMs < 0 - e.2.last)) = true := by
    intro e he
    obtain ⟨_, -, rfl⟩ := List.mem_map.mp he
    show (!decide (idleMs < (0 : ℚ) - 0)) = true
    decide +kernel
  unfold prune
  rw [List.filter_eq_self.mpr hactive, List.map_cons, if_neg hover, dropOldest,
    if_pos (not_le.mp hover), dropOldest_of_le hrest.le]
  refine lookup_eq_none ?_
  rw [List.map_map]
  show "k" ∉ keys.map id
  rw [List.map_id]
  exact (List.nodup_cons.mp hkeys).1

/-- Both calls of the key are allowed. -/
theorem allowedIn_flood : (2 : ℚ) ≤ allowedIn (history oneShot []
    ((("k" :: keys).map fun k => ⟨0, k⟩) ++ [⟨0, "k"⟩])) "k" 0 0 := by
  have hburst : 1 ≤ oneShot.burst := le_refl (1 : ℚ)
  have hrun : Run.run (step oneShot) [] (("k" :: keys).map fun k => ⟨0, k⟩) =
      ("k" :: keys).map fun k => (k, ⟨oneShot.burst - 1, 0⟩) := by
    rw [run_flood hburst 0 hkeys (by rw [List.length_cons, hlength]; simp)]
    rfl
  have hfirst : (consume oneShot [] ⟨0, "k"⟩).2 = true := by rw [consume_fresh hburst rfl]
  have hlast : (consume oneShot (("k" :: keys).map fun k => (k, ⟨oneShot.burst - 1, 0⟩))
      ⟨0, "k"⟩).2 = true := by
    rw [consume_fresh hburst (prune_flood hkeys hlength _)]
  unfold history
  rw [Run.history_append, hrun, List.map_cons]
  show (2 : ℚ) ≤ allowedIn (⟨0, "k", (consume oneShot [] ⟨0, "k"⟩).2, _⟩ :: ([] ++ _) ++
    [⟨0, "k", (consume oneShot (("k" :: keys).map fun k => (k, ⟨oneShot.burst - 1, 0⟩))
      ⟨0, "k"⟩).2, _⟩]) "k" 0 0
  rw [hfirst, hlast]
  have hcount : ∀ (evicted : String → Bool) (h : List Verdict),
      (1 : ℚ) ≤ allowedIn (⟨0, "k", true, evicted⟩ :: h) "k" 0 0 := by
    intro evicted h
    have hrest : (0 : ℚ) ≤ allowedIn h "k" 0 0 := Nat.cast_nonneg _
    rw [allowedIn_cons _ _ le_rfl le_rfl, if_pos ⟨rfl, rfl⟩]
    exact le_add_of_nonneg_right hrest
  rw [allowedIn_append, Nat.cast_add, ← one_add_one_eq_two]
  exact add_le_add (hcount _ _) (hcount _ _)

end

/-- As many other keys as the map has room for. -/
def others (n : Nat) : List String := (List.range n).map fun i => String.ofList (.replicate i 'x')

theorem nodup_flood (n : Nat) : ("k" :: others n).Nodup := by
  have hinj : Function.Injective fun i => String.ofList (List.replicate i 'x') := by
    intro i j h
    have hlist := congrArg (fun s => s.toList.length) h
    simpa using hlist
  refine List.nodup_cons.mpr ⟨fun hmem => ?_, List.nodup_range.map hinj⟩
  obtain ⟨i, -, heq⟩ := List.mem_map.mp hmem
  have hk : 'k' ∈ List.replicate i 'x' := by
    have hlist := congrArg String.toList heq
    rw [String.toList_ofList] at hlist
    rw [hlist]
    decide
  exact absurd (List.eq_of_mem_replicate hk) (by decide)

/-- **The flood.** One call with a key, one with each of ten thousand others, and another one with
the key, all at once: both calls with the key are allowed. -/
theorem flood_resets : ∃ calls : List Call, calls.Pairwise (fun a b => a.now ≤ b.now) ∧
    ¬ (allowedIn (history oneShot [] calls) "k" 0 0 : ℚ) ≤
      oneShot.burst + oneShot.ratePerSec * ((0 - 0) / 1000) := by
  have hlength : (others maxBuckets).length = maxBuckets := by
    rw [others, List.length_map, List.length_range]
  have htwo := allowedIn_flood (nodup_flood maxBuckets) hlength
  refine ⟨(("k" :: others maxBuckets).map fun k => ⟨0, k⟩) ++ [⟨0, "k"⟩], ?_, fun hle => ?_⟩
  · have hzero : ∀ c ∈ (("k" :: others maxBuckets).map fun k => (⟨0, k⟩ : Call)) ++ [⟨0, "k"⟩],
        c.now = 0 := by
      intro c hc
      rcases List.mem_append.mp hc with hc | hc
      · obtain ⟨_, -, rfl⟩ := List.mem_map.mp hc
        rfl
      · rw [List.mem_singleton.mp hc]
    exact List.pairwise_of_forall_mem_list fun a ha b hb => by rw [hzero a ha, hzero b hb]
  · have hone : oneShot.burst + oneShot.ratePerSec * ((0 - 0) / 1000) = 1 := by
      decide +kernel
    rw [hone] at hle
    exact absurd (htwo.trans hle) (by norm_num)

end MassDeployment.RateLimit
