import Mathlib.Algebra.Order.Ring.Defs
import Mathlib.Algebra.Order.Field.Basic
import Mathlib.Tactic.Linarith
import MassDeployment.Lib.Run

set_option autoImplicit false

/-! # Token buckets

A bucket holds tokens up to its capacity, is refilled at a rate, and every call takes one token.
What it holds is the potential that pays for the calls: it grows with the time and shrinks with
every token that is taken.
-/

variable {K : Type*} [Field K] [LinearOrder K]

/-- The tokens at the time of the last call. -/
structure TokenBucket (K : Type*) where
  tokens : K
  last : K

namespace TokenBucket

/-- A bucket that nobody has used. -/
def full (burst now : K) : TokenBucket K := ⟨burst, now⟩

/-- What the bucket holds at a time. -/
def level (rate burst : K) (b : TokenBucket K) (now : K) : K :=
  min burst (b.tokens + rate * (now - b.last))

/-- Take a token if there is one. -/
def take (rate burst : K) (b : TokenBucket K) (now : K) : TokenBucket K × Bool :=
  let tokens := b.level rate burst now
  if tokens < 1 then (⟨tokens, now⟩, false) else (⟨tokens - 1, now⟩, true)

/-- The bucket owes nothing and was last used before. -/
structure Sound (b : TokenBucket K) (now : K) : Prop where
  tokens : 0 ≤ b.tokens
  last : b.last ≤ now

variable {rate burst : K} {b : TokenBucket K} {s t : K}

theorem level_le_burst (rate burst : K) (b : TokenBucket K) (now : K) :
    b.level rate burst now ≤ burst := min_le_left _ _

theorem level_full (rate burst now : K) : (full burst now).level rate burst now = burst := by
  simp [level, full]

theorem Sound.later (h : b.Sound s) (hst : s ≤ t) : b.Sound t := ⟨h.tokens, h.last.trans hst⟩

variable [IsStrictOrderedRing K]

theorem level_nonneg (hrate : 0 ≤ rate) (hburst : 0 ≤ burst) (h : b.Sound t) :
    0 ≤ b.level rate burst t := by
  have hrefill : 0 ≤ rate * (t - b.last) := mul_nonneg hrate (sub_nonneg.mpr h.last)
  exact le_min hburst (add_nonneg h.tokens hrefill)

/-- The level grows at the rate at most. -/
theorem level_le_add (hrate : 0 ≤ rate) (hst : s ≤ t) :
    b.level rate burst t ≤ b.level rate burst s + rate * (t - s) := by
  have hrefill : 0 ≤ rate * (t - s) := mul_nonneg hrate (sub_nonneg.mpr hst)
  unfold level
  rcases le_total burst (b.tokens + rate * (s - b.last)) with hfull | hpart
  · rw [min_eq_left hfull]
    have hle := min_le_left burst (b.tokens + rate * (t - b.last))
    linarith
  · rw [min_eq_right hpart]
    have hle := min_le_right burst (b.tokens + rate * (t - b.last))
    have hsplit : rate * (t - b.last) = rate * (s - b.last) + rate * (t - s) := by
      rw [← mul_add, sub_add_sub_comm, add_comm s t, add_sub_add_right_eq_sub]
    linarith

theorem Sound.take (hrate : 0 ≤ rate) (hburst : 0 ≤ burst) (h : b.Sound t) :
    (b.take rate burst t).1.Sound t := by
  have hlevel := level_nonneg hrate hburst h
  unfold TokenBucket.take
  dsimp only
  split
  · exact ⟨hlevel, le_rfl⟩
  · rename_i hone
    exact ⟨sub_nonneg.mpr (not_lt.mp hone), le_rfl⟩

/-- **A call pays.** What the bucket holds after a call, and the token that was taken, is what it
held. -/
theorem level_take (rate burst : K) (b : TokenBucket K) (now : K) :
    (b.take rate burst now).1.level rate burst now +
      (if (b.take rate burst now).2 then 1 else 0) = b.level rate burst now := by
  have hle := level_le_burst rate burst b now
  unfold TokenBucket.take
  dsimp only
  split
  · simp only [level, sub_self, mul_zero, add_zero]
    rw [if_neg (by decide), add_zero]
    exact min_eq_right hle
  · rw [if_pos rfl]
    simp only [level, sub_self, mul_zero, add_zero] at hle ⊢
    rw [min_eq_right (by linarith), sub_add_cancel]

/-! ## Systems that pay out of a bucket -/

section

variable {σ ι : Type} {step : σ → ι → σ} {C : σ → ι → Prop} [∀ x e, Decidable (C x e)]
variable {bucket : σ → TokenBucket K} {clock : σ → K}

/-- **Runs pay.** In a system whose clock does not go back and in which every event that satisfies
`C` takes a token of the bucket, and no event puts one in, a run has as many such events as the
bucket held and was refilled by. -/
theorem countAlong_le (hrate : 0 ≤ rate) (hburst : 0 ≤ burst)
    (hpay : ∀ x e, (bucket x).Sound (clock x) → clock x ≤ clock (step x e) ∧
      (bucket (step x e)).Sound (clock x) ∧
      (bucket (step x e)).level rate burst (clock x) + (if C x e then 1 else 0) ≤
        (bucket x).level rate burst (clock x))
    {x : σ} (hx : (bucket x).Sound (clock x)) (es : List ι) :
    (Run.countAlong step C x es : K) ≤
      burst + rate * (clock (Run.run step x es) - clock x) := by
  -- what is left at the end, with what was taken, is what there was at first and what came in
  have key : 0 ≤ (bucket (Run.run step x es)).level rate burst (clock (Run.run step x es)) ∧
      (Run.countAlong step C x es : K) +
        (bucket (Run.run step x es)).level rate burst (clock (Run.run step x es)) ≤
      (bucket x).level rate burst (clock x) + rate * (clock (Run.run step x es) - clock x) := by
    induction es generalizing x with
    | nil =>
        refine ⟨level_nonneg hrate hburst hx, ?_⟩
        simp [Run.countAlong]
    | cons e es ih =>
        obtain ⟨hclock, hsound, hpaid⟩ := hpay x e hx
        obtain ⟨hleft, hrest⟩ := ih (hsound.later hclock)
        have hrefill : (bucket (step x e)).level rate burst (clock (step x e)) ≤
            (bucket (step x e)).level rate burst (clock x) +
              rate * (clock (step x e) - clock x) :=
          level_le_add hrate hclock
        refine ⟨hleft, ?_⟩
        simp only [Run.countAlong, Run.run_cons, Nat.cast_add, Nat.cast_ite, Nat.cast_one,
          Nat.cast_zero] at hrest ⊢
        rw [mul_sub] at hrest hrefill ⊢
        linarith
  have hfull := level_le_burst rate burst (bucket x) (clock x)
  linarith [key.1, key.2]

end

end TokenBucket
