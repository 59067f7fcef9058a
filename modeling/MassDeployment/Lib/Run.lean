import Mathlib.Data.List.Basic
import Mathlib.Order.Defs.Unbundled

set_option autoImplicit false

/-! # Runs of a total step function

A system is a function `step : σ → ι → σ`. The events `ι` carry every choice the outside
world makes, and an event that is not enabled leaves the state as it is; a run is then the
fold of a list of events, and *every interleaving* is *every list of events*.

`Along step C s es` says that every event of the run satisfied `C` in the state it met.
The rules of this file turn a fact about one step into a fact about every run, once for
invariants and once for preorders.
-/

namespace Run

variable {σ ι : Type} {step : σ → ι → σ}

/-- The state after the events `es`. -/
def run (step : σ → ι → σ) (s : σ) (es : List ι) : σ := es.foldl step s

@[simp] theorem run_nil (s : σ) : run step s [] = s := rfl

@[simp] theorem run_cons (s : σ) (e : ι) (es : List ι) :
    run step s (e :: es) = run step (step s e) es := rfl

theorem run_append (s : σ) (es es' : List ι) :
    run step s (es ++ es') = run step (run step s es) es' := List.foldl_append ..

/-- Every event met a state in which it satisfied `C`. -/
def Along (step : σ → ι → σ) (C : σ → ι → Prop) : σ → List ι → Prop
  | _, [] => True
  | s, e :: es => C s e ∧ Along step C (step s e) es

instance decidableAlong (C : σ → ι → Prop) [∀ s e, Decidable (C s e)] :
    ∀ (s : σ) (es : List ι), Decidable (Along step C s es)
  | _, [] => isTrue trivial
  | s, e :: es => @instDecidableAnd _ _ _ (decidableAlong C (step s e) es)

@[simp] theorem along_nil (C : σ → ι → Prop) (s : σ) : Along step C s [] := trivial

@[simp] theorem along_cons (C : σ → ι → Prop) (s : σ) (e : ι) (es : List ι) :
    Along step C s (e :: es) ↔ C s e ∧ Along step C (step s e) es := Iff.rfl

theorem along_append {C : σ → ι → Prop} {s : σ} {es es' : List ι} :
    Along step C s (es ++ es') ↔ Along step C s es ∧ Along step C (run step s es) es' := by
  induction es generalizing s with
  | nil => simp
  | cons e es ih => simp [ih, and_assoc]

theorem along_of_forall {C : σ → ι → Prop} (h : ∀ s e, C s e) (s : σ) (es : List ι) :
    Along step C s es := by
  induction es generalizing s with
  | nil => trivial
  | cons e es ih => exact ⟨h s e, ih _⟩

theorem Along.imp {C C' : σ → ι → Prop} (h : ∀ s e, C s e → C' s e) {s : σ} {es : List ι}
    (ha : Along step C s es) : Along step C' s es := by
  induction es generalizing s with
  | nil => trivial
  | cons e es ih => exact ⟨h _ _ ha.1, ih ha.2⟩

/-- What every event satisfies by itself may be added to what it satisfies where it happens. -/
theorem Along.and {C : σ → ι → Prop} {D : ι → Prop} {s : σ} {es : List ι}
    (ha : Along step C s es) (hd : ∀ e ∈ es, D e) :
    Along step (fun s e => C s e ∧ D e) s es := by
  induction es generalizing s with
  | nil => trivial
  | cons e es ih =>
      exact ⟨⟨ha.1, hd e (by simp)⟩, ih ha.2 fun e' he' => hd e' (List.mem_cons_of_mem _ he')⟩

/-- **The invariant rule.** What holds at the start and is kept by every step that satisfies
`C` holds at the end of every run along `C`. -/
theorem invariant {C : σ → ι → Prop} {I : σ → Prop}
    (hstep : ∀ s e, I s → C s e → I (step s e)) {s : σ} {es : List ι} (hs : I s)
    (ha : Along step C s es) : I (run step s es) := by
  induction es generalizing s with
  | nil => exact hs
  | cons e es ih => exact ih (hstep s e hs ha.1) ha.2

/-- The invariant rule for runs of arbitrary events. -/
theorem invariant_all {I : σ → Prop} (hstep : ∀ s e, I s → I (step s e)) {s : σ}
    {es : List ι} (hs : I s) : I (run step s es) := by
  induction es generalizing s with
  | nil => exact hs
  | cons e es ih => exact ih (hstep s e hs)

/-- **The preorder rule.** A preorder every step moves along relates the ends of a run. -/
theorem preorder {R : σ → σ → Prop} [IsPreorder σ R] (hstep : ∀ s e, R s (step s e)) (s : σ)
    (es : List ι) : R s (run step s es) := by
  induction es generalizing s with
  | nil => exact refl_of R s
  | cons e es ih => exact trans_of R (hstep s e) (ih (step s e))

/-- How many events of the run satisfied `C` in the state they met. -/
def countAlong (step : σ → ι → σ) (C : σ → ι → Prop) [∀ s e, Decidable (C s e)] :
    σ → List ι → Nat
  | _, [] => 0
  | s, e :: es => (if C s e then 1 else 0) + countAlong step C (step s e) es

theorem countAlong_eq_zero {C : σ → ι → Prop} [∀ s e, Decidable (C s e)] {I : σ → Prop}
    (hstep : ∀ s e, I s → I (step s e)) (hnone : ∀ s e, I s → ¬ C s e) {s : σ} {es : List ι}
    (hs : I s) : countAlong step C s es = 0 := by
  induction es generalizing s with
  | nil => rfl
  | cons e es ih => simp [countAlong, hnone s e hs, ih (hstep s e hs)]

/-- **The once rule.** An event that satisfies `C` establishes `I`, `I` lasts, and under `I`
no event satisfies `C`: then `C` is satisfied at most once in every run. -/
theorem countAlong_le_one {C : σ → ι → Prop} [∀ s e, Decidable (C s e)] {J I : σ → Prop}
    (hJ : ∀ s e, J s → J (step s e)) (hmake : ∀ s e, J s → C s e → I (step s e))
    (hstep : ∀ s e, I s → I (step s e)) (hnone : ∀ s e, I s → ¬ C s e) {s : σ} {es : List ι}
    (hs : J s) : countAlong step C s es ≤ 1 := by
  induction es generalizing s with
  | nil => simp [countAlong]
  | cons e es ih =>
      by_cases hc : C s e
      · simp [countAlong, hc, countAlong_eq_zero hstep hnone (hmake s e hs hc)]
      · simpa [countAlong, hc] using ih (hJ s e hs)

/-- **The potential rule.** Along `D` no event raises the potential, and those that satisfy `C`
lower it: the potential at the start bounds how often `C` is satisfied. -/
theorem countAlong_add_le {C D : σ → ι → Prop} [∀ s e, Decidable (C s e)] {φ : σ → Int}
    (hkeep : ∀ s e, D s e → φ (step s e) ≤ φ s) (hpay : ∀ s e, D s e → C s e → φ (step s e) < φ s)
    {s : σ} {es : List ι} (ha : Along step D s es) :
    countAlong step C s es + φ (run step s es) ≤ φ s := by
  induction es generalizing s with
  | nil => simp [countAlong]
  | cons e es ih =>
      have hrest := ih ha.2
      rw [countAlong, run_cons]
      by_cases hc : C s e
      · have hlower := hpay s e ha.1 hc
        rw [if_pos hc]
        omega
      · have hlower := hkeep s e ha.1
        rw [if_neg hc]
        omega

/-- A run in which `C` is never satisfied. -/
theorem along_not_of_countAlong {C : σ → ι → Prop} [∀ s e, Decidable (C s e)] {s : σ}
    {es : List ι} (h : countAlong step C s es = 0) : Along step (fun s e => ¬ C s e) s es := by
  induction es generalizing s with
  | nil => trivial
  | cons e es ih =>
      by_cases hc : C s e
      · simp [countAlong, hc] at h
      · exact ⟨hc, ih (by simpa [countAlong, hc] using h)⟩

theorem Along.both {C D : σ → ι → Prop} {s : σ} {es : List ι} (hc : Along step C s es)
    (hd : Along step D s es) : Along step (fun s e => C s e ∧ D s e) s es := by
  induction es generalizing s with
  | nil => trivial
  | cons e es ih => exact ⟨⟨hc.1, hd.1⟩, ih hc.2 hd.2⟩

end Run
