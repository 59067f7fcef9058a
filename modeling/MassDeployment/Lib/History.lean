import Mathlib.Data.List.Induction
import MassDeployment.Lib.Run

set_option autoImplicit false

/-! # Histories

A run shows an observer a list of entries, one for each event that is of interest to him. A
statement of the form *the state is what the history says* is an invariant of the state and the
history together, which one step extends. For entries that are filed under a key, `latest` is
the last one under it.
-/

namespace Run

variable {σ ι ω κ : Type} {step : σ → ι → σ}

/-- What the events of a run show, in their order. -/
def history (step : σ → ι → σ) (see : σ → ι → Option ω) : σ → List ι → List ω
  | _, [] => []
  | s, e :: es => (see s e).toList ++ history step see (step s e) es

/-- **The history rule.** An invariant of the state and the history so far that every step along `C`
keeps, with its entry added to the history. -/
theorem history_along {see : σ → ι → Option ω} {C : σ → ι → Prop} {I : σ → List ω → Prop}
    (hstep : ∀ s e h, I s h → C s e → I (step s e) (h ++ (see s e).toList)) {s : σ} {h : List ω}
    (hs : I s h) {es : List ι} (ha : Along step C s es) :
    I (run step s es) (h ++ history step see s es) := by
  induction es generalizing s h with
  | nil =>
      rw [history, List.append_nil]
      exact hs
  | cons e es ih =>
      rw [history, ← List.append_assoc]
      exact ih (hstep s e h hs ha.1) ha.2

/-- The history rule for runs of arbitrary events. -/
theorem history_invariant {see : σ → ι → Option ω} {I : σ → List ω → Prop}
    (hstep : ∀ s e h, I s h → I (step s e) (h ++ (see s e).toList)) {s : σ} {h : List ω}
    (hs : I s h) (es : List ι) : I (run step s es) (h ++ history step see s es) :=
  history_along (C := fun _ _ => True) (fun s e h hs _ => hstep s e h hs) hs
    (along_of_forall (fun _ _ => trivial) s es)

theorem history_append {see : σ → ι → Option ω} (s : σ) (es es' : List ι) :
    history step see s (es ++ es') =
      history step see s es ++ history step see (run step s es) es' := by
  induction es generalizing s with
  | nil => rfl
  | cons e es ih =>
      rw [List.cons_append, history, history, ih, List.append_assoc]
      rfl

/-- **The origin rule.** What holds after a run and did not hold before it was brought about by an
event of the run, in the state that event met. -/
theorem exists_origin {M : σ → Prop} {C : σ → ι → Prop} {s : σ}
    (hstep : ∀ es e, M (step (run step s es) e) → M (run step s es) ∨ C (run step s es) e)
    (hs : ¬ M s) {es : List ι} (hm : M (run step s es)) :
    ∃ before e after, es = before ++ e :: after ∧ C (run step s before) e := by
  induction es using List.reverseRecOn with
  | nil => exact absurd hm hs
  | append_singleton es e ih =>
      rw [run_append, run_cons, run_nil] at hm
      rcases hstep es e hm with hbefore | hnow
      · obtain ⟨before, e', after, rfl, hc⟩ := ih hbefore
        exact ⟨before, e', after ++ [e], by rw [List.append_assoc]; rfl, hc⟩
      · exact ⟨es, e, [], rfl, hnow⟩

variable [DecidableEq κ]

/-- The latest entry under a key. -/
def latest (k : κ) (h : List (κ × ω)) : Option ω :=
  ((h.filter fun e => decide (e.1 = k)).getLast?).map Prod.snd

@[simp] theorem latest_nil (k : κ) : latest k ([] : List (κ × ω)) = none := rfl

theorem latest_append (k : κ) (h h' : List (κ × ω)) :
    latest k (h ++ h') = (latest k h').or (latest k h) := by
  rw [latest, List.filter_append, List.getLast?_append, Option.map_or]
  rfl

/-- An entry under the key is the latest one. -/
theorem latest_concat_self (k : κ) (h : List (κ × ω)) (w : ω) :
    latest k (h ++ [(k, w)]) = some w := by
  simp [latest]

/-- An entry under another key is not looked at. -/
theorem latest_concat_of_ne {k k' : κ} (hk : k ≠ k') (h : List (κ × ω)) (w : ω) :
    latest k (h ++ [(k', w)]) = latest k h := by
  simp [latest, Ne.symm hk]

theorem mem_of_latest {k : κ} {h : List (κ × ω)} {w : ω} (hw : latest k h = some w) :
    (k, w) ∈ h := by
  obtain ⟨⟨k', w'⟩, hlast, rfl⟩ := Option.map_eq_some_iff.mp hw
  obtain ⟨hmem, hkey⟩ := List.mem_filter.mp (List.mem_of_getLast? hlast)
  obtain rfl : k' = k := by simpa using hkey
  exact hmem

/-- A key with an entry has a latest one. -/
theorem exists_latest {k : κ} {h : List (κ × ω)} {w : ω} (hm : (k, w) ∈ h) :
    ∃ w', latest k h = some w' := by
  cases hl : latest k h with
  | some w' => exact ⟨w', rfl⟩
  | none =>
      rw [latest, Option.map_eq_none_iff, List.getLast?_eq_none_iff, List.filter_eq_nil_iff] at hl
      exact absurd (decide_eq_true rfl) (hl (k, w) hm)

/-- Where a later part of the history has an entry under the key, the latest one is in it. -/
theorem mem_of_latest_append {k : κ} {h h' : List (κ × ω)} {w : ω}
    (hw : latest k (h ++ h') = some w) (hk : ∃ e ∈ h', e.1 = k) : (k, w) ∈ h' := by
  obtain ⟨⟨k', w'⟩, he, rfl⟩ := hk
  obtain ⟨w', hl⟩ := exists_latest he
  rw [latest_append, hl, Option.some_or] at hw
  cases hw
  exact mem_of_latest hl

end Run
