import Mathlib.Data.List.Basic
import MassDeployment.Lib.Run

set_option autoImplicit false

/-! # Entries a window apart

A system records entries under keys, each at its time, and looks into its memory first: an entry is
recorded where all that is held under its key is a window old. `Adds` is what may be recorded at one
time, as a whole; it composes, so a loop that records one entry after the other adds them all. What
a run records is a window apart under every key, where whatever was recorded stays held, and this
may be for another reason than the memory having it.
-/

namespace Dedup

variable {ω κ : Type} (key : ω → κ) (time : ω → Nat) (window : Nat)

/-- The entries may be recorded at a time, by what the memory has. -/
structure Adds (now : Nat) (memory added : List ω) : Prop where
  stamped : ∀ r ∈ added, time r = now
  due : ∀ r ∈ added, ∀ a ∈ memory, key a = key r → time a + window ≤ now
  distinct : added.Pairwise fun a b => key a ≠ key b

/-- Entries under one key are a window apart. -/
def Spaced (entries : List ω) : Prop :=
  entries.Pairwise fun a b => key a = key b → time a + window ≤ time b

variable {key time window} {now : Nat} {memory added added' : List ω}

theorem Adds.nil : Adds key time window now memory [] := ⟨nofun, nofun, .nil⟩

theorem Adds.singleton {r : ω} (hr : time r = now)
    (hdue : ∀ a ∈ memory, key a = key r → time a + window ≤ now) :
    Adds key time window now memory [r] where
  stamped r' hr' := by
    rw [List.mem_singleton.mp hr']
    exact hr
  due r' hr' := by
    rw [List.mem_singleton.mp hr']
    exact hdue
  distinct := List.pairwise_singleton _ _

/-- A second part of what is recorded finds the first in the memory. -/
theorem Adds.append (hwindow : 0 < window) (h : Adds key time window now memory added)
    (h' : Adds key time window now (memory ++ added) added') :
    Adds key time window now memory (added ++ added') where
  stamped r hr := (List.mem_append.mp hr).elim (h.stamped r) (h'.stamped r)
  due r hr a ha := by
    rcases List.mem_append.mp hr with hr | hr
    · exact h.due r hr a ha
    · exact h'.due r hr a (List.mem_append_left _ ha)
  distinct := by
    refine List.pairwise_append.mpr ⟨h.distinct, h'.distinct, fun a ha b hb hkey => ?_⟩
    have hdue := h'.due b hb a (List.mem_append_right _ ha) hkey
    rw [h.stamped a ha] at hdue
    omega

/-! ## Runs -/

section

variable {σ ι : Type} (step : σ → ι → σ) (recorded : σ → ι → List ω)

/-- What a run records, in its order. -/
def history : σ → List ι → List ω
  | _, [] => []
  | s, e :: es => recorded s e ++ history (step s e) es

variable (key time window) in
/-- What an event records is due by what is held before, and is held after. -/
structure Records (holds : σ → ω → Prop) (s : σ) (e : ι) : Prop where
  held : ∀ r ∈ recorded s e, holds (step s e) r
  due : ∀ r ∈ recorded s e, ∀ a, holds s a → key a = key r → time a + window ≤ time r
  distinct : (recorded s e).Pairwise fun a b => key a ≠ key b

variable {step recorded} {C : σ → ι → Prop} {holds : σ → ω → Prop} {s : σ} {es : List ι}

variable (holds) in
/-- **The spacing rule.** Where what is held stays held, and events record by what is held, a run
records entries that are a window apart under every key. -/
theorem spaced_history (hkeep : ∀ s e, C s e → ∀ r, holds s r → holds (step s e) r)
    (hrecords : ∀ s e, C s e → Records key time window step recorded holds s e)
    (ha : Run.Along step C s es) : Spaced key time window (history step recorded s es) := by
  have hgeneral : ∀ before : List ω, Spaced key time window before → (∀ r ∈ before, holds s r) →
      Spaced key time window (before ++ history step recorded s es) := by
    induction es generalizing s with
    | nil =>
        intro before hspaced _
        rw [history, List.append_nil]
        exact hspaced
    | cons e es ih =>
        intro before hspaced hheld
        have hstep := hrecords s e ha.1
        rw [history, ← List.append_assoc]
        refine ih ha.2 _ ?_ fun r hr => ?_
        · refine List.pairwise_append.mpr ⟨hspaced, ?_, fun a ha' r hr => ?_⟩
          · exact hstep.distinct.imp fun hne hkey => absurd hkey hne
          · exact hstep.due r hr a (hheld a ha')
        · rcases List.mem_append.mp hr with hr | hr
          · exact hkeep s e ha.1 r (hheld r hr)
          · exact hstep.held r hr
  simpa using hgeneral [] .nil nofun

/-- What the memory has at the end was there before, or was recorded. -/
theorem mem_history (memory : σ → List ω)
    (hmemory : ∀ s e, C s e → ∀ r ∈ memory (step s e), r ∈ memory s ∨ r ∈ recorded s e)
    (ha : Run.Along step C s es) {r : ω} (hr : r ∈ memory (Run.run step s es)) :
    r ∈ memory s ∨ r ∈ history step recorded s es := by
  induction es generalizing s with
  | nil => exact .inl hr
  | cons e es ih =>
      rw [history, List.mem_append, ← or_assoc]
      rcases ih ha.2 hr with hr | hr
      · exact .inl (hmemory s e ha.1 r hr)
      · exact .inr hr

end

end Dedup
