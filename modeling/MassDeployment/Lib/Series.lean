import Mathlib.Data.List.Chain

set_option autoImplicit false

/-! # Sampled series

A log of samples, oldest first, is many series, one for each key. A value that is reported is due
when its series has no sample yet, or none within an interval, or, for the keys that are stored *on
change*, when it differs from the newest sample. What is due is appended.

Three laws follow, of every log that is built in this way and expires from the old end: a key that is
not stored on change has its samples an interval apart, two samples in succession with one value are
an interval apart under any key, and the newest sample under a key that is stored on change has the
value reported last.
-/

namespace Series

structure Sample (κ ν : Type) where
  key : κ
  value : ν
  time : Nat
  deriving DecidableEq

variable {κ ν : Type}

/-- In a log that is ordered by time, what is kept from a time on is the end of the log. -/
theorem filter_suffix {log : List (Sample κ ν)} {keep : Sample κ ν → Bool}
    (hkeep : ∀ x y, x.time ≤ y.time → keep x = true → keep y = true)
    (h : log.Pairwise fun a b => a.time ≤ b.time) : log.filter keep <:+ log := by
  induction log with
  | nil => exact List.suffix_refl _
  | cons x log ih =>
      by_cases hx : keep x = true
      · have hall : (x :: log).filter keep = x :: log := by
          apply List.filter_eq_self.mpr
          intro y hy
          rcases List.mem_cons.mp hy with rfl | hy
          · exact hx
          · exact hkeep x y (List.rel_of_pairwise_cons h hy) hx
        exact ⟨[], hall⟩
      · rw [List.filter_cons_of_neg hx]
        exact (ih h.of_cons).trans (List.suffix_cons x log)

variable [DecidableEq κ]

/-- The samples under a key. -/
def of (k : κ) (log : List (Sample κ ν)) : List (Sample κ ν) := log.filter fun x => x.key = k

def newest (k : κ) (log : List (Sample κ ν)) : Option (Sample κ ν) := (of k log).getLast?

section

variable (interval : Nat) (onChange : κ → Bool)

/-- Samples in succession are an interval apart, save for changes of what is stored on change. -/
structure Spaced (log : List (Sample κ ν)) : Prop where
  throttled : ∀ k, onChange k = false →
    (of k log).IsChain fun a b => a.time + interval ≤ b.time
  repeated : ∀ k, (of k log).IsChain fun a b => a.value = b.value → a.time + interval ≤ b.time

/-- The log was built up to now. -/
structure Lawful (now : Nat) (log : List (Sample κ ν)) : Prop where
  spaced : Spaced interval onChange log
  ordered : log.Pairwise fun a b => a.time ≤ b.time
  past : ∀ x ∈ log, x.time ≤ now

end

variable {interval now : Nat} {onChange : κ → Bool} {log : List (Sample κ ν)} {k k' : κ} {v : ν}

theorem lawful_nil : Lawful interval onChange now ([] : List (Sample κ ν)) where
  spaced := ⟨fun _ _ => .nil, fun _ => .nil⟩
  ordered := .nil
  past := nofun

/-! ## One more sample -/

theorem of_append_self (t : Nat) : of k (log ++ [⟨k, v, t⟩]) = of k log ++ [⟨k, v, t⟩] := by
  rw [of, List.filter_append, List.filter_cons_of_pos (by simp), List.filter_nil]
  rfl

theorem of_append_of_ne (h : k' ≠ k) (t : Nat) : of k (log ++ [⟨k', v, t⟩]) = of k log := by
  rw [of, List.filter_append, List.filter_cons_of_neg (by simpa using h), List.filter_nil,
    List.append_nil]
  rfl

theorem newest_append_self (t : Nat) : newest k (log ++ [⟨k, v, t⟩]) = some ⟨k, v, t⟩ := by
  rw [newest, of_append_self, List.getLast?_concat]

theorem newest_append_of_ne (h : k' ≠ k) (t : Nat) :
    newest k (log ++ [⟨k', v, t⟩]) = newest k log := by
  rw [newest, of_append_of_ne h, newest]

/-- The chains grow by a step from the newest sample. -/
theorem isChain_of_append {R : Sample κ ν → Sample κ ν → Prop} {x : Sample κ ν}
    (h : (of k log).IsChain R) (hx : ∀ y, newest x.key log = some y → k = x.key → R y x) :
    (of k (log ++ [x])).IsChain R := by
  obtain ⟨k', v, t⟩ := x
  by_cases hk : k' = k
  · subst hk
    rw [of_append_self]
    refine List.isChain_append.mpr ⟨h, .singleton _, fun y hy z hz => ?_⟩
    obtain rfl := Option.some.inj hz
    exact hx y hy rfl
  · rw [of_append_of_ne hk]
    exact h

/-! ## Time passes -/

theorem Lawful.later (h : Lawful interval onChange now log) {now' : Nat} (hle : now ≤ now') :
    Lawful interval onChange now' log :=
  { h with past := fun x hx => (h.past x hx).trans hle }

theorem Lawful.expire (h : Lawful interval onChange now log) {keep : Sample κ ν → Bool}
    (hkeep : ∀ x y, x.time ≤ y.time → keep x = true → keep y = true) :
    Lawful interval onChange now (log.filter keep) := by
  have hsuffix : log.filter keep <:+ log := filter_suffix hkeep h.ordered
  have hseries : ∀ k, of k (log.filter keep) <:+ of k log := fun k => hsuffix.filter _
  exact
    { spaced :=
        { throttled := fun k hk => (h.spaced.throttled k hk).suffix (hseries k)
          repeated := fun k => (h.spaced.repeated k).suffix (hseries k) }
      ordered := h.ordered.filter _
      past := fun x hx => h.past x (List.mem_filter.mp hx).1 }

/-! ## What is due -/

variable [DecidableEq ν]

section

variable (interval : Nat) (onChange : κ → Bool)

/-- Whether a value is to be stored. -/
def due (now : Nat) (log : List (Sample κ ν)) (k : κ) (v : ν) : Bool :=
  match newest k log with
  | none => true
  | some x => decide (interval + x.time ≤ now) || (onChange k && decide (x.value ≠ v))

def record (now : Nat) (log : List (Sample κ ν)) (report : κ × ν) : List (Sample κ ν) :=
  if due interval onChange now log report.1 report.2 then log ++ [⟨report.1, report.2, now⟩] else log

def recordAll (now : Nat) (log : List (Sample κ ν)) (reports : List (κ × ν)) : List (Sample κ ν) :=
  reports.foldl (record interval onChange now) log

end

/-- What a value that is due was compared with. -/
theorem due_newest (h : due interval onChange now log k v = true) {x : Sample κ ν}
    (hx : newest k log = some x) :
    interval + x.time ≤ now ∨ (onChange k = true ∧ x.value ≠ v) := by
  rw [due, hx] at h
  simpa using h

/-- A value that is not due under a key that is stored on change is there already. -/
theorem newest_of_not_due (h : due interval onChange now log k v = false)
    (hk : onChange k = true) : (newest k log).map Sample.value = some v := by
  unfold due at h
  cases hx : newest k log with
  | none =>
      rw [hx] at h
      cases h
  | some x =>
      rw [hx, Bool.or_eq_false_iff, hk, Bool.true_and, decide_eq_false_iff_not,
        decide_eq_false_iff_not, not_not] at h
      rw [Option.map_some, h.2]

/-! ## The laws -/

theorem Lawful.append (h : Lawful interval onChange now log)
    (hdue : due interval onChange now log k v = true) :
    Lawful interval onChange now (log ++ [⟨k, v, now⟩]) where
  spaced :=
    { throttled := by
        intro k' hk'
        refine isChain_of_append (h.spaced.throttled k' hk') fun y hy hkey => ?_
        rcases due_newest hdue hy with hlong | ⟨hchange, -⟩
        · show y.time + interval ≤ now
          omega
        · rw [hkey, hchange] at hk'
          cases hk'
      repeated := by
        intro k'
        refine isChain_of_append (h.spaced.repeated k') fun y hy _ hsame => ?_
        rcases due_newest hdue hy with hlong | ⟨-, hdiffers⟩
        · show y.time + interval ≤ now
          omega
        · exact absurd hsame hdiffers }
  ordered := by
    refine List.pairwise_append.mpr ⟨h.ordered, List.pairwise_singleton _ _, fun x hx y hy => ?_⟩
    obtain rfl := List.mem_singleton.mp hy
    exact h.past x hx
  past x hx := by
    rcases List.mem_append.mp hx with hx | hx
    · exact h.past x hx
    · obtain rfl := List.mem_singleton.mp hx
      exact Nat.le_refl now

theorem Lawful.record (h : Lawful interval onChange now log) (report : κ × ν) :
    Lawful interval onChange now (record interval onChange now log report) := by
  unfold Series.record
  split
  · exact h.append ‹_›
  · exact h

theorem Lawful.recordAll (h : Lawful interval onChange now log) (reports : List (κ × ν)) :
    Lawful interval onChange now (recordAll interval onChange now log reports) := by
  induction reports generalizing log with
  | nil => exact h
  | cons r reports ih => exact ih (h.record r)

/-! ## The value reported last -/

theorem newest_record (hk : onChange k = true) :
    (newest k (record interval onChange now log (k, v))).map Sample.value = some v := by
  unfold record
  split
  · rw [newest_append_self, Option.map_some]
  · rename_i hdue
    exact newest_of_not_due ((Bool.not_eq_true _).mp hdue) hk

theorem newest_record_of_ne {report : κ × ν} (h : report.1 ≠ k) :
    newest k (record interval onChange now log report) = newest k log := by
  unfold record
  split
  · exact newest_append_of_ne h now
  · rfl

theorem newest_recordAll_of_ne {reports : List (κ × ν)} (h : ∀ r ∈ reports, r.1 ≠ k) :
    newest k (recordAll interval onChange now log reports) = newest k log := by
  induction reports generalizing log with
  | nil => rfl
  | cons r reports ih =>
      rw [recordAll, List.foldl_cons]
      refine (ih fun r' hr' => h r' (List.mem_cons_of_mem _ hr')).trans ?_
      exact newest_record_of_ne (h r (by simp))

/-- **After reports under keys of their own, what is stored on change is up to date.** -/
theorem newest_recordAll {reports : List (κ × ν)} (hkeys : reports.Pairwise fun a b => a.1 ≠ b.1)
    (hr : (k, v) ∈ reports) (hk : onChange k = true) :
    (newest k (recordAll interval onChange now log reports)).map Sample.value = some v := by
  induction reports generalizing log with
  | nil => cases hr
  | cons r reports ih =>
      rw [recordAll, List.foldl_cons]
      rcases List.mem_cons.mp hr with rfl | hr
      · have hrest : newest k (recordAll interval onChange now
            (record interval onChange now log (k, v)) reports) = _ :=
          newest_recordAll_of_ne fun r hr => (List.rel_of_pairwise_cons hkeys hr).symm
        rw [recordAll] at hrest
        rw [hrest]
        exact newest_record hk
      · exact ih hkeys.of_cons hr

end Series
