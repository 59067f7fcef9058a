import Mathlib.Data.List.Dedup
import Mathlib.Data.List.Nodup

set_option autoImplicit false

/-! # The order of a pipeline

Items go through a pipeline and may be worked on more than once. What counts is the order of the
first times. `line done rest` is what has been worked on, in the order of the first times, and
after it what waits and has not been worked on yet: the order in which the pipeline will have
begun everything if nothing overtakes. As long as the line is a sublist of the order in which the
items were submitted, they are begun in that order.
-/

namespace Pipeline

variable {α : Type*} [DecidableEq α]

/-- What has been begun, in the order of the first times, and what waits to be begun. -/
def line (done rest : List α) : List α :=
  done.eraseDups ++ rest.filter fun a => decide (a ∉ done)

theorem mem_line {done rest : List α} {a : α} :
    a ∈ line done rest ↔ a ∈ done ∨ a ∈ rest := by
  by_cases h : a ∈ done
  · simp [line, h]
  · simp [line, h]

/-- What is lost from the waiting items is lost from the line. -/
theorem line_sublist {done rest rest' : List α} (h : rest'.Sublist rest) :
    (line done rest').Sublist (line done rest) :=
  (List.Sublist.refl _).append (h.filter _)

theorem eraseDups_sublist_line (done rest : List α) : done.eraseDups.Sublist (line done rest) :=
  List.sublist_append_left ..

/-- New items queue at the end. -/
theorem line_append {done rest new : List α} (h : ∀ a ∈ new, a ∉ done) :
    line done (rest ++ new) = line done rest ++ new := by
  have hnew : (new.filter fun a => decide (a ∉ done)) = new :=
    List.filter_eq_self.mpr fun a ha => decide_eq_true (h a ha)
  rw [line, List.filter_append, hnew, ← List.append_assoc, line]

theorem eraseDups_concat_of_mem {done : List α} {a : α} (h : a ∈ done) :
    (done ++ [a]).eraseDups = done.eraseDups := by
  rw [List.eraseDups_append]
  simp [List.removeAll, h]

theorem eraseDups_concat_of_not_mem {done : List α} {a : α} (h : a ∉ done) :
    (done ++ [a]).eraseDups = done.eraseDups ++ [a] := by
  rw [List.eraseDups_append]
  simp [List.removeAll, h, List.eraseDups]
  rfl

/-- To begin an item again changes nothing. -/
theorem line_again {done rest : List α} {a : α} (h : a ∈ done) :
    line (done ++ [a]) rest = line done rest := by
  have hmem : ∀ b, b ∈ done ++ [a] ↔ b ∈ done := by
    intro b
    constructor
    · intro hb
      rcases List.mem_append.mp hb with hb | hb
      · exact hb
      · rwa [List.mem_singleton.mp hb]
    · exact List.mem_append_left _
  simp only [line, eraseDups_concat_of_mem h, hmem]

/-- **The rule of the pipeline.** To begin the first item that waits changes nothing about the
line. -/
theorem line_begin {done before after : List α} {a : α} (hbefore : ∀ b ∈ before, b ∈ done)
    (hnodup : (line done (before ++ a :: after)).Nodup) :
    line (done ++ [a]) (before ++ a :: after) = line done (before ++ a :: after) := by
  by_cases h : a ∈ done
  · exact line_again h
  · have hskip : ∀ done' : List α, (∀ b ∈ done, b ∈ done') →
        (before.filter fun b => decide (b ∉ done')) = [] := by
      intro done' hsub
      exact List.filter_eq_nil_iff.mpr fun b hb => by simpa using hsub b (hbefore b hb)
    have hline : line done (before ++ a :: after) =
        done.eraseDups ++ a :: after.filter fun b => decide (b ∉ done) := by
      rw [line, List.filter_append, hskip done fun _ h => h, List.nil_append,
        List.filter_cons_of_pos (by simpa using h)]
    -- the item waits once, so beginning it drops nothing behind it
    have hrest : (after.filter fun b => decide (b ∉ done ++ [a])) =
        after.filter fun b => decide (b ∉ done) := by
      refine List.filter_congr fun b hb => ?_
      by_cases hbdone : b ∈ done
      · simp [hbdone]
      · have hne : b ≠ a := by
          rintro rfl
          rw [hline, List.nodup_append] at hnodup
          have hcons := List.nodup_cons.mp hnodup.2.1
          exact hcons.1 (List.mem_filter.mpr ⟨hb, decide_eq_true hbdone⟩)
        simp [hbdone, hne]
    calc line (done ++ [a]) (before ++ a :: after)
        = (done ++ [a]).eraseDups ++ after.filter fun b => decide (b ∉ done ++ [a]) := by
          rw [line, List.filter_append, hskip _ fun b hb => List.mem_append_left _ hb,
            List.nil_append, List.filter_cons_of_neg (by simp)]
      _ = done.eraseDups ++ a :: after.filter fun b => decide (b ∉ done) := by
          rw [eraseDups_concat_of_not_mem h, hrest, List.append_assoc, List.singleton_append]
      _ = line done (before ++ a :: after) := hline.symm

end Pipeline
