import Mathlib.Data.List.Basic

set_option autoImplicit false

/-! # Texts split at a character

A text is the parts between the separators, put together again with a separator between two of
them, and no part holds a separator. The two say everything about `splitOn`, so a parser that
splits a text and looks at the parts is read as an equation for the text.
-/

namespace Text

variable {sep : Char}

/-- No part of a split text holds the separator. -/
theorem not_mem_part {s part : List Char} (h : part ∈ s.splitOn sep) : sep ∉ part := by
  induction s generalizing part with
  | nil =>
      have hpart : part = [] := by simpa using h
      simp [hpart]
  | cons c s ih =>
      rw [List.splitOn_cons_eq_if_modifyHead] at h
      split at h
      · rcases List.mem_cons.mp h with rfl | h
        · simp
        · exact ih h
      · rename_i hc
        have hne : c ≠ sep := by simpa using hc
        obtain ⟨first, parts, hsplit⟩ := List.exists_cons_of_ne_nil (List.splitOn_ne_nil sep s)
        rw [hsplit] at h ih
        simp only [List.modifyHead_cons, List.mem_cons] at h
        rcases h with rfl | h
        · have hfirst : sep ∉ first := ih (by simp)
          simp [hfirst, Ne.symm hne]
        · exact ih (by simp [h])

/-- The parts of a text are the ones without a separator that make up the text. -/
theorem splitOn_eq_iff {s : List Char} {parts : List (List Char)} (hne : parts ≠ []) :
    s.splitOn sep = parts ↔ s = [sep].intercalate parts ∧ ∀ part ∈ parts, sep ∉ part := by
  constructor
  · rintro rfl
    exact ⟨(List.intercalate_splitOn sep).symm, fun part hpart => not_mem_part hpart⟩
  · rintro ⟨rfl, hparts⟩
    exact List.splitOn_intercalate sep hparts hne

/-- The parts as texts. -/
def split (sep : Char) (s : String) : List String := (s.toList.splitOn sep).map String.ofList

@[simp] theorem split_ne_nil (sep : Char) (s : String) : split sep s ≠ [] := by
  simp [split]

theorem map_ofList_eq_iff {parts : List (List Char)} {texts : List String} :
    parts.map String.ofList = texts ↔ parts = texts.map String.toList := by
  constructor
  · rintro rfl
    simp [Function.comp_def]
  · rintro rfl
    simp [Function.comp_def]

theorem split_eq_iff {s : String} {texts : List String} (hne : texts ≠ []) :
    split sep s = texts ↔ s.toList = [sep].intercalate (texts.map String.toList) ∧
      ∀ text ∈ texts, sep ∉ text.toList := by
  rw [split, map_ofList_eq_iff, splitOn_eq_iff (by simpa using hne)]
  simp

/-- A text with a separator in it is split on both sides of it. -/
theorem split_append (sep : Char) (a b : String) :
    split sep (a ++ String.singleton sep ++ b) = split sep a ++ split sep b := by
  simp [split, List.splitOn_append_cons_self]

theorem split_of_not_mem {s : String} (h : sep ∉ s.toList) : split sep s = [s] := by
  simp [split, List.splitOn_eq_singleton h]

theorem range_of_isDigit {c : Char} (h : c.isDigit = true) : 48 ≤ c.toNat ∧ c.toNat ≤ 57 := by
  unfold Char.isDigit at h
  rw [Bool.and_eq_true, decide_eq_true_eq, decide_eq_true_eq] at h
  exact ⟨UInt32.le_iff_toNat_le.mp h.1, UInt32.le_iff_toNat_le.mp h.2⟩

theorem range_of_isAlphanum {c : Char} (h : c.isAlphanum = true) : 48 ≤ c.toNat ∧ c.toNat ≤ 122 := by
  have hcases : (c.isUpper || c.isLower || c.isDigit) = true := h
  rcases Bool.or_eq_true_iff.mp hcases with hletter | hdigit
  · have hletter : (decide ('A'.val ≤ c.val ∧ c.val ≤ 'Z'.val) ||
        decide ('a'.val ≤ c.val) && decide (c.val ≤ 'z'.val)) = true := hletter
    simp only [Bool.or_eq_true, Bool.and_eq_true, decide_eq_true_eq, UInt32.le_iff_toNat_le]
      at hletter
    have hval : c.toNat = c.val.toNat := rfl
    have hupper : 'A'.val.toNat = 65 ∧ 'Z'.val.toNat = 90 := ⟨rfl, rfl⟩
    have hlower : 'a'.val.toNat = 97 ∧ 'z'.val.toNat = 122 := ⟨rfl, rfl⟩
    omega
  · have hrange := range_of_isDigit hdigit
    omega

end Text
