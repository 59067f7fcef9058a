import Mathlib.Data.List.Sort

set_option autoImplicit false

/-! # The longest suffix within a limit

A limit is a property of lists that holds of every suffix of a list it holds of: at most so many
elements, a sum of weights up to a bound. A list that is cut down to its longest suffix within a
limit loses its oldest elements only, and cutting it down again changes nothing.

In a list whose keys grow, the suffix that starts at an element consists of the elements from its
key on, so the longest suffix is a filter.
-/

namespace List

variable {α : Type*} (ok : List α → Bool)

/-- The longest suffix within the limit. -/
def longestSuffix : List α → List α
  | [] => []
  | a :: l => if ok (a :: l) then a :: l else longestSuffix l

/-- The limit holds of the empty list and is passed on to suffixes. -/
structure SuffixClosed : Prop where
  nil : ok [] = true
  tail : ∀ a l, ok (a :: l) = true → ok l = true

variable {ok}

theorem SuffixClosed.of_append (h : SuffixClosed ok) {s l : List α} (hok : ok (s ++ l) = true) :
    ok l = true := by
  induction s with
  | nil => exact hok
  | cons a s ih => exact ih (h.tail a _ hok)

theorem SuffixClosed.suffix (h : SuffixClosed ok) {s l : List α} (hs : s <:+ l)
    (hok : ok l = true) : ok s = true := by
  obtain ⟨t, rfl⟩ := hs
  exact h.of_append hok

theorem SuffixClosed.and {ok' : List α → Bool} (h : SuffixClosed ok) (h' : SuffixClosed ok') :
    SuffixClosed fun l => ok l && ok' l where
  nil := by rw [h.nil, h'.nil, Bool.and_self]
  tail a l hok := by
    rw [Bool.and_eq_true] at hok ⊢
    exact ⟨h.tail a l hok.1, h'.tail a l hok.2⟩

theorem longestSuffix_suffix (l : List α) : longestSuffix ok l <:+ l := by
  induction l with
  | nil => exact List.suffix_refl _
  | cons a l ih =>
      rw [longestSuffix]
      split
      · exact List.suffix_refl _
      · exact ih.trans (List.suffix_cons a l)

theorem longestSuffix_ok (h : SuffixClosed ok) (l : List α) :
    ok (longestSuffix ok l) = true := by
  induction l with
  | nil => exact h.nil
  | cons a l ih =>
      rw [longestSuffix]
      split
      · assumption
      · exact ih

theorem longestSuffix_of_ok {l : List α} (hok : ok l = true) : longestSuffix ok l = l := by
  cases l with
  | nil => rfl
  | cons a l => rw [longestSuffix, if_pos hok]

/-- No suffix within the limit is longer. -/
theorem length_le_longestSuffix {s l : List α} (hs : s <:+ l) (hok : ok s = true) :
    s.length ≤ (longestSuffix ok l).length := by
  induction l with
  | nil => rw [List.suffix_nil.mp hs, longestSuffix]
  | cons a l ih =>
      rcases List.suffix_cons_iff.mp hs with rfl | hs'
      · rw [longestSuffix_of_ok hok]
      · rw [longestSuffix]
        split
        · exact hs.length_le
        · exact ih hs'

/-- The limit is reached before the front part. -/
theorem longestSuffix_append {front l : List α} (h : SuffixClosed ok) (hok : ok l = true)
    (hfront : ∀ init last, front = init ++ [last] → ok (last :: l) = false) :
    longestSuffix ok (front ++ l) = l := by
  induction front with
  | nil => exact longestSuffix_of_ok hok
  | cons a front ih =>
      have hover : ok (a :: (front ++ l)) = false := by
        obtain ⟨init, last, hsplit⟩ := List.eq_nil_or_concat (a :: front) |>.resolve_left nofun
        rw [List.concat_eq_append] at hsplit
        by_contra hwithin
        rw [Bool.not_eq_false, ← List.cons_append, hsplit, List.append_assoc] at hwithin
        have hlast := h.of_append hwithin
        rw [List.singleton_append, hfront init last hsplit] at hlast
        exact Bool.false_ne_true hlast
      rw [List.cons_append, longestSuffix, if_neg (by rw [hover]; exact Bool.false_ne_true)]
      apply ih
      intro init last hsplit
      exact hfront (a :: init) last (by rw [hsplit, List.cons_append])

/-- Two limits, one after the other. -/
theorem longestSuffix_longestSuffix {ok' : List α → Bool} (h : SuffixClosed ok) (l : List α) :
    longestSuffix ok' (longestSuffix ok l) = longestSuffix (fun s => ok s && ok' s) l := by
  induction l with
  | nil => rfl
  | cons a l ih =>
      rw [longestSuffix, longestSuffix]
      cases hok : ok (a :: l) with
      | false =>
          rw [if_neg Bool.false_ne_true, if_neg (by simp)]
          exact ih
      | true =>
          have htail := h.tail a l hok
          rw [if_pos rfl, longestSuffix, Bool.true_and, ← ih, longestSuffix_of_ok htail]

/-- An element with `n` elements behind it. -/
theorem split_of_getElem?_reverse {l : List α} {n : ℕ} {a : α} (h : l.reverse[n]? = some a) :
    ∃ front back, l = front ++ a :: back ∧ back.length = n := by
  obtain ⟨hn, hget⟩ := List.getElem?_eq_some_iff.mp h
  have hsplit : l.reverse = l.reverse.take n ++ a :: l.reverse.drop (n + 1) := by
    rw [← hget, ← List.drop_eq_getElem_cons hn, List.take_append_drop]
  refine ⟨(l.reverse.drop (n + 1)).reverse, (l.reverse.take n).reverse, ?_, ?_⟩
  · have hrev := congrArg List.reverse hsplit
    rwa [List.reverse_reverse, List.reverse_append, List.reverse_cons, List.append_assoc,
      List.singleton_append] at hrev
  · rw [List.length_reverse, List.length_take_of_le (Nat.le_of_lt hn)]

section Sorted

variable {key : α → ℕ}

/-- From a key on that its first element has reached the list is kept whole. -/
theorem filter_key_of_le {a : α} {l : List α} (h : (a :: l).Pairwise fun x y => key x < key y)
    {k : ℕ} (hk : k ≤ key a) : (a :: l).filter (fun x => k ≤ key x) = a :: l := by
  apply List.filter_eq_self.mpr
  intro x hx
  rcases List.mem_cons.mp hx with rfl | hx
  · exact decide_eq_true hk
  · exact decide_eq_true (hk.trans (Nat.le_of_lt (List.rel_of_pairwise_cons h hx)))

theorem filter_key_suffix {l : List α} (h : l.Pairwise fun x y => key x < key y) (k : ℕ) :
    l.filter (fun x => k ≤ key x) <:+ l := by
  induction l with
  | nil => exact List.suffix_refl _
  | cons a l ih =>
      by_cases hk : k ≤ key a
      · exact ⟨[], filter_key_of_le h hk⟩
      · rw [List.filter_cons_of_neg (by simpa using hk)]
        exact (ih h.of_cons).trans (List.suffix_cons a l)

/-- **The longest suffix is a filter**: an element stays if the list from it on is within the
limit. -/
theorem filter_eq_longestSuffix (h : SuffixClosed ok) {l : List α}
    (hl : l.Pairwise fun x y => key x < key y) :
    l.filter (fun a => ok (l.filter fun x => key a ≤ key x)) = longestSuffix ok l := by
  induction l with
  | nil => rfl
  | cons a l ih =>
      cases hok : ok (a :: l) with
      | true =>
          rw [longestSuffix_of_ok hok]
          apply List.filter_eq_self.mpr
          intro b _
          exact h.suffix (filter_key_suffix hl (key b)) hok
      | false =>
          have hdrop : ok ((a :: l).filter fun x => key a ≤ key x) = false := by
            rw [filter_key_of_le hl (Nat.le_refl _), hok]
          have htail : ∀ b ∈ l, (a :: l).filter (fun x => key b ≤ key x) =
              l.filter fun x => key b ≤ key x := by
            intro b hb
            have hlt := List.rel_of_pairwise_cons hl hb
            exact List.filter_cons_of_neg (by simpa using hlt)
          rw [List.filter_cons_of_neg (by rw [hdrop]; exact Bool.false_ne_true),
            longestSuffix, if_neg (by rw [hok]; exact Bool.false_ne_true), ← ih hl.of_cons]
          apply List.filter_congr
          intro b hb
          rw [htail b hb]

end Sorted

end List
