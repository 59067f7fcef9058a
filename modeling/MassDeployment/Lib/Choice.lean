import Mathlib.Data.Finset.Sort

set_option autoImplicit false

/-! # Choice functions on finite sets

A choice function picks a part of every finite set. Two laws make it independent of the path by
which the set was gathered: what was not picked can be dropped without changing the choice, and
what is picked from a set is picked from every part of it that it lies in. A set that grows by
steps can then be cut down to the choice after each step.

The laws hold of unions of choices, and of choices made by scanning the sorted list of the set.
-/

/-- A choice function with the two laws of path independence. -/
structure Choice (α : Type*) [DecidableEq α] where
  pick : Finset α → Finset α
  subset : ∀ S, pick S ⊆ S
  outcast : ∀ {S K}, pick S ⊆ K → K ⊆ S → pick K = pick S
  heredity : ∀ {S K}, K ⊆ S → pick S ∩ K ⊆ pick K

namespace Choice

section Laws

variable {α : Type*} [DecidableEq α] (c d : Choice α)

theorem idempotent (S : Finset α) : c.pick (c.pick S) = c.pick S :=
  c.outcast (Finset.Subset.refl _) (c.subset S)

/-- **Path independence.** A choice from a part can be made first. -/
theorem path_independent (S T : Finset α) : c.pick (c.pick S ∪ T) = c.pick (S ∪ T) := by
  have hkept : c.pick (S ∪ T) ⊆ c.pick S ∪ T := by
    intro x hx
    rcases Finset.mem_union.mp (c.subset _ hx) with hS | hT
    · have hx' := c.heredity Finset.subset_union_left (Finset.mem_inter.mpr ⟨hx, hS⟩)
      exact Finset.mem_union_left _ hx'
    · exact Finset.mem_union_right _ hT
  exact c.outcast hkept (Finset.union_subset_union_left (c.subset S))

/-- What either of two choices picks. -/
def union : Choice α where
  pick S := c.pick S ∪ d.pick S
  subset S := Finset.union_subset (c.subset S) (d.subset S)
  outcast hkept hK := by
    rw [c.outcast (Finset.union_subset_left hkept) hK,
      d.outcast (Finset.union_subset_right hkept) hK]
  heredity hK := by
    rw [Finset.union_inter_distrib_right]
    exact Finset.union_subset_union (c.heredity hK) (d.heredity hK)

theorem pick_union (S : Finset α) : (c.union d).pick S = c.pick S ∪ d.pick S := rfl

end Laws

section Scans

variable {α : Type*} [LinearOrder α]

/-- The elements of a set, the greatest one first. -/
def descending (S : Finset α) : List α := S.sort (· ≥ ·)

@[simp] theorem mem_descending {S : Finset α} {x : α} : x ∈ descending S ↔ x ∈ S :=
  Finset.mem_sort _

theorem descending_nodup (S : Finset α) : (descending S).Nodup := S.sort_nodup _

theorem descending_pairwise (S : Finset α) : (descending S).Pairwise (· ≥ ·) := S.pairwise_sort _

theorem descending_sublist {K S : Finset α} (h : K ⊆ S) :
    (descending K).Sublist (descending S) := by
  apply List.sublist_of_subperm_of_pairwise _ (descending_pairwise K) (descending_pairwise S)
  apply List.subperm_of_subset (descending_nodup K)
  intro x hx
  exact mem_descending.mpr (h (mem_descending.mp hx))

/-- A scan of the sorted list that keeps the laws is a choice. -/
def ofScan (scan : List α → List α) (subset : ∀ L, scan L ⊆ L)
    (outcast : ∀ {K L : List α}, L.Nodup → K.Sublist L → scan L ⊆ K → scan K = scan L)
    (heredity : ∀ {K L : List α} {x : α}, L.Nodup → K.Sublist L → x ∈ scan L → x ∈ K →
      x ∈ scan K) : Choice α where
  pick S := (scan (descending S)).toFinset
  subset S x hx := mem_descending.mp (subset _ (List.mem_toFinset.mp hx))
  outcast {S K} hkept hK := by
    have hscan : scan (descending S) ⊆ descending K := by
      intro x hx
      exact mem_descending.mpr (hkept (List.mem_toFinset.mpr hx))
    exact congrArg List.toFinset
      (outcast (descending_nodup S) (descending_sublist hK) hscan)
  heredity {S K} hK x hx := by
    obtain ⟨hpick, hmem⟩ := Finset.mem_inter.mp hx
    rw [List.mem_toFinset] at hpick ⊢
    exact heredity (descending_nodup S) (descending_sublist hK) hpick (mem_descending.mpr hmem)

end Scans

end Choice
