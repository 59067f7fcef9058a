import Mathlib.Data.List.Infix
import Mathlib.Tactic.ByContra

set_option autoImplicit false

/-! # Things with names below one another

A hierarchy files things under lists of components. What has a name has a parent, up to the names of
one component. The operations say at every name what becomes of what is there, so what two of them
come to together is a question about one name at a time.
-/

/-- Nothing is there without its parent. -/
structure Hierarchy (κ α : Type) where
  node : List κ → Option α
  closed : ∀ n c, n ≠ [] → (node (n ++ [c])).isSome → (node n).isSome

namespace Hierarchy

variable {κ α : Type}

/-- With nothing in it. -/
def empty : Hierarchy κ α where
  node _ := none
  closed _ _ _ h := h

theorem ext_node {h h' : Hierarchy κ α} (heq : ∀ n, h.node n = h'.node n) : h = h' := by
  cases h
  cases h'
  congr
  exact funext heq

/-- What is there has everything above it. -/
theorem isSome_of_prefix (h : Hierarchy κ α) {m n : List κ} (hm : m ≠ []) (hmn : m <+: n)
    (hn : (h.node n).isSome) : (h.node m).isSome := by
  obtain ⟨rest, rfl⟩ := hmn
  induction rest using List.reverseRecOn with
  | nil => simpa using hn
  | append_singleton rest c ih =>
      rw [← List.append_assoc] at hn
      exact ih (h.closed _ c (by simp [hm]) hn)

variable [DecidableEq κ]

/-! ## Operations -/

/-- Change what is there under a name. -/
def modify (n : List κ) (f : α → α) (h : Hierarchy κ α) : Hierarchy κ α where
  node m := if m = n then (h.node m).map f else h.node m
  closed m c hm hc := by
    have hpresent (k : List κ) :
        (if k = n then (h.node k).map f else h.node k).isSome = (h.node k).isSome := by
      split <;> simp
    rw [hpresent] at hc ⊢
    exact h.closed m c hm hc

/-- Put something under a name and under every name above it, where there is nothing. -/
def fill (n : List κ) (a : α) (h : Hierarchy κ α) : Hierarchy κ α where
  node m := if m <+: n ∧ m ≠ [] then some ((h.node m).getD a) else h.node m
  closed m c hm hc := by
    by_cases habove : m <+: n
    · rw [if_pos ⟨habove, hm⟩]
      rfl
    · have hbelow : ¬ (m ++ [c] <+: n) := fun hp => habove ((List.prefix_append m [c]).trans hp)
      rw [if_neg fun hp => hbelow hp.1] at hc
      rw [if_neg fun hp => habove hp.1]
      exact h.closed m c hm hc

/-- Take away what lies at or below a name that `gone` tells. -/
def drop (gone : List κ → Bool) (h : Hierarchy κ α) : Hierarchy κ α where
  node m := if m.inits.any gone then none else h.node m
  closed m c hm hc := by
    by_cases hgone : (m ++ [c]).inits.any gone = true
    · rw [if_pos hgone] at hc
      cases hc
    · rw [if_neg hgone] at hc
      have hkept : ¬ m.inits.any gone = true := by
        intro hany
        obtain ⟨r, hr, hrgone⟩ := List.any_eq_true.mp hany
        refine hgone (List.any_eq_true.mpr ⟨r, ?_, hrgone⟩)
        rw [List.mem_inits] at hr ⊢
        exact hr.trans (List.prefix_append m [c])
      rw [if_neg hkept]
      exact h.closed m c hm hc

/-- Take away all that lies at or below a name. -/
def prune (n : List κ) (h : Hierarchy κ α) : Hierarchy κ α := h.drop fun r => n.isPrefixOf r

/-- Take away some of what lies at or below a name. -/
def thin (n : List κ) (gone : List κ → Bool) (h : Hierarchy κ α) : Hierarchy κ α :=
  h.drop fun r => n.isPrefixOf r && gone r

section

variable {h : Hierarchy κ α} {m n : List κ} {f : α → α} {a : α} {gone : List κ → Bool}

theorem node_modify : (h.modify n f).node m = if m = n then (h.node m).map f else h.node m := rfl

theorem node_fill : (h.fill n a).node m =
    if m <+: n ∧ m ≠ [] then some ((h.node m).getD a) else h.node m := rfl

@[simp] theorem node_modify_of_ne (hne : m ≠ n) : (h.modify n f).node m = h.node m := if_neg hne

/-- A change leaves everything where it is. -/
@[simp] theorem isSome_modify : ((h.modify n f).node m).isSome = (h.node m).isSome := by
  rw [node_modify]
  split <;> simp

theorem modify_modify {g : α → α} : (h.modify n f).modify n g = h.modify n (g ∘ f) := by
  refine ext_node fun m => ?_
  simp only [node_modify]
  split <;> simp

/-- What is there is not replaced. -/
theorem node_fill_of_some {b : α} (hm : h.node m = some b) : (h.fill n a).node m = some b := by
  rw [node_fill, hm]
  simp

/-- Where the thing itself is there, nothing above it is missing. -/
theorem fill_of_isSome (hn : (h.node n).isSome) : h.fill n a = h := by
  refine ext_node fun m => ?_
  by_cases hm : m <+: n ∧ m ≠ []
  · obtain ⟨b, hb⟩ := Option.isSome_iff_exists.mp (h.isSome_of_prefix hm.2 hm.1 hn)
    rw [node_fill_of_some hb, hb]
  · exact if_neg hm

theorem node_prune : (h.prune n).node m = if n <+: m then none else h.node m := by
  have hany : (m.inits.any fun r => n.isPrefixOf r) = true ↔ n <+: m := by
    rw [List.any_eq_true]
    constructor
    · rintro ⟨r, hr, hnr⟩
      exact (List.isPrefixOf_iff_prefix.mp hnr).trans ((List.mem_inits r m).mp hr)
    · intro hnm
      exact ⟨m, (List.mem_inits m m).mpr (List.prefix_refl m), List.isPrefixOf_iff_prefix.mpr hnm⟩
  show (if m.inits.any (fun r => n.isPrefixOf r) then none else h.node m) = _
  by_cases hnm : n <+: m
  · rw [if_pos hnm, if_pos (hany.mpr hnm)]
  · rw [if_neg hnm, if_neg fun hp => hnm (hany.mp hp)]

/-- What is taken away in part lies at or below the name. -/
theorem node_thin_of_not_prefix (hnm : ¬ n <+: m) : (h.thin n gone).node m = h.node m := by
  refine if_neg fun hany => hnm ?_
  obtain ⟨r, hr, hgone⟩ := List.any_eq_true.mp hany
  rw [Bool.and_eq_true] at hgone
  exact (List.isPrefixOf_iff_prefix.mp hgone.1).trans ((List.mem_inits r m).mp hr)

/-- Where there is nothing under a name there is nothing below it. -/
theorem prune_of_not_isSome (hne : n ≠ []) (hn : ¬ (h.node n).isSome) : h.prune n = h := by
  refine ext_node fun m => ?_
  rw [node_prune]
  split
  · rename_i hnm
    cases hm : h.node m with
    | none => rfl
    | some a => exact absurd (h.isSome_of_prefix hne hnm (by rw [hm]; rfl)) hn
  · rfl

/-- Two hierarchies that agree on all that does not lie at or below a name. -/
def AgreeOutside (n : List κ) (h h' : Hierarchy κ α) : Prop :=
  ∀ m, ¬ n <+: m → h'.node m = h.node m

/-- What is done at or below a name is gone with it. -/
theorem AgreeOutside.prune {h' : Hierarchy κ α} (hagree : AgreeOutside n h h') :
    h'.prune n = h.prune n := by
  refine ext_node fun m => ?_
  rw [node_prune, node_prune]
  split
  · rfl
  · rename_i hnm
    exact hagree m hnm

/-- Also where another name is taken away first. -/
theorem AgreeOutside.prune_prune {h' : Hierarchy κ α} (hagree : AgreeOutside n h h')
    (k : List κ) : (h'.prune k).prune n = (h.prune k).prune n := by
  refine ext_node fun m => ?_
  rw [node_prune, node_prune, node_prune, node_prune]
  split
  · rfl
  · rename_i hnm
    rw [hagree m hnm]

end

end Hierarchy
