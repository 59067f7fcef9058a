import Mathlib.Data.List.Nodup

set_option autoImplicit false

/-! # Dictionaries in the order of insertion

A dictionary is the list of its items. Storing under a key that is there replaces the value in its
place, so a dictionary that is filled from rows holds the last value of each key, at the place of
the first.
-/

/-- The items of a dictionary. -/
abbrev Dict (κ α : Type*) := List (κ × α)

namespace Dict

variable {κ α : Type*} [DecidableEq κ]

/-- Store a value under a key. -/
def set (d : Dict κ α) (k : κ) (v : α) : Dict κ α :=
  match d with
  | [] => [(k, v)]
  | e :: rest => if e.1 = k then (k, v) :: rest else e :: set rest k v

/-- The dictionary after storing the rows one by one. -/
def ofRows (rows : List (κ × α)) : Dict κ α := rows.foldl (fun d r => d.set r.1 r.2) []

/-- Store a value under a key that is not there. -/
def addNew (d : Dict κ α) (k : κ) (v : α) : Dict κ α :=
  if k ∈ d.map Prod.fst then d else d.set k v

/-- Store the rows one by one, each under a key that is not there. -/
def addAll (d : Dict κ α) (rows : List (κ × α)) : Dict κ α :=
  rows.foldl (fun d r => d.addNew r.1 r.2) d

/-- The values of a key, row by row. -/
def valuesOf (rows : List (κ × α)) (k : κ) : List α :=
  (rows.filter fun r => r.1 = k).map Prod.snd

/-! ## Keys -/

theorem mem_keys_set {d : Dict κ α} {k k' : κ} {v : α} :
    k' ∈ (d.set k v).map Prod.fst ↔ k' = k ∨ k' ∈ d.map Prod.fst := by
  induction d with
  | nil => simp [set]
  | cons e rest ih =>
      rw [set]
      by_cases he : e.1 = k
      · rw [if_pos he, List.map_cons, List.map_cons, List.mem_cons, List.mem_cons, he]
        tauto
      · rw [if_neg he, List.map_cons, List.map_cons, List.mem_cons, List.mem_cons, ih]
        tauto

theorem nodup_set {d : Dict κ α} (h : (d.map Prod.fst).Nodup) (k : κ) (v : α) :
    ((d.set k v).map Prod.fst).Nodup := by
  induction d with
  | nil => exact List.nodup_singleton k
  | cons e rest ih =>
      obtain ⟨hfresh, hrest⟩ := List.nodup_cons.mp h
      rw [set]
      by_cases he : e.1 = k
      · rw [if_pos he, List.map_cons, List.nodup_cons, ← he]
        exact ⟨hfresh, hrest⟩
      · rw [if_neg he, List.map_cons, List.nodup_cons]
        refine ⟨fun hmem => ?_, ih hrest⟩
        rcases mem_keys_set.mp hmem with heq | hmem
        · exact he heq
        · exact hfresh hmem

/-- A new key goes to the end. -/
theorem set_fresh {d : Dict κ α} {k : κ} (h : k ∉ d.map Prod.fst) (v : α) :
    d.set k v = d ++ [(k, v)] := by
  induction d with
  | nil => rfl
  | cons e rest ih =>
      obtain ⟨he, hrest⟩ := not_or.mp (mt List.mem_cons.mpr h)
      rw [set, if_neg (Ne.symm he), ih hrest]
      rfl

/-! ## Values -/

theorem lookup_cons_ne {k : κ} {e : κ × α} (h : k ≠ e.1) (rest : Dict κ α) :
    (e :: rest).lookup k = rest.lookup k := by
  rw [List.lookup_cons, beq_eq_false_iff_ne.mpr h]

theorem lookup_cons_self (k : κ) (v : α) (rest : Dict κ α) :
    ((k, v) :: rest).lookup k = some v := by
  rw [List.lookup_cons, beq_self_eq_true]

theorem lookup_set (d : Dict κ α) (k k' : κ) (v : α) :
    (d.set k v).lookup k' = if k' = k then some v else d.lookup k' := by
  induction d with
  | nil =>
      rw [set]
      by_cases hk : k' = k
      · rw [if_pos hk, hk, lookup_cons_self]
      · rw [if_neg hk, lookup_cons_ne hk]
  | cons e rest ih =>
      rw [set]
      by_cases he : e.1 = k
      · rw [if_pos he]
        by_cases hk : k' = k
        · rw [if_pos hk, hk, lookup_cons_self]
        · rw [if_neg hk, lookup_cons_ne hk, lookup_cons_ne (he ▸ hk)]
      · rw [if_neg he]
        by_cases hk : k' = e.1
        · obtain ⟨k₀, v₀⟩ := e
          subst hk
          rw [lookup_cons_self, lookup_cons_self, if_neg he]
        · rw [lookup_cons_ne hk, ih, lookup_cons_ne hk]

/-- An item under a key that occurs once is what the key is looked up to. -/
theorem lookup_of_mem {d : Dict κ α} (hkeys : (d.map Prod.fst).Nodup) {k : κ} {v : α}
    (hmem : (k, v) ∈ d) : d.lookup k = some v := by
  induction d with
  | nil => exact absurd hmem List.not_mem_nil
  | cons e rest ih =>
      obtain ⟨hfresh, hkeys⟩ := List.nodup_cons.mp hkeys
      rcases List.mem_cons.mp hmem with rfl | hmem
      · exact lookup_cons_self k v rest
      · have hne : k ≠ e.1 := by
          rintro rfl
          exact hfresh (List.mem_map.mpr ⟨_, hmem, rfl⟩)
        rw [lookup_cons_ne hne]
        exact ih hkeys hmem

theorem mem_of_lookup {d : Dict κ α} {k : κ} {v : α} (h : d.lookup k = some v) : (k, v) ∈ d := by
  obtain ⟨before, after, heq, -⟩ := List.lookup_eq_some_iff.mp h
  rw [heq]
  exact List.mem_append_right _ (List.mem_cons_self ..)

/-- An item after storing is the new one or an old one under another key. -/
theorem mem_set {d : Dict κ α} (hkeys : (d.map Prod.fst).Nodup) {k : κ} {v : α} {e : κ × α}
    (h : e ∈ d.set k v) : e = (k, v) ∨ e ∈ d ∧ e.1 ≠ k := by
  have hlookup := lookup_of_mem (nodup_set hkeys k v) (show (e.1, e.2) ∈ d.set k v from h)
  rw [lookup_set] at hlookup
  by_cases he : e.1 = k
  · rw [if_pos he] at hlookup
    exact .inl (Prod.ext he (Option.some.inj hlookup).symm)
  · rw [if_neg he] at hlookup
    exact .inr ⟨mem_of_lookup hlookup, he⟩

omit [DecidableEq κ] in
/-- What is made of the items of a dictionary has no repetition, if what is made of one item has
none and tells its key. -/
theorem nodup_flatMap {β γ : Type*} {d : Dict κ α} (hkeys : (d.map Prod.fst).Nodup)
    {f : κ × α → List β} {key : β → γ} (owner : γ → κ)
    (howner : ∀ e ∈ d, ∀ b ∈ f e, owner (key b) = e.1)
    (hnodup : ∀ e ∈ d, ((f e).map key).Nodup) : ((d.flatMap f).map key).Nodup := by
  induction d with
  | nil => exact List.nodup_nil
  | cons e rest ih =>
      obtain ⟨hfresh, hkeys⟩ := List.nodup_cons.mp hkeys
      rw [List.flatMap_cons, List.map_append]
      refine List.Nodup.append (hnodup e List.mem_cons_self)
        (ih hkeys (fun e' he' => howner e' (List.mem_cons_of_mem _ he'))
          fun e' he' => hnodup e' (List.mem_cons_of_mem _ he')) ?_
      intro g hg hg'
      obtain ⟨b, hb, rfl⟩ := List.mem_map.mp hg
      obtain ⟨b', hb', heq⟩ := List.mem_map.mp hg'
      obtain ⟨e', he', hmem⟩ := List.mem_flatMap.mp hb'
      have h := howner e List.mem_cons_self b hb
      have h' := howner e' (List.mem_cons_of_mem _ he') b' hmem
      rw [heq, h] at h'
      exact hfresh (h' ▸ List.mem_map_of_mem he')

theorem lookup_of_key {d : Dict κ α} {k : κ} (h : k ∈ d.map Prod.fst) : ∃ v, d.lookup k = some v := by
  induction d with
  | nil => cases h
  | cons e rest ih =>
      by_cases he : k = e.1
      · rw [he]
        exact ⟨e.2, lookup_cons_self _ _ _⟩
      · rw [lookup_cons_ne he]
        exact ih ((List.mem_cons.mp h).resolve_left he)

/-! ## Values that stay -/

theorem mem_keys_addNew {d : Dict κ α} {k k' : κ} {v : α} :
    k' ∈ (d.addNew k v).map Prod.fst ↔ k' = k ∨ k' ∈ d.map Prod.fst := by
  unfold addNew
  split
  · rename_i hk
    constructor
    · exact .inr
    · rintro (rfl | h)
      · exact hk
      · exact h
  · exact mem_keys_set

theorem nodup_addNew {d : Dict κ α} (h : (d.map Prod.fst).Nodup) (k : κ) (v : α) :
    ((d.addNew k v).map Prod.fst).Nodup := by
  unfold addNew
  split
  · exact h
  · exact nodup_set h k v

theorem mem_addNew {d : Dict κ α} {k : κ} {v : α} {e : κ × α} (h : e ∈ d.addNew k v) :
    e = (k, v) ∨ e ∈ d := by
  unfold addNew at h
  split at h
  · exact .inr h
  · rename_i hk
    rw [set_fresh hk] at h
    rcases List.mem_append.mp h with h | h
    · exact .inr h
    · exact .inl (List.mem_singleton.mp h)

theorem mem_keys_addAll {d : Dict κ α} {rows : List (κ × α)} {k : κ} :
    k ∈ (d.addAll rows).map Prod.fst ↔ k ∈ d.map Prod.fst ∨ k ∈ rows.map Prod.fst := by
  unfold addAll
  induction rows generalizing d with
  | nil => simp
  | cons r rows ih =>
      rw [List.foldl_cons, ih, mem_keys_addNew, List.map_cons, List.mem_cons]
      tauto

theorem nodup_addAll {d : Dict κ α} (h : (d.map Prod.fst).Nodup) (rows : List (κ × α)) :
    ((d.addAll rows).map Prod.fst).Nodup := by
  unfold addAll
  induction rows generalizing d with
  | nil => exact h
  | cons r rows ih => exact ih (nodup_addNew h r.1 r.2)

theorem mem_addAll {d : Dict κ α} {rows : List (κ × α)} {e : κ × α} (h : e ∈ d.addAll rows) :
    e ∈ d ∨ e ∈ rows := by
  unfold addAll at h
  induction rows generalizing d with
  | nil => exact .inl h
  | cons r rows ih =>
      rcases ih h with h | h
      · rcases mem_addNew h with rfl | h
        · exact .inr List.mem_cons_self
        · exact .inl h
      · exact .inr (List.mem_cons_of_mem _ h)

omit [DecidableEq κ] in
/-- Where the values tell their keys. -/
theorem map_keyed (key : α → κ) {d : Dict κ α} (h : ∀ e ∈ d, key e.2 = e.1) :
    (d.map Prod.snd).map key = d.map Prod.fst := by
  rw [List.map_map]
  exact List.map_congr_left h

/-! ## Rows -/

theorem valuesOf_cons (r : κ × α) (rows : List (κ × α)) (k : κ) :
    valuesOf (r :: rows) k = if r.1 = k then r.2 :: valuesOf rows k else valuesOf rows k := by
  unfold valuesOf
  by_cases hk : r.1 = k <;> simp [hk]

theorem mem_valuesOf {rows : List (κ × α)} {k : κ} {v : α} :
    v ∈ valuesOf rows k ↔ (k, v) ∈ rows := by
  simp [valuesOf]

theorem valuesOf_map {β : Type*} (f : α → β) (rows : List (κ × α)) (k : κ) :
    valuesOf (rows.map fun r => (r.1, f r.2)) k = (valuesOf rows k).map f := by
  unfold valuesOf
  rw [List.filter_map, List.map_map, List.map_map]
  rfl

theorem lookup_foldl (rows : List (κ × α)) (d : Dict κ α) (k : κ) :
    (rows.foldl (fun d r => d.set r.1 r.2) d).lookup k =
      (valuesOf rows k).getLast?.or (d.lookup k) := by
  induction rows generalizing d with
  | nil => rfl
  | cons r rows ih =>
      rw [List.foldl_cons, ih, lookup_set, valuesOf_cons]
      by_cases hk : r.1 = k
      · rw [if_pos hk, if_pos hk.symm, List.getLast?_cons]
        cases (valuesOf rows k).getLast? <;> rfl
      · rw [if_neg hk, if_neg fun heq => hk heq.symm]

/-- **The last row of a key gives its value.** -/
theorem lookup_ofRows (rows : List (κ × α)) (k : κ) :
    (ofRows rows).lookup k = (valuesOf rows k).getLast? := by
  rw [ofRows, lookup_foldl, List.lookup_nil, Option.or_none]

theorem nodup_ofRows (rows : List (κ × α)) : ((ofRows rows).map Prod.fst).Nodup := by
  have hfold : ∀ d : Dict κ α, (d.map Prod.fst).Nodup →
      ((rows.foldl (fun d r => d.set r.1 r.2) d).map Prod.fst).Nodup := by
    induction rows with
    | nil => exact fun _ h => h
    | cons r rows ih => exact fun d h => ih _ (nodup_set h r.1 r.2)
  exact hfold [] List.nodup_nil

theorem mem_of_mem_ofRows {rows : List (κ × α)} {e : κ × α} (h : e ∈ ofRows rows) : e ∈ rows := by
  have hlast := (lookup_ofRows rows e.1).symm.trans (lookup_of_mem (nodup_ofRows rows) h)
  exact mem_valuesOf.mp (List.mem_of_getLast? hlast)

theorem mem_keys_ofRows {rows : List (κ × α)} {k : κ} :
    k ∈ (ofRows rows).map Prod.fst ↔ k ∈ rows.map Prod.fst := by
  have hfold : ∀ d : Dict κ α, k ∈ (rows.foldl (fun d r => d.set r.1 r.2) d).map Prod.fst ↔
      k ∈ d.map Prod.fst ∨ k ∈ rows.map Prod.fst := by
    induction rows with
    | nil => simp
    | cons r rows ih =>
        intro d
        rw [List.foldl_cons, ih, mem_keys_set, List.map_cons, List.mem_cons]
        tauto
  exact (hfold []).trans (by simp)

theorem mem_ofRows {rows : List (κ × α)} {k : κ} {v : α} :
    (k, v) ∈ ofRows rows ↔ (valuesOf rows k).getLast? = some v := by
  rw [← lookup_ofRows]
  constructor
  · exact lookup_of_mem (nodup_ofRows rows)
  · exact mem_of_lookup

end Dict
