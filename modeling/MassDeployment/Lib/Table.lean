import Mathlib.Data.List.Basic
import Mathlib.Order.Nat

set_option autoImplicit false

/-! # Tables with an autoincrement key

`Table ρ` is a relational table: a list of rows in the order of their integer keys, the
counter the next key is drawn from, and the constraints every table of a database keeps.
The constraints are fields, so a table that breaks one cannot be built: keys are strictly
increasing and never above the counter, and no two rows clash on a `UNIQUE` constraint.

A key is never used twice, not even after its row was deleted. This is what makes
`Table.Evolves` a useful order: between two moments of a run, a row whose key is not above
the earlier counter is a row of the earlier table that was updated, and `Row.grows` says
what an update may do to it.
-/

/-- What a table needs to know about its rows. -/
class Row (ρ : Type) where
  /-- The integer primary key. -/
  id : ρ → Nat
  /-- Two rows the `UNIQUE` constraints do not admit together. -/
  clash : ρ → ρ → Prop
  clash_symm : ∀ a b, clash a b → clash b a
  decClash : DecidableRel clash
  /-- What an update may turn a row into. -/
  grows : ρ → ρ → Prop
  grows_id : ∀ a b, grows a b → id b = id a
  grows_refl : ∀ a, grows a a
  grows_trans : ∀ a b c, grows a b → grows b c → grows a c

instance {ρ : Type} [Row ρ] : DecidableRel (Row.clash (ρ := ρ)) := Row.decClash

/-- `f` is an update that may be made to the rows satisfying `p`: it moves a row along
`Row.grows`, and touches no column of a `UNIQUE` constraint. -/
structure Row.Keeps {ρ : Type} [Row ρ] (p : ρ → Bool) (f : ρ → ρ) : Prop where
  grows : ∀ r, p r = true → Row.grows r (f r)
  clash : ∀ a b, Row.clash (f a) b → Row.clash a b

/-- A table: the rows in key order and the key counter, with the constraints as fields. -/
structure Table (ρ : Type) [Row ρ] where
  rows : List ρ
  seq : Nat
  bounded : ∀ r ∈ rows, Row.id r ≤ seq
  sorted : rows.Pairwise fun a b => Row.id a < Row.id b
  unique : rows.Pairwise fun a b => ¬ Row.clash a b

namespace Table

variable {ρ : Type} [Row ρ]

@[ext] theorem ext {T T' : Table ρ} (hr : T.rows = T'.rows) (hs : T.seq = T'.seq) : T = T' := by
  cases T
  cases T'
  cases hr
  cases hs
  rfl

/-- The table without rows. -/
def empty : Table ρ := ⟨[], 0, by simp, .nil, .nil⟩

instance : Inhabited (Table ρ) := ⟨empty⟩

/-- The row with key `i`. -/
def get (T : Table ρ) (i : Nat) : Option ρ := T.rows.find? fun r => Row.id r == i

/-- The first row satisfying `p`, in key order. -/
def find (T : Table ρ) (p : ρ → Bool) : Option ρ := T.rows.find? p

/-- All rows satisfying `p`, in key order. -/
def select (T : Table ρ) (p : ρ → Bool) : List ρ := T.rows.filter p

/-- `UPDATE … WHERE p`. -/
def update (T : Table ρ) (p : ρ → Bool) (f : ρ → ρ) (h : Row.Keeps p f) : Table ρ where
  rows := T.rows.map fun r => if p r then f r else r
  seq := T.seq
  bounded := by
    intro r hr
    obtain ⟨a, ha, rfl⟩ := List.mem_map.mp hr
    split
    · rw [Row.grows_id _ _ (h.grows a ‹_›)]
      exact T.bounded a ha
    · exact T.bounded a ha
  sorted := by
    refine List.pairwise_map.mpr (T.sorted.imp fun {a b} hab => ?_)
    have key : ∀ r, Row.id (if p r then f r else r) = Row.id r := by
      intro r
      split
      · exact Row.grows_id _ _ (h.grows r ‹_›)
      · rfl
    simpa only [key] using hab
  unique := by
    refine List.pairwise_map.mpr (T.unique.imp fun {a b} hab hc => hab ?_)
    have left : ∀ r s, Row.clash (if p r then f r else r) s → Row.clash r s := by
      intro r s hrs
      split at hrs
      · exact h.clash r s hrs
      · exact hrs
    exact Row.clash_symm _ _ (left b a (Row.clash_symm _ _ (left a _ hc)))

/-- An `UPDATE` of a `UNIQUE` column: refused when the outcome would clash. -/
def tryUpdate (T : Table ρ) (p : ρ → Bool) (f : ρ → ρ) (h : ∀ r, p r = true → Row.grows r (f r)) :
    Option (Table ρ) :=
  if hu : (T.rows.map fun r => if p r then f r else r).Pairwise fun a b => ¬ Row.clash a b then
    some
      { rows := T.rows.map fun r => if p r then f r else r
        seq := T.seq
        bounded := by
          intro r hr
          obtain ⟨a, ha, rfl⟩ := List.mem_map.mp hr
          split
          · rw [Row.grows_id _ _ (h a ‹_›)]
            exact T.bounded a ha
          · exact T.bounded a ha
        sorted := by
          refine List.pairwise_map.mpr (T.sorted.imp fun {a b} hab => ?_)
          have key : ∀ r, Row.id (if p r then f r else r) = Row.id r := by
            intro r
            split
            · exact Row.grows_id _ _ (h r ‹_›)
            · rfl
          simpa only [key] using hab
        unique := hu }
  else none

/-- `DELETE … WHERE p`. -/
def delete (T : Table ρ) (p : ρ → Bool) : Table ρ where
  rows := T.rows.filter fun r => !p r
  seq := T.seq
  bounded r hr := T.bounded r (List.mem_of_mem_filter hr)
  sorted := T.sorted.filter _
  unique := T.unique.filter _

/-- `INSERT` of the row `mk` builds around a fresh key: refused when the row would clash
with one that is there. -/
def insert (T : Table ρ) (mk : Nat → ρ) (hmk : ∀ i, Row.id (mk i) = i) : Option (Table ρ) :=
  if hu : ∀ r ∈ T.rows, ¬ Row.clash r (mk (T.seq + 1)) then
    some
      { rows := T.rows ++ [mk (T.seq + 1)]
        seq := T.seq + 1
        bounded := by
          intro r hr
          rcases List.mem_append.mp hr with hr | hr
          · exact Nat.le_succ_of_le (T.bounded r hr)
          · exact (List.mem_singleton.mp hr ▸ hmk (T.seq + 1)).le
        sorted := by
          refine List.pairwise_append.mpr ⟨T.sorted, by simp, ?_⟩
          intro a ha b hb
          rw [List.mem_singleton.mp hb, hmk]
          exact Nat.lt_succ_of_le (T.bounded a ha)
        unique := by
          refine List.pairwise_append.mpr ⟨T.unique, by simp, ?_⟩
          intro a ha b hb
          rw [List.mem_singleton.mp hb]
          exact hu a ha }
  else none

/-! ## Rows and keys -/

/-- A key belongs to one row. -/
theorem eq_of_id (T : Table ρ) {a b : ρ} (ha : a ∈ T.rows) (hb : b ∈ T.rows)
    (h : Row.id a = Row.id b) : a = b := by
  have hs := T.sorted
  generalize T.rows = l at ha hb hs
  induction l with
  | nil => cases ha
  | cons x l ih =>
      rw [List.pairwise_cons] at hs
      rcases List.mem_cons.mp ha with rfl | ha' <;> rcases List.mem_cons.mp hb with rfl | hb'
      · rfl
      · have := hs.1 b hb'
        omega
      · have := hs.1 a ha'
        omega
      · exact ih ha' hb' hs.2

/-- Two rows that clash are the same row. -/
theorem eq_of_clash (T : Table ρ) {a b : ρ} (ha : a ∈ T.rows) (hb : b ∈ T.rows)
    (h : Row.clash a b) : a = b := by
  have hs := T.unique
  generalize T.rows = l at ha hb hs
  induction l with
  | nil => cases ha
  | cons x l ih =>
      rw [List.pairwise_cons] at hs
      rcases List.mem_cons.mp ha with rfl | ha' <;> rcases List.mem_cons.mp hb with rfl | hb'
      · rfl
      · exact absurd h (hs.1 b hb')
      · exact absurd (Row.clash_symm _ _ h) (hs.1 a ha')
      · exact ih ha' hb' hs.2

theorem get_eq_some {T : Table ρ} {i : Nat} {r : ρ} :
    T.get i = some r ↔ r ∈ T.rows ∧ Row.id r = i := by
  constructor
  · intro h
    exact ⟨List.mem_of_find?_eq_some h, by simpa using List.find?_some h⟩
  · rintro ⟨hr, rfl⟩
    cases hf : T.get (Row.id r) with
    | none =>
        have := List.find?_eq_none.mp hf r hr
        simp at this
    | some x =>
        have hx : x ∈ T.rows := List.mem_of_find?_eq_some hf
        have hid : Row.id x = Row.id r := by simpa using List.find?_some hf
        rw [T.eq_of_id hx hr hid]

theorem find_some {T : Table ρ} {p : ρ → Bool} {r : ρ} (h : T.find p = some r) :
    r ∈ T.rows ∧ p r = true :=
  ⟨List.mem_of_find?_eq_some h, List.find?_some h⟩

theorem find_eq_none {T : Table ρ} {p : ρ → Bool} :
    T.find p = none ↔ ∀ r ∈ T.rows, p r = false := by
  simp [find, List.find?_eq_none]

/-- A row only one row can be is the row that is found. -/
theorem find_of_unique {T : Table ρ} {p : ρ → Bool} {r : ρ} (hr : r ∈ T.rows) (hp : p r = true)
    (h : ∀ x ∈ T.rows, p x = true → x = r) : T.find p = some r := by
  cases hf : T.find p with
  | none => simp [find_eq_none.mp hf r hr] at hp
  | some x => rw [h x (find_some hf).1 (find_some hf).2]

theorem mem_select {T : Table ρ} {p : ρ → Bool} {r : ρ} :
    r ∈ T.select p ↔ r ∈ T.rows ∧ p r = true := by
  simp [select]

theorem mem_update {T : Table ρ} {p : ρ → Bool} {f : ρ → ρ} {h : Row.Keeps p f} {r : ρ} :
    r ∈ (T.update p f h).rows ↔ ∃ a ∈ T.rows, (if p a then f a else a) = r := by
  simp [update]

/-- A search that an update does not touch finds the same row, updated. -/
theorem find_update {T : Table ρ} {p q : ρ → Bool} {f : ρ → ρ} {h : Row.Keeps p f}
    (hq : ∀ r, p r = true → q (f r) = q r) :
    (T.update p f h).find q = (T.find q).map fun r => if p r then f r else r := by
  unfold find update
  rw [List.find?_map]
  congr 2
  funext r
  show q (if p r then f r else r) = q r
  split
  · exact hq r ‹_›
  · rfl

theorem mem_delete {T : Table ρ} {p : ρ → Bool} {r : ρ} :
    r ∈ (T.delete p).rows ↔ r ∈ T.rows ∧ p r = false := by
  simp [delete]

/-- An update that leaves a reading of the rows alone. -/
theorem map_update {κ : Type} (key : ρ → κ) {T : Table ρ} {p : ρ → Bool} {f : ρ → ρ}
    (h : Row.Keeps p f) (hf : ∀ r, key (f r) = key r) :
    (T.update p f h).rows.map key = T.rows.map key := by
  show (T.rows.map fun r => if p r then f r else r).map key = _
  rw [List.map_map]
  refine List.map_congr_left fun r _ => ?_
  show key (if p r then f r else r) = key r
  split
  · exact hf r
  · rfl

@[simp] theorem seq_update (T : Table ρ) (p : ρ → Bool) (f : ρ → ρ) (h : Row.Keeps p f) :
    (T.update p f h).seq = T.seq := rfl

@[simp] theorem seq_delete (T : Table ρ) (p : ρ → Bool) : (T.delete p).seq = T.seq := rfl

/-- An update no row asks for changes nothing. -/
theorem update_of_none {T : Table ρ} {p : ρ → Bool} {f : ρ → ρ} {h : Row.Keeps p f}
    (hp : T.rows.any p = false) : T.update p f h = T := by
  refine Table.ext ?_ rfl
  show T.rows.map _ = T.rows
  conv_rhs => rw [← List.map_id T.rows]
  refine List.map_congr_left fun r hr => ?_
  rw [if_neg (by simpa using List.any_eq_false.mp hp r hr), id]

theorem insert_eq_some {T T' : Table ρ} {mk : Nat → ρ} {hmk : ∀ i, Row.id (mk i) = i}
    (h : T.insert mk hmk = some T') :
    T'.rows = T.rows ++ [mk (T.seq + 1)] ∧ T'.seq = T.seq + 1 := by
  unfold insert at h
  split at h
  · cases h
    exact ⟨rfl, rfl⟩
  · cases h

theorem tryUpdate_eq_some {T T' : Table ρ} {p : ρ → Bool} {f : ρ → ρ}
    {hg : ∀ r, p r = true → Row.grows r (f r)} (h : T.tryUpdate p f hg = some T') :
    T'.rows = (T.rows.map fun r => if p r then f r else r) ∧ T'.seq = T.seq := by
  unfold tryUpdate at h
  split at h
  · cases h
    exact ⟨rfl, rfl⟩
  · cases h

/-- A row that clashes with none is inserted. -/
theorem insert_of_fresh {T : Table ρ} {mk : Nat → ρ} (hmk : ∀ i, Row.id (mk i) = i)
    (h : ∀ r ∈ T.rows, ¬ Row.clash r (mk (T.seq + 1))) :
    ∃ T', T.insert mk hmk = some T' ∧ T'.rows = T.rows ++ [mk (T.seq + 1)] ∧
      T'.seq = T.seq + 1 := by
  unfold insert
  rw [dif_pos h]
  exact ⟨_, rfl, rfl, rfl⟩

/-- An update whose outcome clashes with no row is made. -/
theorem tryUpdate_of_fresh {T : Table ρ} {p : ρ → Bool} {f : ρ → ρ}
    (hg : ∀ r, p r = true → Row.grows r (f r))
    (h : (T.rows.map fun r => if p r then f r else r).Pairwise fun a b => ¬ Row.clash a b) :
    ∃ T', T.tryUpdate p f hg = some T' ∧
      T'.rows = (T.rows.map fun r => if p r then f r else r) ∧ T'.seq = T.seq := by
  unfold tryUpdate
  rw [dif_pos h]
  exact ⟨_, rfl, rfl, rfl⟩

/-! ## Evolution -/

/-- `T'` is `T` some writes later: the counter has not gone back, and a row under an old
key is an old row that was updated. -/
structure Evolves (T T' : Table ρ) : Prop where
  seq : T.seq ≤ T'.seq
  grows : ∀ r' ∈ T'.rows, Row.id r' ≤ T.seq → ∃ r ∈ T.rows, Row.grows r r'

namespace Evolves

theorem refl (T : Table ρ) : Evolves T T :=
  ⟨le_rfl, fun r hr _ => ⟨r, hr, Row.grows_refl r⟩⟩

theorem trans {T T' T'' : Table ρ} (h : Evolves T T') (h' : Evolves T' T'') : Evolves T T'' := by
  refine ⟨h.seq.trans h'.seq, fun r'' hr'' hle => ?_⟩
  obtain ⟨r', hr', hg'⟩ := h'.grows r'' hr'' (hle.trans h.seq)
  obtain ⟨r, hr, hg⟩ := h.grows r' hr' (by rw [← Row.grows_id _ _ hg']; exact hle)
  exact ⟨r, hr, Row.grows_trans _ _ _ hg hg'⟩

/-- A row under an old key was there before. -/
theorem old {T T' : Table ρ} (h : Evolves T T') {i : Nat} (hi : i ≤ T.seq) {r' : ρ}
    (hr' : r' ∈ T'.rows) (hid : Row.id r' = i) : ∃ r ∈ T.rows, Row.id r = i ∧ Row.grows r r' := by
  obtain ⟨r, hr, hg⟩ := h.grows r' hr' (hid ▸ hi)
  exact ⟨r, hr, (Row.grows_id _ _ hg).symm.trans hid, hg⟩

theorem of_update (T : Table ρ) (p : ρ → Bool) (f : ρ → ρ) (h : Row.Keeps p f) :
    Evolves T (T.update p f h) := by
  refine ⟨le_rfl, fun r' hr' _ => ?_⟩
  obtain ⟨r, hr, rfl⟩ := mem_update.mp hr'
  refine ⟨r, hr, ?_⟩
  split
  · exact h.grows r ‹_›
  · exact Row.grows_refl r

theorem of_tryUpdate {T T' : Table ρ} {p : ρ → Bool} {f : ρ → ρ}
    {hg : ∀ r, p r = true → Row.grows r (f r)} (h : T.tryUpdate p f hg = some T') :
    Evolves T T' := by
  obtain ⟨hr, hs⟩ := tryUpdate_eq_some h
  refine ⟨hs.ge, fun r' hr' _ => ?_⟩
  rw [hr] at hr'
  obtain ⟨r, hmem, rfl⟩ := List.mem_map.mp hr'
  refine ⟨r, hmem, ?_⟩
  split
  · exact hg r ‹_›
  · exact Row.grows_refl r

theorem of_delete (T : Table ρ) (p : ρ → Bool) : Evolves T (T.delete p) :=
  ⟨le_rfl, fun r' hr' _ => ⟨r', (mem_delete.mp hr').1, Row.grows_refl r'⟩⟩

theorem of_insert {T T' : Table ρ} {mk : Nat → ρ} {hmk : ∀ i, Row.id (mk i) = i}
    (h : T.insert mk hmk = some T') : Evolves T T' := by
  obtain ⟨hr, hs⟩ := insert_eq_some h
  refine ⟨by omega, fun r' hr' hle => ?_⟩
  rw [hr] at hr'
  rcases List.mem_append.mp hr' with hr' | hr'
  · exact ⟨r', hr', Row.grows_refl r'⟩
  · rw [List.mem_singleton.mp hr', hmk] at hle
    omega

/-- A row that is still there under its key has grown from the row it was. -/
theorem get {T T' : Table ρ} (h : Evolves T T') {i : Nat} {r r' : ρ} (hr : T.get i = some r)
    (hr' : T'.get i = some r') : Row.grows r r' := by
  obtain ⟨hm, hi⟩ := get_eq_some.mp hr
  obtain ⟨hm', hi'⟩ := get_eq_some.mp hr'
  obtain ⟨a, ha, hg⟩ := h.grows r' hm' (by rw [hi', ← hi]; exact T.bounded r hm)
  have : a = r := T.eq_of_id ha hm (by rw [← Row.grows_id _ _ hg, hi', hi])
  exact this ▸ hg

end Evolves

instance : IsPreorder (Table ρ) Evolves where
  refl := Evolves.refl
  trans _ _ _ := Evolves.trans

/-! ## Keys that stay -/

/-- No row of `T` was deleted on the way to `T'`. -/
def Keeps (T T' : Table ρ) : Prop := ∀ r ∈ T.rows, ∃ r' ∈ T'.rows, Row.id r' = Row.id r

namespace Keeps

theorem refl (T : Table ρ) : Keeps T T := fun r hr => ⟨r, hr, rfl⟩

theorem trans {T T' T'' : Table ρ} (h : Keeps T T') (h' : Keeps T' T'') : Keeps T T'' := by
  intro r hr
  obtain ⟨r', hr', hid⟩ := h r hr
  obtain ⟨r'', hr'', hid'⟩ := h' r' hr'
  exact ⟨r'', hr'', hid'.trans hid⟩

theorem of_update (T : Table ρ) (p : ρ → Bool) (f : ρ → ρ) (h : Row.Keeps p f) :
    Keeps T (T.update p f h) := by
  intro r hr
  refine ⟨_, mem_update.mpr ⟨r, hr, rfl⟩, ?_⟩
  split
  · exact Row.grows_id _ _ (h.grows r ‹_›)
  · rfl

theorem of_tryUpdate {T T' : Table ρ} {p : ρ → Bool} {f : ρ → ρ}
    {hg : ∀ r, p r = true → Row.grows r (f r)} (h : T.tryUpdate p f hg = some T') :
    Keeps T T' := by
  intro r hr
  rw [(tryUpdate_eq_some h).1]
  refine ⟨_, List.mem_map.mpr ⟨r, hr, rfl⟩, ?_⟩
  split
  · exact Row.grows_id _ _ (hg r ‹_›)
  · rfl

theorem of_insert {T T' : Table ρ} {mk : Nat → ρ} {hmk : ∀ i, Row.id (mk i) = i}
    (h : T.insert mk hmk = some T') : Keeps T T' := by
  intro r hr
  refine ⟨r, ?_, rfl⟩
  rw [(insert_eq_some h).1]
  exact List.mem_append_left _ hr

/-- A key that is there is there afterwards. -/
theorem get {T T' : Table ρ} (h : Keeps T T') {i : Nat} (hi : ∃ r ∈ T.rows, Row.id r = i) :
    ∃ r ∈ T'.rows, Row.id r = i := by
  obtain ⟨r, hr, rfl⟩ := hi
  exact h r hr

end Keeps

/-! ## Restrained writes -/

/-- `Q` says what happens to the rows that were there and `N` what the new ones are like:
the two fit together when both survive further writes. -/
structure Restraint (Q : ρ → ρ → Prop) (N : ρ → Prop) : Prop where
  refl : ∀ r, Q r r
  trans : ∀ a b c, Q a b → Q b c → Q a c
  new : ∀ a b, N a → Q a b → N b

/-- `T'` is `T` some writes later, all of which moved rows along `Q` and added only rows
satisfying `N`. -/
structure Stays (Q : ρ → ρ → Prop) (N : ρ → Prop) (T T' : Table ρ) : Prop where
  seq : T.seq ≤ T'.seq
  rows : ∀ r' ∈ T'.rows,
    (∃ r ∈ T.rows, Row.id r' = Row.id r ∧ Q r r') ∨ (T.seq < Row.id r' ∧ N r')

namespace Stays

variable {Q : ρ → ρ → Prop} {N : ρ → Prop}

theorem refl (hq : Restraint Q N) (T : Table ρ) : Stays Q N T T :=
  ⟨le_rfl, fun r hr => .inl ⟨r, hr, rfl, hq.refl r⟩⟩

theorem trans (hq : Restraint Q N) {T T' T'' : Table ρ} (h : Stays Q N T T')
    (h' : Stays Q N T' T'') : Stays Q N T T'' := by
  refine ⟨h.seq.trans h'.seq, fun r'' hr'' => ?_⟩
  rcases h'.rows r'' hr'' with ⟨r', hr', hid', hq'⟩ | ⟨hlt, hn⟩
  · rcases h.rows r' hr' with ⟨r, hr, hid, hq''⟩ | ⟨hlt, hn⟩
    · exact .inl ⟨r, hr, hid'.trans hid, hq.trans _ _ _ hq'' hq'⟩
    · exact .inr ⟨hid' ▸ hlt, hq.new _ _ hn hq'⟩
  · exact .inr ⟨h.seq.trans_lt hlt, hn⟩

theorem of_update (hq : Restraint Q N) (T : Table ρ) (p : ρ → Bool) (f : ρ → ρ)
    (h : Row.Keeps p f) (hf : ∀ r ∈ T.rows, p r = true → Q r (f r)) :
    Stays Q N T (T.update p f h) := by
  refine ⟨le_rfl, fun r' hr' => .inl ?_⟩
  obtain ⟨r, hr, rfl⟩ := mem_update.mp hr'
  refine ⟨r, hr, ?_⟩
  split
  · exact ⟨Row.grows_id _ _ (h.grows r ‹_›), hf r hr ‹_›⟩
  · exact ⟨rfl, hq.refl r⟩

theorem of_delete (hq : Restraint Q N) (T : Table ρ) (p : ρ → Bool) : Stays Q N T (T.delete p) :=
  ⟨le_rfl, fun r hr => .inl ⟨r, (mem_delete.mp hr).1, rfl, hq.refl r⟩⟩

theorem of_insert (hq : Restraint Q N) {T T' : Table ρ} {mk : Nat → ρ}
    {hmk : ∀ i, Row.id (mk i) = i} (h : T.insert mk hmk = some T') (hn : ∀ i, N (mk i)) :
    Stays Q N T T' := by
  obtain ⟨hr, hs⟩ := insert_eq_some h
  refine ⟨by omega, fun r' hr' => ?_⟩
  rw [hr] at hr'
  rcases List.mem_append.mp hr' with hr' | hr'
  · exact .inl ⟨r', hr', rfl, hq.refl r'⟩
  · rw [List.mem_singleton.mp hr']
    exact .inr ⟨by rw [hmk]; omega, hn _⟩

end Stays

end Table
