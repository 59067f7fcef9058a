import MassDeployment.Lib.Suffix
import MassDeployment.Controller.Schema

set_option autoImplicit false

/-! # Log rotation (`maintenance.ts`)

`pruneLogs` deletes rows of the table `logs` in three statements, one for each cap: by the time of
the row, by the number of newer rows, and by the running size over the newer rows. Row ids grow
with the order of arrival, and rows that are gone leave gaps.
-/

namespace MassDeployment

/-- A row of `logs` under its id. -/
structure LogEntry where
  id : Nat
  row : LogRow

/-- The table `logs`, in the order of the ids. -/
structure LogTable where
  entries : List LogEntry
  sorted : entries.Pairwise fun a b => a.id < b.id

namespace LogTable

/-- `DELETE FROM logs WHERE …`, with the number of rows removed. -/
def delete (t : LogTable) (surplus : LogEntry → Bool) : LogTable × Nat :=
  ({ entries := t.entries.filter fun e => !surplus e, sorted := t.sorted.filter _ },
    t.entries.countP surplus)

end LogTable

/-- The caps of the rotation; one of 0 (or below) is off. -/
structure LogCaps where
  retentionDays : ℚ
  maxEntries : Int
  maxSizeMb : ℚ

/-- `LENGTH` of a text: the characters before the first NUL. -/
def sqlLength (s : String) : Nat := (s.toList.takeWhile (· ≠ Char.ofNat 0)).length

section Rotation

/- The text under which a text column keeps a number. -/
variable (numberText : Js.Number → String)

/-- `LENGTH(COALESCE(column, ''))`. -/
def columnLength : Js.SqlValue → Nat
  | .null => 0
  | .text s => sqlLength s
  | .number n => sqlLength (numberText n)

/-- `LOG_ROW_BYTES`. -/
def logRowBytes (row : LogRow) : Nat :=
  sqlLength row.msg + columnLength numberText row.detail + sqlLength (row.source.getD "") +
    sqlLength (row.node.getD "") + columnLength numberText row.lab +
    columnLength numberText row.user + sqlLength (row.taskId.getD "") + 48

/-- `SUM(…) OVER (ORDER BY id DESC)`: the sizes of the rows from this one to the newest. -/
def cumulativeBytes (entries : List LogEntry) (e : LogEntry) : Nat :=
  ((entries.filter fun x => e.id ≤ x.id).map fun x => logRowBytes numberText x.row).sum

/-- Drop rows older than `logRetentionDays`. -/
def pruneByAge (caps : LogCaps) (now : ℚ) (t : LogTable) : LogTable × Nat :=
  if 0 < caps.retentionDays then
    let cutoff := now - caps.retentionDays * 86400 * 1000
    t.delete fun e => e.row.ts.lt (.fin cutoff)
  else (t, 0)

/-- Keep only the newest `logMaxEntries` rows: the subquery finds the newest one that is too many,
if there is one. -/
def pruneByCount (caps : LogCaps) (t : LogTable) : LogTable × Nat :=
  if 0 < caps.maxEntries then
    let ids := (t.entries.map (·.id)).reverse
    match ids[caps.maxEntries.toNat]? with
    | none => (t, 0)
    | some id => t.delete fun e => e.id ≤ id
  else (t, 0)

/-- Keep only the newest rows whose cumulative content size fits `logMaxSizeMb`. -/
def pruneBySize (caps : LogCaps) (t : LogTable) : LogTable × Nat :=
  let maxBytes := caps.maxSizeMb * 1024 * 1024
  if 0 < maxBytes then t.delete fun e => maxBytes < cumulativeBytes numberText t.entries e
  else (t, 0)

/-- Enforce the three caps, and count the rows removed. -/
def pruneLogs (caps : LogCaps) (now : ℚ) (t : LogTable) : LogTable × Nat :=
  let (t₁, byAge) := pruneByAge caps now t
  let (t₂, byCount) := pruneByCount caps t₁
  let (t₃, bySize) := pruneBySize numberText caps t₂
  (t₃, byAge + byCount + bySize)

/-! ## The caps as limits -/

/-- The row passes the age cap. -/
def Recent (caps : LogCaps) (now : ℚ) (e : LogEntry) : Bool :=
  caps.retentionDays ≤ 0 ∨ e.row.ts.lt (.fin (now - caps.retentionDays * 86400 * 1000)) = false

/-- The rows meet the entry-count cap. -/
def withinCount (caps : LogCaps) (entries : List LogEntry) : Bool :=
  caps.maxEntries ≤ 0 ∨ (entries.length : Int) ≤ caps.maxEntries

/-- The rows meet the cumulative-size cap. -/
def withinSize (caps : LogCaps) (entries : List LogEntry) : Bool :=
  caps.maxSizeMb * 1024 * 1024 ≤ 0 ∨
    ((entries.map fun x => logRowBytes numberText x.row).sum : ℚ) ≤ caps.maxSizeMb * 1024 * 1024

end Rotation

variable {numberText : Js.Number → String} {caps : LogCaps}

theorem withinCount_closed : List.SuffixClosed (withinCount caps) where
  nil := by
    simp only [withinCount, List.length_nil, Nat.cast_zero, decide_eq_true_iff]
    omega
  tail a l h := by
    simp only [withinCount, List.length_cons, decide_eq_true_iff, Nat.cast_add] at h ⊢
    omega

theorem withinSize_closed : List.SuffixClosed (withinSize numberText caps) where
  nil := by
    simp only [withinSize, List.map_nil, List.sum_nil, Nat.cast_zero, decide_eq_true_iff]
    exact le_total _ _
  tail a l h := by
    simp only [withinSize, List.map_cons, List.sum_cons, decide_eq_true_iff, Nat.cast_add] at h ⊢
    refine h.imp id fun hsum => ?_
    have hnonneg : (0 : ℚ) ≤ logRowBytes numberText a.row := Nat.cast_nonneg _
    exact (le_add_of_nonneg_left hnonneg).trans hsum

/-! ## What each statement keeps -/

theorem delete_count (t : LogTable) (surplus : LogEntry → Bool) :
    (t.delete surplus).2 + (t.delete surplus).1.entries.length = t.entries.length := by
  have hsplit := List.length_eq_countP_add_countP surplus (l := t.entries)
  simp only [LogTable.delete, ← List.countP_eq_length_filter]
  simp only [Bool.not_eq_true, Bool.decide_eq_false] at hsplit
  omega

theorem pruneByAge_entries (now : ℚ) (t : LogTable) :
    (pruneByAge caps now t).1.entries = t.entries.filter (Recent caps now) := by
  unfold pruneByAge
  split
  · rename_i hon
    apply List.filter_congr
    intro e _
    have hoff := not_le.mpr hon
    cases hlt : e.row.ts.lt (.fin (now - caps.retentionDays * 86400 * 1000)) <;>
      simp [Recent, hlt, hoff]
  · rename_i hoff
    refine (List.filter_eq_self.mpr fun e _ => ?_).symm
    simp [Recent, not_lt.mp hoff]

theorem pruneByCount_entries (t : LogTable) :
    (pruneByCount caps t).1.entries = t.entries.longestSuffix (withinCount caps) := by
  have hoff : ¬0 < caps.maxEntries ∨ t.entries.length ≤ caps.maxEntries.toNat →
      t.entries.longestSuffix (withinCount caps) = t.entries := by
    intro hwithin
    apply List.longestSuffix_of_ok
    simp only [withinCount, decide_eq_true_iff]
    omega
  unfold pruneByCount
  dsimp only
  split
  · rename_i hon
    split
    · rename_i hnone
      rw [List.getElem?_eq_none_iff, List.length_reverse, List.length_map] at hnone
      exact (hoff (.inr hnone)).symm
    · rename_i id hsome
      -- the row found has as many newer ones as may stay
      rw [← List.map_reverse, List.getElem?_map, Option.map_eq_some_iff] at hsome
      obtain ⟨e, he, rfl⟩ := hsome
      obtain ⟨front, back, hsplit, hlength⟩ := List.split_of_getElem?_reverse he
      have hcut : (front ++ [e] ++ back).longestSuffix (withinCount caps) = back := by
        apply List.longestSuffix_append withinCount_closed
        · simp only [withinCount, decide_eq_true_iff]
          omega
        · intro init last _
          simp only [withinCount, List.length_cons, Nat.cast_add, decide_eq_false_iff_not]
          omega
      have hsorted := t.sorted
      rw [hsplit, List.append_cons, List.pairwise_append] at hsorted
      obtain ⟨hfront, -, hback⟩ := hsorted
      have hdropped : (front ++ [e]).filter (fun x => !decide (x.id ≤ e.id)) = [] := by
        apply List.filter_eq_nil_iff.mpr
        intro x hx
        have hle : x.id ≤ e.id := by
          rcases List.mem_append.mp hx with hx | hx
          · exact Nat.le_of_lt
              ((List.pairwise_append.mp hfront).2.2 x hx e (List.mem_singleton_self e))
          · rw [List.mem_singleton.mp hx]
        simp [hle]
      have hstays : back.filter (fun x => !decide (x.id ≤ e.id)) = back := by
        apply List.filter_eq_self.mpr
        intro x hx
        have hlt := hback e (List.mem_append_right _ (List.mem_singleton_self e)) x hx
        simp [hlt]
      rw [hsplit, List.append_cons, hcut]
      simp only [LogTable.delete]
      rw [hsplit, List.append_cons, List.filter_append, hdropped, hstays, List.nil_append]
  · rename_i hoff'
    exact (hoff (.inl hoff')).symm

theorem pruneBySize_entries (t : LogTable) :
    (pruneBySize numberText caps t).1.entries = t.entries.longestSuffix (withinSize numberText caps) := by
  unfold pruneBySize
  dsimp only
  split
  · rename_i hon
    have hoff := not_le.mpr hon
    rw [← List.filter_eq_longestSuffix withinSize_closed t.sorted]
    apply List.filter_congr
    intro e _
    rw [Bool.eq_iff_iff, Bool.not_eq_true', decide_eq_false_iff_not, not_lt, withinSize,
      decide_eq_true_iff, or_iff_right hoff]
    rfl
  · rename_i hoff
    refine (List.longestSuffix_of_ok ?_).symm
    simp [withinSize, not_lt.mp hoff]

/-- Each statement counts what it removes. -/
theorem pruneLogs_count (now : ℚ) (t : LogTable) :
    (pruneLogs numberText caps now t).2 + (pruneLogs numberText caps now t).1.entries.length =
      t.entries.length := by
  have hage : (pruneByAge caps now t).2 + (pruneByAge caps now t).1.entries.length =
      t.entries.length := by
    unfold pruneByAge
    split
    · exact delete_count _ _
    · exact Nat.zero_add _
  have hcount : ∀ t, (pruneByCount caps t).2 + (pruneByCount caps t).1.entries.length =
      t.entries.length := by
    intro t
    unfold pruneByCount
    dsimp only
    split
    · split
      · exact Nat.zero_add _
      · exact delete_count _ _
    · exact Nat.zero_add _
  have hsize : ∀ t, (pruneBySize numberText caps t).2 +
      (pruneBySize numberText caps t).1.entries.length = t.entries.length := by
    intro t
    unfold pruneBySize
    dsimp only
    split
    · exact delete_count _ _
    · exact Nat.zero_add _
  have hcount := hcount (pruneByAge caps now t).1
  have hsize := hsize (pruneByCount caps (pruneByAge caps now t).1).1
  simp only [pruneLogs]
  omega

/-- The rows within both caps. -/
def withinCaps (numberText : Js.Number → String) (caps : LogCaps) (entries : List LogEntry) : Bool :=
  withinCount caps entries && withinSize numberText caps entries

theorem withinCaps_closed : List.SuffixClosed (withinCaps numberText caps) :=
  withinCount_closed.and withinSize_closed

/-- What is left is the longest suffix of the recent rows within both caps. -/
theorem pruneLogs_entries (now : ℚ) (t : LogTable) :
    (pruneLogs numberText caps now t).1.entries =
      (t.entries.filter (Recent caps now)).longestSuffix (withinCaps numberText caps) := by
  simp only [pruneLogs]
  rw [pruneBySize_entries, pruneByCount_entries, pruneByAge_entries,
    List.longestSuffix_longestSuffix withinCount_closed]
  rfl

/-- **Log rotation is newest-wins.** The rows that survive are the longest suffix, in the order of
the ids, of the rows that pass the age cap that meets the two other caps. The number returned is
that of the rows removed, and a second call removes none. -/
theorem pruneLogs_newest_wins (numberText : Js.Number → String) (caps : LogCaps) (now : ℚ)
    (t : LogTable) :
    let recent := t.entries.filter (Recent caps now)
    let kept := (pruneLogs numberText caps now t).1
    (kept.entries <:+ recent ∧
      withinCount caps kept.entries = true ∧ withinSize numberText caps kept.entries = true ∧
      ∀ s, s <:+ recent → withinCount caps s = true → withinSize numberText caps s = true →
        s.length ≤ kept.entries.length) ∧
    (pruneLogs numberText caps now t).2 + kept.entries.length = t.entries.length ∧
    (pruneLogs numberText caps now kept).2 = 0 := by
  intro recent kept
  have hkept : kept.entries = recent.longestSuffix (withinCaps numberText caps) :=
    pruneLogs_entries now t
  have hsuffix : kept.entries <:+ recent := by
    rw [hkept]
    exact List.longestSuffix_suffix recent
  have hwithin : withinCaps numberText caps kept.entries = true := by
    rw [hkept]
    exact List.longestSuffix_ok withinCaps_closed recent
  have hboth := Bool.and_eq_true_iff.mp hwithin
  refine ⟨⟨hsuffix, hboth.1, hboth.2, ?_⟩, pruneLogs_count now t, ?_⟩
  · intro s hs hcount hsize
    rw [hkept]
    exact List.length_le_longestSuffix hs (Bool.and_eq_true_iff.mpr ⟨hcount, hsize⟩)
  · -- the rows that are left are all recent, and within the caps
    have hrecent : kept.entries.filter (Recent caps now) = kept.entries := by
      apply List.filter_eq_self.mpr
      intro e he
      exact (List.mem_filter.mp (hsuffix.subset he)).2
    have hagain : (pruneLogs numberText caps now kept).1.entries = _ := pruneLogs_entries now kept
    rw [hrecent, List.longestSuffix_of_ok hwithin] at hagain
    have hcount : (pruneLogs numberText caps now kept).2 + _ = _ := pruneLogs_count now kept
    rw [hagain] at hcount
    omega

end MassDeployment
