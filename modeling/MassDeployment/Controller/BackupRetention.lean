import Mathlib.Data.Rat.Floor
import MassDeployment.Lib.Calendar
import MassDeployment.Lib.Choice

set_option autoImplicit false

/-! # The retention of backups (`backup.ts`)

After every backup the older ones are pruned: the newest few stay, and the newest one of each of the
most recent weeks, months and years. Every one of these four selections is a scan of the stamps from
the newest one on, and each is a choice function, so it does not matter that earlier rounds have
pruned the history already.

Stamps are milliseconds since the epoch.
-/

namespace MassDeployment

/-! ## The selection -/

section KeepPerBucket

variable {α β : Type} [DecidableEq β] (bucketOf : α → β) (count : Nat)

/-- The loop of `keepPerBucket`, from the buckets it has seen on. -/
def keepUnseen (seen : Finset β) : List α → List α
  | [] => []
  | s :: rest =>
    if bucketOf s ∈ seen then keepUnseen seen rest
    else if count ≤ seen.card then []
    else s :: keepUnseen (insert (bucketOf s) seen) rest

/-- For the most recent `count` distinct buckets, the newest backup falling in each. -/
def keepPerBucket (sorted : List α) : List α :=
  if count = 0 then [] else keepUnseen bucketOf count ∅ sorted

end KeepPerBucket

/-- The retention settings. -/
structure Keep where
  recent : Nat
  weekly : Nat
  monthly : Nat
  yearly : Nat

/-- 7 days, epoch-anchored. -/
def weekBucket (s : ℚ) : Int := ⌊s / 604800000⌋

/-- The day of `new Date(s)`, none for an invalid date. -/
def utcDate (s : ℚ) : Option Calendar.Date :=
  if s ≤ 8640000000000000 then some (Calendar.dateOf ⌊s / 86400000⌋) else none

def monthBucket (s : ℚ) : Option (Int × Int) := (utcDate s).map fun d => (d.year, d.month)

def yearBucket (s : ℚ) : Option Int := (utcDate s).map fun d => d.year

/-- The stamps to retain. -/
def selectKeep (stamps : List ℚ) (keep : Keep) : Finset ℚ :=
  let sorted := stamps.mergeSort fun a b => b ≤ a
  (sorted.take keep.recent).toFinset ∪ (keepPerBucket weekBucket keep.weekly sorted).toFinset ∪
    (keepPerBucket monthBucket keep.monthly sorted).toFinset ∪
    (keepPerBucket yearBucket keep.yearly sorted).toFinset

/-- The backups that are not deleted. -/
def pruneBackups (keep : Keep) (store : List ℚ) : List ℚ :=
  store.filter fun s => s ∈ selectKeep store keep

/-- A backup is put under its stamp, and the others are pruned. -/
def backupNow (keep : Keep) (store : List ℚ) (stamp : ℚ) : List ℚ :=
  pruneBackups keep (if stamp ∈ store then store else store ++ [stamp])

/-- The backups after a history of runs. -/
def backupsAfter (keep : Keep) (store : List ℚ) (history : List ℚ) : List ℚ :=
  history.foldl (backupNow keep) store

/-! ## The scan of the buckets -/

section Scan

variable {α β : Type} [DecidableEq β] {bucketOf : α → β} {count : Nat}

theorem keepUnseen_subset (seen : Finset β) (L : List α) :
    keepUnseen bucketOf count seen L ⊆ L := by
  induction L generalizing seen with
  | nil => exact List.Subset.refl _
  | cons a L ih =>
      unfold keepUnseen
      split
      · exact List.subset_cons_of_subset a (ih seen)
      · split
        · exact List.nil_subset _
        · exact List.cons_subset_cons a (ih _)

theorem keepUnseen_full {seen : Finset β} (h : count ≤ seen.card) (L : List α) :
    keepUnseen bucketOf count seen L = [] := by
  induction L with
  | nil => rfl
  | cons a L ih =>
      unfold keepUnseen
      rw [ih, if_pos h, ite_self]

theorem card_lt_of_kept {seen : Finset β} {L : List α} {x : α}
    (h : x ∈ keepUnseen bucketOf count seen L) : seen.card < count := by
  by_contra hfull
  rw [keepUnseen_full (not_lt.mp hfull)] at h
  exact List.not_mem_nil h

/-- What the scan passes over can be left out. -/
theorem keepUnseen_outcast {K L : List α} (hL : L.Nodup) (hK : K.Sublist L) (seen : Finset β)
    (hkept : keepUnseen bucketOf count seen L ⊆ K) :
    keepUnseen bucketOf count seen K = keepUnseen bucketOf count seen L := by
  induction hK generalizing seen with
  | slnil => rfl
  | @cons K L a hK ih =>
      obtain ⟨ha, hL⟩ := List.nodup_cons.mp hL
      by_cases hseen : bucketOf a ∈ seen
      · rw [keepUnseen, if_pos hseen] at hkept ⊢
        exact ih hL seen hkept
      · by_cases hfull : count ≤ seen.card
        · rw [keepUnseen_full hfull, keepUnseen_full hfull]
        · -- the scan keeps this one, which the shorter list does not have
          rw [keepUnseen, if_neg hseen, if_neg hfull] at hkept
          exact absurd (hK.subset (hkept (List.mem_cons_self ..))) ha
  | @cons_cons K L a hK ih =>
      obtain ⟨ha, hL⟩ := List.nodup_cons.mp hL
      have hrest : ∀ seen', keepUnseen bucketOf count seen' L ⊆ a :: K →
          keepUnseen bucketOf count seen' L ⊆ K := by
        intro seen' h x hx
        have hmem := keepUnseen_subset seen' L hx
        rcases List.mem_cons.mp (h hx) with rfl | hxK
        · exact absurd hmem ha
        · exact hxK
      rw [keepUnseen, keepUnseen]
      rw [keepUnseen] at hkept
      by_cases hseen : bucketOf a ∈ seen
      · rw [if_pos hseen] at hkept ⊢
        rw [if_pos hseen]
        exact ih hL seen (hrest seen hkept)
      · rw [if_neg hseen] at hkept ⊢
        rw [if_neg hseen]
        by_cases hfull : count ≤ seen.card
        · rw [if_pos hfull, if_pos hfull]
        · rw [if_neg hfull] at hkept ⊢
          rw [if_neg hfull]
          have hkept := List.Subset.trans (List.subset_cons_self a _) hkept
          rw [ih hL _ (hrest _ hkept)]

/-- What the scan keeps of a list it keeps of a part of it. -/
theorem keepUnseen_heredity {K L : List α} {x : α} (hL : L.Nodup) (hK : K.Sublist L)
    {seen seen' : Finset β} (hseen : seen' ⊆ seen) (hx : x ∈ keepUnseen bucketOf count seen L)
    (hxK : x ∈ K) : x ∈ keepUnseen bucketOf count seen' K := by
  have hcard := card_lt_of_kept hx
  have hcard' := (Finset.card_le_card hseen).trans_lt hcard
  induction hK generalizing seen seen' with
  | slnil => exact absurd hxK List.not_mem_nil
  | @cons K L a hK ih =>
      obtain ⟨ha, hL⟩ := List.nodup_cons.mp hL
      rw [keepUnseen] at hx
      split at hx
      · exact ih hL hseen hx hxK hcard hcard'
      · rw [if_neg (not_le.mpr hcard)] at hx
        rcases List.mem_cons.mp hx with rfl | hx
        · exact absurd (hK.subset hxK) ha
        · have hgrow := hseen.trans (Finset.subset_insert (bucketOf a) seen)
          exact ih hL hgrow hx hxK (card_lt_of_kept hx) hcard'
  | @cons_cons K L a hK ih =>
      obtain ⟨ha, hL⟩ := List.nodup_cons.mp hL
      have htail : ∀ seen₁, x ∈ keepUnseen bucketOf count seen₁ L → x ∈ K := by
        intro seen₁ h
        rcases List.mem_cons.mp hxK with rfl | hxK
        · exact absurd (keepUnseen_subset seen₁ L h) ha
        · exact hxK
      rw [keepUnseen] at hx ⊢
      rw [if_neg (not_le.mpr hcard)] at hx
      rw [if_neg (not_le.mpr hcard')]
      by_cases hin : bucketOf a ∈ seen
      · rw [if_pos hin] at hx
        by_cases hin' : bucketOf a ∈ seen'
        · rw [if_pos hin']
          exact ih hL hseen hx (htail _ hx) hcard hcard'
        · -- the bucket is new to the shorter scan only
          have hinsert := Finset.insert_subset hin hseen
          rw [if_neg hin']
          exact List.mem_cons_of_mem _ (ih hL hinsert hx (htail _ hx) hcard
            ((Finset.card_le_card hinsert).trans_lt hcard))
      · rw [if_neg hin] at hx
        rw [if_neg fun hin' => hin (hseen hin')]
        rcases List.mem_cons.mp hx with rfl | hx
        · exact List.mem_cons_self ..
        · have hinsert := Finset.insert_subset_insert (bucketOf a) hseen
          have hlt := card_lt_of_kept hx
          exact List.mem_cons_of_mem _ (ih hL hinsert hx (htail _ hx) hlt
            ((Finset.card_le_card hinsert).trans_lt hlt))

/-- Every element is a bucket of its own: the scan takes the first few. -/
theorem keepUnseen_id {α : Type} [DecidableEq α] {count : Nat} {L : List α} (hL : L.Nodup)
    (seen : Finset α) (hseen : ∀ a ∈ L, a ∉ seen) :
    keepUnseen id count seen L = L.take (count - seen.card) := by
  induction L generalizing seen with
  | nil => rw [keepUnseen, List.take_nil]
  | cons a L ih =>
      obtain ⟨ha, hL⟩ := List.nodup_cons.mp hL
      have hfresh := hseen a (List.mem_cons_self ..)
      rw [keepUnseen, id, if_neg hfresh]
      by_cases hfull : count ≤ seen.card
      · rw [if_pos hfull, Nat.sub_eq_zero_of_le hfull, List.take_zero]
      · have hseen' : ∀ b ∈ L, b ∉ insert a seen := by
          intro b hb hmem
          rcases Finset.mem_insert.mp hmem with rfl | hmem
          · exact ha hb
          · exact hseen b (List.mem_cons_of_mem _ hb) hmem
        have hsucc : count - seen.card = count - (insert a seen).card + 1 := by
          rw [Finset.card_insert_of_notMem hfresh]
          omega
        rw [if_neg hfull, ih hL _ hseen', hsucc, List.take_succ_cons]

theorem keepPerBucket_eq (L : List α) :
    keepPerBucket bucketOf count L = keepUnseen bucketOf count ∅ L := by
  unfold keepPerBucket
  split
  · rename_i hzero
    rw [hzero, keepUnseen_full (Nat.zero_le _)]
  · rfl

theorem head_mem_keepPerBucket (hpos : 0 < count) (a : α) (L : List α) :
    a ∈ keepPerBucket bucketOf count (a :: L) := by
  rw [keepPerBucket_eq, keepUnseen, if_neg (Finset.notMem_empty _), Finset.card_empty,
    if_neg (by omega)]
  exact List.mem_cons_self ..

end Scan

/-! ## The four choices -/

section Choices

variable {α β : Type} [LinearOrder α] [DecidableEq β]

/-- The newest element of each of the first `count` buckets, as a choice. -/
def newestPerBucket (bucketOf : α → β) (count : Nat) : Choice α :=
  Choice.ofScan (keepUnseen bucketOf count ∅) (keepUnseen_subset ∅)
    (fun hL hK hkept => keepUnseen_outcast hL hK ∅ hkept)
    (fun hL hK hx hxK => keepUnseen_heredity hL hK (Finset.Subset.refl _) hx hxK)

theorem newestPerBucket_pick (bucketOf : α → β) (count : Nat) (S : Finset α) :
    (newestPerBucket bucketOf count).pick S =
      (keepPerBucket bucketOf count (Choice.descending S)).toFinset := by
  rw [keepPerBucket_eq]
  rfl

/-- The newest few: every element is a bucket of its own. -/
def newestFew (count : Nat) : Choice α := newestPerBucket id count

theorem newestFew_pick (count : Nat) (S : Finset α) :
    (newestFew count).pick S = ((Choice.descending S).take count).toFinset := by
  rw [newestFew, newestPerBucket_pick, keepPerBucket_eq,
    keepUnseen_id (Choice.descending_nodup S) ∅ fun a _ => Finset.notMem_empty a,
    Finset.card_empty, Nat.sub_zero]

end Choices

/-- The retention as a choice. -/
def retention (keep : Keep) : Choice ℚ :=
  (((newestFew keep.recent).union (newestPerBucket weekBucket keep.weekly)).union
    (newestPerBucket monthBucket keep.monthly)).union (newestPerBucket yearBucket keep.yearly)

/-- A list without repetitions is sorted into the descending list of its set. -/
theorem mergeSort_eq_descending {stamps : List ℚ} (h : stamps.Nodup) :
    stamps.mergeSort (fun a b => b ≤ a) = Choice.descending stamps.toFinset := by
  have hperm : (stamps.mergeSort fun a b => b ≤ a).Perm (Choice.descending stamps.toFinset) := by
    apply (List.mergeSort_perm _ _).trans
    apply (List.perm_ext_iff_of_nodup h (Choice.descending_nodup _)).mpr
    intro a
    rw [Choice.mem_descending, List.mem_toFinset]
  have hsorted : (stamps.mergeSort fun a b => b ≤ a).Pairwise _ := List.pairwise_mergeSort
    (fun a b c hab hbc => by simp only [decide_eq_true_iff] at *; exact hbc.trans hab)
    (fun a b => by simpa using le_total b a) stamps
  apply hperm.eq_of_pairwise' _ (Choice.descending_pairwise _)
  exact hsorted.imp fun hab => of_decide_eq_true hab

/-- The code selects by the choice. -/
theorem selectKeep_eq_pick {stamps : List ℚ} (h : stamps.Nodup) (keep : Keep) :
    selectKeep stamps keep = (retention keep).pick stamps.toFinset := by
  unfold selectKeep retention
  dsimp only
  rw [mergeSort_eq_descending h]
  simp only [Choice.pick_union, newestFew_pick, newestPerBucket_pick]

/-! ## The rounds -/

variable {keep : Keep}

theorem put_toFinset (store : List ℚ) (stamp : ℚ) :
    (if stamp ∈ store then store else store ++ [stamp]).toFinset = store.toFinset ∪ {stamp} := by
  split
  · rename_i hmem
    rw [Finset.union_eq_left.mpr]
    simpa using hmem
  · simp

theorem put_nodup {store : List ℚ} (h : store.Nodup) (stamp : ℚ) :
    (if stamp ∈ store then store else store ++ [stamp]).Nodup := by
  split
  · exact h
  · rename_i hfresh
    rw [← List.concat_eq_append]
    exact h.concat hfresh

theorem backupNow_nodup {store : List ℚ} (h : store.Nodup) (stamp : ℚ) :
    (backupNow keep store stamp).Nodup :=
  (put_nodup h stamp).filter _

/-- A round leaves the choice from what was there and the new backup. -/
theorem backupNow_toFinset {store : List ℚ} (h : store.Nodup) (stamp : ℚ) :
    (backupNow keep store stamp).toFinset = (retention keep).pick (store.toFinset ∪ {stamp}) := by
  unfold backupNow pruneBackups
  rw [List.toFinset_filter, selectKeep_eq_pick (put_nodup h stamp), put_toFinset]
  apply Finset.Subset.antisymm
  · intro s hs
    exact of_decide_eq_true (Finset.mem_filter.mp hs).2
  · intro s hs
    exact Finset.mem_filter.mpr ⟨(retention keep).subset _ hs, decide_eq_true hs⟩

/-- Pruning after every backup is pruning the whole history once. -/
theorem backupsAfter_toFinset (history : List ℚ) {store : List ℚ} {S : Finset ℚ}
    (hstore : store.Nodup) (h : store.toFinset = (retention keep).pick S) :
    (backupsAfter keep store history).toFinset =
      (retention keep).pick (S ∪ history.toFinset) := by
  induction history generalizing store S with
  | nil => simpa [backupsAfter] using h
  | cons stamp history ih =>
      have hround : (backupNow keep store stamp).toFinset = (retention keep).pick (S ∪ {stamp}) := by
        rw [backupNow_toFinset hstore, h, Choice.path_independent]
      have hrest := ih (backupNow_nodup hstore stamp) hround
      rw [List.toFinset_cons, Finset.insert_eq, ← Finset.union_assoc]
      exact hrest

/-- Some selection keeps the newest stamp. -/
theorem newest_kept {S : List ℚ} (hS : S.Nodup) {x : ℚ} (hx : x ∈ S) (hnewest : ∀ s ∈ S, s ≤ x)
    (hpos : 0 < keep.recent ∨ 0 < keep.weekly ∨ 0 < keep.monthly ∨ 0 < keep.yearly) :
    x ∈ selectKeep S keep := by
  obtain ⟨L, hL⟩ : ∃ L, Choice.descending S.toFinset = x :: L := by
    have hsorted := Choice.descending_pairwise S.toFinset
    have hmem : ∀ s, s ∈ Choice.descending S.toFinset ↔ s ∈ S := by simp
    cases hlist : Choice.descending S.toFinset with
    | nil => exact absurd ((hmem x).mpr hx) (hlist ▸ List.not_mem_nil)
    | cons a L =>
        rw [hlist] at hsorted hmem
        have hle := hnewest a ((hmem a).mp (List.mem_cons_self ..))
        rcases List.mem_cons.mp ((hmem x).mpr hx) with rfl | hin
        · exact ⟨L, rfl⟩
        · have hge := List.rel_of_pairwise_cons hsorted hin
          exact ⟨L, by rw [le_antisymm hle hge]⟩
  rw [selectKeep_eq_pick hS, retention]
  simp only [Choice.pick_union, newestFew_pick, newestPerBucket_pick, Finset.mem_union,
    List.mem_toFinset, hL]
  rcases hpos with hpos | hpos | hpos | hpos
  · refine .inl (.inl (.inl ?_))
    obtain ⟨n, hn⟩ := Nat.exists_eq_add_of_lt hpos
    rw [hn, Nat.zero_add, List.take_succ_cons]
    exact List.mem_cons_self ..
  · exact .inl (.inl (.inr (head_mem_keepPerBucket hpos x L)))
  · exact .inl (.inr (head_mem_keepPerBucket hpos x L))
  · exact .inr (head_mem_keepPerBucket hpos x L)

/-- **Incremental pruning is pruning the full history.** What a round deletes never becomes the
representative of a later round, so each round keeps what one prune of everything would keep. -/
theorem selectKeep_incremental (keep : Keep) :
    (∀ (S pruned : List ℚ) (x : ℚ), S.Nodup → (∀ s ∈ S, s < x) → pruned.Nodup →
      pruned.toFinset = selectKeep S keep ∪ {x} →
      selectKeep pruned keep = selectKeep (S ++ [x]) keep) ∧
    (∀ history : List ℚ, history.Nodup →
      (backupsAfter keep [] history).toFinset = selectKeep history keep) ∧
    (∀ S kept : List ℚ, S.Nodup → kept.Nodup → kept.toFinset = selectKeep S keep →
      selectKeep kept keep = selectKeep S keep) ∧
    ∀ (S : List ℚ) (x : ℚ), S.Nodup → x ∈ S → (∀ s ∈ S, s ≤ x) →
      0 < keep.recent ∨ 0 < keep.weekly ∨ 0 < keep.monthly ∨ 0 < keep.yearly →
      x ∈ selectKeep S keep := by
  refine ⟨?_, ?_, ?_, fun S x hS hx hnewest hpos => newest_kept hS hx hnewest hpos⟩
  · intro S pruned x hS hx hpruned hset
    have hfresh : x ∉ S := fun hmem => lt_irrefl x (hx x hmem)
    have hfull : (S ++ [x]).Nodup := by
      rw [← List.concat_eq_append]
      exact hS.concat hfresh
    rw [selectKeep_eq_pick hpruned, hset, selectKeep_eq_pick hS, Choice.path_independent,
      selectKeep_eq_pick hfull, List.toFinset_append]
    rfl
  · intro history hhistory
    have hempty : (retention keep).pick ∅ = ∅ :=
      Finset.subset_empty.mp ((retention keep).subset ∅)
    rw [backupsAfter_toFinset history List.nodup_nil hempty.symm, selectKeep_eq_pick hhistory,
      Finset.empty_union]
  · intro S kept hS hkept hset
    rw [selectKeep_eq_pick hkept, hset, selectKeep_eq_pick hS, Choice.idempotent]

/-- The newest backup stays, with the newest of two weeks and that of a month. -/
def weeklyKeep : Keep := ⟨1, 2, 1, 0⟩

/-- Three backups of a fortnight in January, two of them of one week. -/
def januaryStamps : List ℚ := [604801000, 172800000, 1000]

/-- One round prunes the older backup of the first week; the next, with a backup of the third week,
drops the first week. -/
theorem selectKeep_incremental_weeks :
    selectKeep [1209601000, 604801000, 172800000] weeklyKeep =
        selectKeep (januaryStamps ++ [1209601000]) weeklyKeep ∧
      (backupsAfter weeklyKeep [] [1000, 172800000, 604801000, 1209601000]).toFinset =
        selectKeep [1000, 172800000, 604801000, 1209601000] weeklyKeep ∧
      (1209601000 : ℚ) ∈ selectKeep [1209601000, 604801000, 172800000] weeklyKeep := by
  have hkept : selectKeep januaryStamps weeklyKeep = {604801000, 172800000} := by
    have hsorted : januaryStamps.mergeSort (fun a b => b ≤ a) = januaryStamps :=
      List.mergeSort_of_pairwise (by unfold januaryStamps; norm_num)
    unfold selectKeep
    rw [hsorted]
    decide +kernel
  obtain ⟨hround, hrun, -, hnewest⟩ := selectKeep_incremental weeklyKeep
  refine ⟨?_, hrun _ (by norm_num), ?_⟩
  · have hlater : ∀ s ∈ januaryStamps, s < 1209601000 := by
      unfold januaryStamps
      norm_num
    apply hround januaryStamps _ 1209601000 (by unfold januaryStamps; norm_num) hlater (by norm_num)
    rw [hkept]
    decide +kernel
  · exact hnewest _ 1209601000 (by norm_num) (by norm_num) (by norm_num) (.inl (by decide))

end MassDeployment
