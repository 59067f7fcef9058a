import Mathlib
import MassDeployment.Agent.GpuMonitor
import MassDeployment.Lib.Text
import MassDeployment.Lib.Toml

set_option autoImplicit false

/-! # The reservation of subordinate ids (`hostprep.py`)

`/etc/subuid` and `/etc/subgid` have a line `user:start:size` for a range of ids. `prepare_host`
looks for a line of somebody else that overlaps the range it wants, and writes the file with one
line of its own. The two functions read a line in different ways: the check takes it apart at its
colons and asks for three fields, the rewrite asks how it begins.
-/

namespace MassDeployment.Agent

/-- `str` of a number, which refuses one with too many digits. -/
def pyStr (n : ℤ) : Option String :=
  if n.natAbs.repr.toList.length ≤ Toml.maxDigits then some n.repr else none

/-- `line.startswith(f"{user}:")`. -/
def startsWithUser (user line : String) : Bool := (user ++ ":").toList.isPrefixOf line.toList

/-- `replace_subid_entry`; none where `str` raises. -/
def replaceSubidEntry (text user : String) (start size : ℤ) : Option String := do
  let lines := (splitlines text).filter fun line => line ≠ "" && !startsWithUser user line
  let start ← pyStr start
  let size ← pyStr size
  return String.intercalate "\n" (lines ++ [user ++ ":" ++ start ++ ":" ++ size]) ++ "\n"

/-- The line is somebody else's and its range overlaps; one that is no range is skipped. -/
def lineConflicts (py : PyText) (user : String) (start size : ℤ) (line : String) : Bool :=
  match Text.split ':' line with
  | [name, otherStart, otherSize] =>
    if name = user then false
    else
      match py.int otherStart, py.int otherSize with
      | some otherStart, some otherSize =>
        decide (start < otherStart + otherSize) && decide (otherStart < start + size)
      | _, _ => false
  | _ => false

/-- `subid_conflicts`. -/
def subidConflicts (py : PyText) (text user : String) (start size : ℤ) : Bool :=
  (splitlines text).any (lineConflicts py user start size)

/-! ## Lines -/

/-- Whose line it is: the first one of its fields, where there is another one. -/
def lineOwner (line : String) : Option String :=
  match Text.split ':' line with
  | name :: _ :: _ => some name
  | _ => none

/-- The line reserves `size` ids from `start` on for the user. -/
structure Reserves (py : PyText) (line name : String) (start size : ℤ) : Prop where
  fields : ∃ a b, Text.split ':' line = [name, a, b] ∧ py.int a = some start ∧ py.int b = some size

/-- A text that can be the first field of a line. -/
def Fieldlike (user : String) : Prop := ∀ c ∈ user.toList, c ≠ ':' ∧ isLineBreak c = false

theorem Fieldlike.colon {user : String} (h : Fieldlike user) : ':' ∉ user.toList :=
  fun hc => (h ':' hc).1 rfl

/-- For a user without a colon, the rewrite looks for the user's lines. -/
theorem startsWithUser_iff {user : String} (huser : ':' ∉ user.toList) (line : String) :
    startsWithUser user line = true ↔ lineOwner line = some user := by
  unfold startsWithUser lineOwner
  rw [List.isPrefixOf_iff_prefix]
  constructor
  · rintro ⟨rest, hrest⟩
    have hline : line = user ++ ":" ++ String.ofList rest := by
      rw [← String.toList_inj, String.toList_append, String.toList_ofList, hrest]
    have hsplit : Text.split ':' line = user :: Text.split ':' (String.ofList rest) := by
      have h := Text.split_append ':' user (String.ofList rest)
      rw [Text.split_of_not_mem huser] at h
      rw [hline]
      exact h
    obtain ⟨field, fields, hfields⟩ :=
      List.exists_cons_of_ne_nil (Text.split_ne_nil ':' (String.ofList rest))
    simp [hsplit, hfields]
  · intro h
    split at h
    · rename_i name field fields hsplit
      obtain rfl := Option.some.inj h
      obtain ⟨hline, -⟩ := (Text.split_eq_iff (by simp)).mp hsplit
      rw [hline, String.toList_append, List.map_cons, List.map_cons, List.intercalate_cons_cons]
      exact ⟨_, rfl⟩
    · cases h

/-- No line conflicts exactly if every range of somebody else lies beside the range. -/
theorem lineConflicts_eq_false_iff {py : PyText} {user line : String} {start size : ℤ} :
    lineConflicts py user start size line = false ↔ ∀ name s n, Reserves py line name s n →
      name ≠ user → s + n ≤ start ∨ start + size ≤ s := by
  unfold lineConflicts
  constructor
  · rintro h name s n ⟨a, b, hsplit, ha, hb⟩ hne
    simp only [hsplit, if_neg hne, ha, hb, Bool.and_eq_false_iff, decide_eq_false_iff_not] at h
    omega
  · intro h
    split
    · rename_i name a b hsplit
      split
      · rfl
      · rename_i hne
        split
        · rename_i s n ha hb
          have hbeside := h name s n ⟨a, b, hsplit, ha, hb⟩ hne
          simp only [Bool.and_eq_false_iff, decide_eq_false_iff_not]
          omega
        · rfl
    · rfl

/-! ## A text and its lines -/

/-- A text without a line break in it. -/
def Unbroken (s : List Char) : Prop := ∀ c ∈ s, isLineBreak c = false

theorem splitlinesFrom_unbroken {s : List Char} (h : Unbroken s) (line rest : List Char) :
    splitlinesFrom line (s ++ rest) = splitlinesFrom (line ++ s) rest := by
  induction s generalizing line with
  | nil => simp
  | cons c s ih =>
      have hc : isLineBreak c = false := h c (by simp)
      have hs : Unbroken s := fun d hd => h d (by simp [hd])
      have hne : c ≠ '\r' := by
        rintro rfl
        exact absurd hc (by decide)
      have hstep : splitlinesFrom line (c :: (s ++ rest)) = splitlinesFrom (line ++ [c]) (s ++ rest) := by
        rw [splitlinesFrom.eq_4 _ _ _ (by simp [hne]), hc]
        rfl
      rw [List.cons_append, hstep, ih hs]
      simp

/-- Lines, each with a line feed behind it, are the lines of the text they make up. -/
theorem splitlines_join {lines : List String} (h : ∀ line ∈ lines, Unbroken line.toList) :
    splitlinesFrom [] (lines.flatMap fun line => line.toList ++ ['\n']) = lines := by
  induction lines with
  | nil => rfl
  | cons line lines ih =>
      have hline : Unbroken line.toList := h line (by simp)
      have hlines : ∀ l ∈ lines, Unbroken l.toList := fun l hl => h l (by simp [hl])
      rw [List.flatMap_cons, List.append_assoc, splitlinesFrom_unbroken hline, List.nil_append]
      have hfeed : splitlinesFrom line.toList
          (['\n'] ++ lines.flatMap fun line => line.toList ++ ['\n']) =
          line :: splitlinesFrom [] (lines.flatMap fun line => line.toList ++ ['\n']) := by
        simp [splitlinesFrom, show isLineBreak '\n' = true by decide]
      rw [hfeed, ih hlines]

/-- No line of a text has a line break in it. -/
theorem unbroken_of_mem_splitlines {s line : List Char} (hline : Unbroken line) {part : String}
    (h : part ∈ splitlinesFrom line s) : Unbroken part.toList := by
  fun_induction splitlinesFrom line s with
  | case1 => cases h
  | case2 line =>
      obtain rfl := List.mem_singleton.mp h
      simpa using hline
  | case3 line rest ih =>
      rcases List.mem_cons.mp h with rfl | h
      · simpa using hline
      · exact ih (fun c hc => by cases hc) h
  | case4 line c rest _ hbreak ih =>
      rcases List.mem_cons.mp h with rfl | h
      · simpa using hline
      · exact ih (fun c hc => by cases hc) h
  | case5 line c rest _ hplain ih =>
      refine ih (fun d hd => ?_) h
      rcases List.mem_append.mp hd with hd | hd
      · exact hline d hd
      · simpa [List.mem_singleton.mp hd] using hplain

theorem intercalate_feed {lines : List (List Char)} (hne : lines ≠ []) :
    ['\n'].intercalate lines ++ ['\n'] = lines.flatMap fun line => line ++ ['\n'] := by
  induction lines with
  | nil => exact absurd rfl hne
  | cons line lines ih =>
      cases lines with
      | nil => simp
      | cons next lines =>
          rw [List.intercalate_cons_cons, List.append_assoc, ih (by simp)]
          simp

/-- A text is read back as the lines it is written from. -/
theorem splitlines_written {lines : List String} (hne : lines ≠ [])
    (h : ∀ line ∈ lines, Unbroken line.toList) :
    splitlines (String.intercalate "\n" lines ++ "\n") = lines := by
  have htext : (String.intercalate "\n" lines ++ "\n").toList =
      lines.flatMap fun line => line.toList ++ ['\n'] := by
    have hlines : lines.map String.toList ≠ [] := by simpa using hne
    have hfeed := intercalate_feed hlines
    rw [List.flatMap_map] at hfeed
    rw [String.toList_append, String.toList_intercalate]
    exact hfeed
  rw [splitlines, htext, splitlines_join h]

/-! ## The reservation -/

section

variable {text user a b : String} {start size : ℤ}

/-- The lines that the rewrite keeps. -/
def keptLines (text user : String) : List String :=
  (splitlines text).filter fun line => line ≠ "" && !startsWithUser user line

/-- The line that the rewrite adds. -/
def ownLine (user a b : String) : String := user ++ ":" ++ a ++ ":" ++ b

theorem pyStr_eq_some {n : ℤ} (h : pyStr n = some a) : a = n.repr := by
  unfold pyStr at h
  split at h
  · exact (Option.some.inj h).symm
  · cases h

/-- The numeral of a number is one field of one line. -/
theorem fieldlike_pyStr {n : ℤ} (h : pyStr n = some a) : Fieldlike a := by
  rw [pyStr_eq_some h]
  intro c hc
  rcases Toml.repr_chars hc with rfl | hdigit
  · decide
  · have hrange := Text.range_of_isDigit hdigit
    constructor
    · rintro rfl
      exact absurd hrange.2 (by decide)
    · refine Bool.eq_false_iff.mpr fun hbreak => ?_
      have hmem := List.contains_iff_mem.mp hbreak
      simp only [List.mem_cons, List.not_mem_nil, or_false] at hmem
      omega

theorem replaceSubidEntry_eq (ha : pyStr start = some a) (hb : pyStr size = some b) :
    replaceSubidEntry text user start size =
      some (String.intercalate "\n" (keptLines text user ++ [ownLine user a b]) ++ "\n") := by
  simp [replaceSubidEntry, ha, hb, keptLines, ownLine]

theorem Fieldlike.unbroken (h : Fieldlike user) : Unbroken user.toList := fun c hc => (h c hc).2

theorem split_ownLine (huser : Fieldlike user) (ha : pyStr start = some a)
    (hb : pyStr size = some b) : Text.split ':' (ownLine user a b) = [user, a, b] := by
  have houter := Text.split_append ':' (user ++ ":" ++ a) b
  have hinner := Text.split_append ':' user a
  rw [Text.split_of_not_mem (fieldlike_pyStr hb).colon] at houter
  rw [Text.split_of_not_mem huser.colon, Text.split_of_not_mem (fieldlike_pyStr ha).colon] at hinner
  exact houter.trans (congrArg (· ++ [b]) hinner)

theorem unbroken_ownLine (huser : Fieldlike user) (ha : pyStr start = some a)
    (hb : pyStr size = some b) : Unbroken (ownLine user a b).toList := by
  intro c hc
  have hcolon : isLineBreak ':' = false := by decide
  simp only [ownLine, String.toList_append, List.mem_append] at hc
  rcases hc with (((hc | hc) | hc) | hc) | hc
  · exact huser.unbroken c hc
  · simpa [show c = ':' by simpa using hc] using hcolon
  · exact (fieldlike_pyStr ha).unbroken c hc
  · simpa [show c = ':' by simpa using hc] using hcolon
  · exact (fieldlike_pyStr hb).unbroken c hc

/-- The lines of the file that the rewrite leaves. -/
theorem splitlines_replaced (text : String) (huser : Fieldlike user) (ha : pyStr start = some a)
    (hb : pyStr size = some b) :
    splitlines (String.intercalate "\n" (keptLines text user ++ [ownLine user a b]) ++ "\n") =
      keptLines text user ++ [ownLine user a b] := by
  refine splitlines_written (by simp) fun line hline => ?_
  rcases List.mem_append.mp hline with hline | hline
  · have hmem : line ∈ splitlines text := List.mem_of_mem_filter hline
    exact unbroken_of_mem_splitlines (fun c hc => by cases hc) hmem
  · rw [List.mem_singleton.mp hline]
    exact unbroken_ownLine huser ha hb

theorem mem_keptLines (huser : Fieldlike user) {line : String} : line ∈ keptLines text user ↔
    line ∈ splitlines text ∧ line ≠ "" ∧ lineOwner line ≠ some user := by
  have hstarts := startsWithUser_iff huser.colon line
  simp [keptLines, ← hstarts]

theorem lineOwner_ownLine (huser : Fieldlike user) (ha : pyStr start = some a)
    (hb : pyStr size = some b) : lineOwner (ownLine user a b) = some user := by
  simp [lineOwner, split_ownLine huser ha hb]

/-- A second rewrite keeps what the first one kept. -/
theorem keptLines_replaced (huser : Fieldlike user) (ha : pyStr start = some a)
    (hb : pyStr size = some b) :
    keptLines (String.intercalate "\n" (keptLines text user ++ [ownLine user a b]) ++ "\n") user =
      keptLines text user := by
  have hown : startsWithUser user (ownLine user a b) = true :=
    (startsWithUser_iff huser.colon _).mpr (lineOwner_ownLine huser ha hb)
  rw [keptLines, splitlines_replaced text huser ha hb, List.filter_append]
  simp [hown, keptLines]

end

/-- `str` takes the number. -/
def Printable (n : ℤ) : Prop := n.natAbs.repr.toList.length ≤ Toml.maxDigits

theorem pyStr_of_printable {n : ℤ} (h : Printable n) : pyStr n = some n.repr := if_pos h

theorem printable_iff {n : ℤ} : Printable n ↔ n.natAbs < 10 ^ Toml.maxDigits := by
  rw [Printable, String.length_toList, Nat.length_repr_le_iff (by decide)]

/-- **The reservation is exclusive and stable.** Where the check finds no conflict, the file that
the rewrite leaves has one line of the user, the requested one; its range lies beside the ranges of
everybody else; the other lines that are not empty are there in their order; and both functions
applied once more find no conflict and change nothing. -/
theorem reservation_exclusive (py : PyText) (text user : String) (start size : ℤ)
    (huser : Fieldlike user) (hstart : Printable start) (hsize : Printable size)
    (h : subidConflicts py text user start size = false) :
    ∃ out, replaceSubidEntry text user start size = some out ∧
      (splitlines out).filter (fun line => lineOwner line = some user) =
        [user ++ ":" ++ start.repr ++ ":" ++ size.repr] ∧
      (∀ line, line ∈ splitlines text ∨ line ∈ splitlines out → ∀ name s n,
        Reserves py line name s n → name ≠ user →
        Disjoint (Set.Ico start (start + size)) (Set.Ico s (s + n))) ∧
      (splitlines out).filter (fun line => lineOwner line ≠ some user) =
        (splitlines text).filter (fun line => line ≠ "" ∧ lineOwner line ≠ some user) ∧
      subidConflicts py out user start size = false ∧
      replaceSubidEntry out user start size = some out := by
  have ha := pyStr_of_printable hstart
  have hb := pyStr_of_printable hsize
  have hnone : ∀ line ∈ splitlines text, lineConflicts py user start size line = false := by
    simpa [subidConflicts] using h
  have hlines := splitlines_replaced text huser ha hb
  have hown := lineOwner_ownLine huser ha hb
  have hsplit := split_ownLine huser ha hb
  -- the line of the user is the only one that is not a line of the text
  have hmem : ∀ line ∈ keptLines text user ++ [ownLine user start.repr size.repr],
      line ∈ splitlines text ∨ line = ownLine user start.repr size.repr := by
    intro line hline
    rcases List.mem_append.mp hline with hline | hline
    · exact .inl ((mem_keptLines huser).mp hline).1
    · exact .inr (List.mem_singleton.mp hline)
  have howned : ∀ name s n, Reserves py (ownLine user start.repr size.repr) name s n →
      name = user := by
    rintro name s n ⟨a, b, hfields, -, -⟩
    simpa using congrArg List.head? (hfields.symm.trans hsplit)
  refine ⟨_, replaceSubidEntry_eq ha hb, ?_, ?_, ?_, ?_, ?_⟩
  · have hothers : (keptLines text user).filter (fun line => lineOwner line = some user) = [] := by
      refine List.filter_eq_nil_iff.mpr fun line hline => ?_
      simpa using ((mem_keptLines huser).mp hline).2.2
    rw [hlines, List.filter_append, hothers, List.nil_append, List.filter_cons_of_pos (by simpa)]
    rfl
  · intro line hline name s n hreserves hne
    have htext : line ∈ splitlines text := by
      rcases hline with hline | hline
      · exact hline
      · rw [hlines] at hline
        rcases hmem line hline with hline | rfl
        · exact hline
        · exact absurd (howned name s n hreserves) hne
    have hbeside := lineConflicts_eq_false_iff.mp (hnone line htext) name s n hreserves hne
    rw [Set.disjoint_left]
    intro id hid hother
    simp only [Set.mem_Ico] at hid hother
    omega
  · have hkept : (keptLines text user).filter (fun line => lineOwner line ≠ some user) =
        (splitlines text).filter (fun line => line ≠ "" ∧ lineOwner line ≠ some user) := by
      rw [keptLines, List.filter_filter]
      refine List.filter_congr fun line _ => ?_
      have hstarts := startsWithUser_iff huser.colon line
      by_cases howner : lineOwner line = some user
      · simp [howner]
      · have hnot : startsWithUser user line = false := by
          rw [Bool.eq_false_iff, ne_eq, hstarts]
          exact howner
        simp [howner, hnot]
    rw [hlines, List.filter_append, hkept]
    simp [hown]
  · rw [subidConflicts, hlines, List.any_eq_false]
    intro line hline
    rw [Bool.not_eq_true]
    rcases hmem line hline with hline | rfl
    · exact hnone line hline
    · exact lineConflicts_eq_false_iff.mpr fun name s n hreserves hne =>
        absurd (howned name s n hreserves) hne
  · rw [replaceSubidEntry_eq ha hb, keptLines_replaced huser ha hb]

/-- The range of the account, in a file with a line of somebody else and an old line of its own. -/
theorem reservation_exclusive_labdockremap :
    ∃ out, replaceSubidEntry "other:100000:65536\nlabdockremap:1:2\n" "labdockremap" 231072 65536 =
      some out ∧ splitlines out = ["other:100000:65536", "labdockremap:231072:65536"] := by
  have huser : Fieldlike "labdockremap" := by
    unfold Fieldlike
    simp [isLineBreak]
  obtain ⟨out, hout, hown, -, hothers, -⟩ :=
    reservation_exclusive decimals.toPyText "other:100000:65536\nlabdockremap:1:2\n"
      "labdockremap" 231072 65536 huser (by unfold Printable; decide)
      (by unfold Printable; decide) (by decide +kernel)
  refine ⟨out, hout, ?_⟩
  have hvalue : replaceSubidEntry "other:100000:65536\nlabdockremap:1:2\n" "labdockremap" 231072
      65536 = some "other:100000:65536\nlabdockremap:231072:65536\n" := by decide +kernel
  obtain rfl := Option.some.inj (hout.symm.trans hvalue)
  decide +kernel

/-- A name with a colon drops a line of somebody else and has no line of its own, a name with a line
break is written once more each time, and a number with too many digits is not written. -/
theorem reservation_of_no_account :
    (∃ out, subidConflicts decimals.toPyText "other:5:10\n" "other:5" 100 10 = false ∧
      replaceSubidEntry "other:5:10\n" "other:5" 100 10 = some out ∧
      lineOwner "other:5:10" = some "other" ∧ "other:5:10" ∉ splitlines out ∧
      ∀ line ∈ splitlines out, lineOwner line ≠ some "other:5") ∧
    (∃ out, subidConflicts decimals.toPyText "" "a\nb" 1 2 = false ∧
      replaceSubidEntry "" "a\nb" 1 2 = some out ∧ replaceSubidEntry out "a\nb" 1 2 ≠ some out) ∧
    subidConflicts decimals.toPyText "" "a" (10 ^ Toml.maxDigits) 1 = false ∧
      replaceSubidEntry "" "a" (10 ^ Toml.maxDigits) 1 = none := by
  have hlong : ¬ Printable (10 ^ Toml.maxDigits) := by
    rw [printable_iff, Int.natAbs_pow]
    exact lt_irrefl _
  have hraises : pyStr (10 ^ Toml.maxDigits) = none := if_neg hlong
  refine ⟨⟨"other:5:100:10\n", by decide +kernel⟩, ⟨"a\nb:1:2\n", by decide +kernel⟩, rfl, ?_⟩
  simp [replaceSubidEntry, hraises]

end MassDeployment.Agent
