import MassDeployment.Controller.ImportCommit

set_option autoImplicit false

/-! # The lines of import issues (`labimport.ts`)

An issue of an import names a line, which `planRosterImport` takes from the index of the row: the
header is line 1 and the rows follow. `parseCsv` has dropped the blank records by then, and a quoted
cell may have spread a record over several lines. Here the text is split into the parts its records
were read from, and the line a record starts on is one more than the line feeds in front of it.
-/

namespace MassDeployment

/-! ## The text of a record -/

/-- The part of the text a record was read from, with its line end. -/
structure CsvPart where
  text : List Char
  record : List String

namespace CsvReader

/-- A line feed outside quotes ends the record. -/
def endsRecord (st : CsvReader) (c : Char) : Bool := !st.skip && !st.inQuotes && c == '\n'

/-- The parts of the rest of the text; `front` is what was read of the record so far. -/
def parts (st : CsvReader) (front : List Char) : List Char → List CsvPart
  | [] =>
    if st.field ≠ [] ∨ st.row ≠ [] then [⟨front, st.row ++ [String.ofList st.field]⟩] else []
  | c :: rest =>
    let st' := st.next c rest.head?
    if st.endsRecord c then
      ⟨front ++ [c], st.row ++ [String.ofList st.field]⟩ :: st'.parts [] rest
    else st'.parts (front ++ [c]) rest

/-- A record ends where the reader keeps it. -/
theorem records_next (st : CsvReader) (c : Char) (behind : Option Char) :
    (st.next c behind).records =
      if st.endsRecord c then st.records ++ [st.row ++ [String.ofList st.field]] else st.records := by
  unfold next endsRecord
  cases st.skip with
  | true => rfl
  | false =>
      cases st.inQuotes with
      | true =>
          rw [if_neg Bool.false_ne_true, if_pos rfl]
          split
          · split <;> rfl
          · rfl
      | false =>
          rw [if_neg Bool.false_ne_true, if_neg Bool.false_ne_true]
          by_cases hlf : c = '\n'
          · subst hlf
            rfl
          · have hno : (!false && !false && c == '\n') = false := by simp [hlf]
            rw [hno, if_neg hlf, if_neg Bool.false_ne_true]
            split
            · rfl
            · split
              · rfl
              · split <;> rfl

/-- **The parts are those of the records**, in order. -/
theorem finish_read (st : CsvReader) (front text : List Char) :
    (st.read text).finish = st.records ++ (st.parts front text).map CsvPart.record := by
  induction text generalizing st front with
  | nil =>
      rw [read, finish, parts]
      by_cases hopen : st.field ≠ [] ∨ st.row ≠ []
      · rw [if_pos hopen, if_pos hopen]
        rfl
      · rw [if_neg hopen, if_neg hopen, List.map_nil, List.append_nil]
  | cons c rest ih =>
      rw [read]
      simp only [parts]
      cases hends : st.endsRecord c with
      | true =>
          rw [ih _ [], records_next, hends, if_pos rfl, if_pos rfl, List.map_cons,
            List.append_assoc, List.singleton_append]
      | false => rw [ih _ (front ++ [c]), records_next, hends, if_neg Bool.false_ne_true,
          if_neg Bool.false_ne_true]

end CsvReader

/-- The parts of a CSV text. -/
def csvParts (text : String) : List CsvPart := CsvReader.parts {} [] text.toList

/-! ## Lines -/

section Lines

variable (blank : List String → Bool)

/-- The parts in front of the `k`-th record that is not blank, blank ones included. -/
def inFront : ℕ → List CsvPart → List CsvPart
  | _, [] => []
  | k, p :: rest =>
    if blank p.record then p :: inFront k rest
    else
      match k with
      | 0 => []
      | k + 1 => p :: inFront k rest

/-- The number of line feeds in a text. -/
def lineFeeds (text : List Char) : ℕ := text.count '\n'

/-- The 1-based line on which the `k`-th record that is not blank starts. -/
def startLine (k : ℕ) (parts : List CsvPart) : ℕ :=
  1 + lineFeeds ((inFront blank k parts).flatMap CsvPart.text)

/-- The record fills one line. -/
def OneLine (p : CsvPart) : Prop := blank p.record = false ∧ lineFeeds p.text = 1

variable {blank}

theorem inFront_blank {p : CsvPart} (h : blank p.record = true) (k : ℕ) (rest : List CsvPart) :
    inFront blank k (p :: rest) = p :: inFront blank k rest := by
  simp [inFront, h]

theorem inFront_zero {p : CsvPart} (h : blank p.record = false) (rest : List CsvPart) :
    inFront blank 0 (p :: rest) = [] := by
  simp [inFront, h]

theorem inFront_succ {p : CsvPart} (h : blank p.record = false) (k : ℕ) (rest : List CsvPart) :
    inFront blank (k + 1) (p :: rest) = p :: inFront blank k rest := by
  simp [inFront, h]

theorem filter_blank {p : CsvPart} (h : blank p.record = true) (rest : List CsvPart) :
    (p :: rest).filter (fun p => !blank p.record) = rest.filter fun p => !blank p.record :=
  List.filter_cons_of_neg (by rw [h]; exact Bool.false_ne_true)

theorem length_filter_filled {p : CsvPart} (h : blank p.record = false) (rest : List CsvPart) :
    ((p :: rest).filter fun p => !blank p.record).length =
      (rest.filter fun p => !blank p.record).length + 1 := by
  rw [List.filter_cons_of_pos (by rw [h]; rfl), List.length_cons]

theorem lineFeeds_append (s t : List Char) : lineFeeds (s ++ t) = lineFeeds s + lineFeeds t :=
  List.count_append ..

/-- What stands in front of a record ends with a line feed. -/
theorem lineFeeds_pos {st : CsvReader} {front text : List Char} {k : ℕ}
    (hk : k < ((st.parts front text).filter fun p => !blank p.record).length) :
    ∀ p ∈ inFront blank k (st.parts front text), 0 < lineFeeds p.text := by
  induction text generalizing st front k with
  | nil =>
      -- the last record ends with the text, and nothing stands behind it
      rw [CsvReader.parts] at hk ⊢
      by_cases hopen : st.field ≠ [] ∨ st.row ≠ []
      · rw [if_pos hopen] at hk ⊢
        generalize CsvPart.mk front (st.row ++ [String.ofList st.field]) = p at hk ⊢
        cases hblank : blank p.record with
        | true => rw [filter_blank hblank] at hk; exact absurd hk (Nat.not_lt_zero k)
        | false =>
            rw [length_filter_filled hblank] at hk
            obtain rfl : k = 0 := Nat.lt_one_iff.mp hk
            rw [inFront_zero hblank]
            exact fun q hq => absurd hq List.not_mem_nil
      · rw [if_neg hopen] at hk
        exact absurd hk (Nat.not_lt_zero k)
  | cons c rest ih =>
      simp only [CsvReader.parts] at hk ⊢
      cases hends : st.endsRecord c with
      | false =>
          rw [hends, if_neg Bool.false_ne_true] at hk
          rw [if_neg Bool.false_ne_true]
          exact ih hk
      | true =>
          have hlf : c = '\n' := by
            simp only [CsvReader.endsRecord, Bool.and_eq_true, beq_iff_eq] at hends
            exact hends.2
          have hpart : 0 < lineFeeds (front ++ [c]) := by
            rw [lineFeeds_append, hlf]
            exact Nat.lt_add_left _ Nat.one_pos
          rw [hends, if_pos rfl] at hk
          rw [if_pos rfl]
          cases hblank : blank (st.row ++ [String.ofList st.field]) with
          | true =>
              rw [filter_blank hblank] at hk
              rw [inFront_blank hblank]
              exact List.forall_mem_cons.mpr ⟨hpart, ih hk⟩
          | false =>
              rw [length_filter_filled hblank] at hk
              cases k with
              | zero =>
                  rw [inFront_zero hblank]
                  exact fun q hq => absurd hq List.not_mem_nil
              | succ k =>
                  rw [inFront_succ hblank]
                  exact List.forall_mem_cons.mpr ⟨hpart, ih (Nat.lt_of_succ_lt_succ hk)⟩

/-- Each part in front has its line feed: there are as many as records in front, if each of them
fills one line, and more otherwise. -/
theorem lineFeeds_inFront {parts : List CsvPart} {k : ℕ}
    (hk : k < (parts.filter fun p => !blank p.record).length)
    (hpos : ∀ p ∈ inFront blank k parts, 0 < lineFeeds p.text) :
    k ≤ lineFeeds ((inFront blank k parts).flatMap CsvPart.text) ∧
      (lineFeeds ((inFront blank k parts).flatMap CsvPart.text) = k ↔
        ∀ p ∈ inFront blank k parts, OneLine blank p) := by
  induction parts generalizing k with
  | nil => simp at hk
  | cons p rest ih =>
      cases hblank : blank p.record with
      | true =>
          -- a blank record moves what follows by a line
          rw [inFront_blank hblank, List.forall_mem_cons] at hpos
          rw [filter_blank hblank] at hk
          rw [inFront_blank hblank, List.flatMap_cons, lineFeeds_append, List.forall_mem_cons]
          obtain ⟨hle, -⟩ := ih hk hpos.2
          have hp := hpos.1
          refine ⟨by omega, fun heq => absurd heq (by omega), fun hall => ?_⟩
          have hfull := hall.1.1
          rw [hblank] at hfull
          cases hfull
      | false =>
          rw [length_filter_filled hblank] at hk
          cases k with
          | zero =>
              rw [inFront_zero hblank]
              simp [lineFeeds]
          | succ k =>
              rw [inFront_succ hblank, List.forall_mem_cons] at hpos
              rw [inFront_succ hblank, List.flatMap_cons, lineFeeds_append, List.forall_mem_cons]
              obtain ⟨hle, hiff⟩ := ih (Nat.lt_of_succ_lt_succ hk) hpos.2
              have hp := hpos.1
              rw [← hiff]
              refine ⟨by omega, fun heq => ⟨⟨hblank, by omega⟩, by omega⟩, fun hall => ?_⟩
              have hone := hall.1.2
              omega

/-- **Counting records gives the line** exactly if every record in front fills one line. -/
theorem startLine_iff {text : String} {k : ℕ}
    (hk : k < ((csvParts text).filter fun p => !blank p.record).length) :
    k + 1 = startLine blank k (csvParts text) ↔
      ∀ p ∈ inFront blank k (csvParts text), OneLine blank p := by
  have hcount := (lineFeeds_inFront hk (lineFeeds_pos hk)).2
  rw [← hcount, startLine]
  omega

end Lines

/-! ## The lines of a plan -/

section Plan

variable {h : Host} {line : Nat} {c : CsvRecord} {r : ValidRow}

theorem validRow_line (hr : validRow h line c = .ok r) : r.line = line := by
  unfold validRow at hr
  dsimp only at hr
  repeat' split at hr
  all_goals try cases hr
  all_goals rfl

variable {P : Nat → Prop} {valid : List ValidRow}

/-- The issue names a line that satisfies `P`. -/
def ImportIssue.At (P : Nat → Prop) (issue : ImportIssue) : Prop := P issue.line

theorem agree_at (what : String) (hline : P line) (sofar value : Option String) :
    ∀ issue ∈ (agree what line sofar value).2, issue.At P := by
  unfold agree
  split
  · exact fun _ hi => absurd hi List.not_mem_nil
  · split
    · intro issue hi
      rw [List.mem_singleton.mp hi]
      exact hline
    · exact fun _ hi => absurd hi List.not_mem_nil
  · exact fun _ hi => absurd hi List.not_mem_nil

theorem piRows_at (hvalid : ∀ r ∈ valid, P r.line) :
    ∀ issue ∈ (piRows valid).conflicts, issue.At P := by
  have hfold : ∀ acc : PiRows, (∀ issue ∈ acc.conflicts, issue.At P) →
      ∀ issue ∈ (valid.foldl PiRows.add acc).conflicts, issue.At P := by
    induction valid with
    | nil => exact fun _ h => h
    | cons r rest ih =>
        intro acc hacc
        have hline := hvalid r (List.mem_cons_self ..)
        apply ih fun x hx => hvalid x (List.mem_cons_of_mem _ hx)
        unfold PiRows.add
        split
        · exact hacc
        · simp only [List.mem_append]
          rintro issue (((hi | hi) | hi) | hi)
          · exact hacc issue hi
          · exact agree_at _ hline _ _ issue hi
          · exact agree_at _ hline _ _ issue hi
          · exact agree_at _ hline _ _ issue hi
  exact hfold {} fun _ hi => absurd hi List.not_mem_nil

theorem sidIssue_at (prev : BatchStudent) (hline : P r.line) :
    ∀ issue ∈ sidIssue prev r, issue.At P := by
  unfold sidIssue
  split
  · split
    · intro issue hi
      rw [List.mem_singleton.mp hi]
      exact hline
    · exact fun _ hi => absurd hi List.not_mem_nil
  · exact fun _ hi => absurd hi List.not_mem_nil

theorem batchOf_at (hvalid : ∀ r ∈ valid, P r.line) :
    ∀ issue ∈ (batchOf valid).2, issue.At P := by
  have hfold : ∀ acc : Batch × List ImportIssue, (∀ issue ∈ acc.2, issue.At P) →
      ∀ issue ∈ (valid.foldl addToBatch acc).2, issue.At P := by
    induction valid with
    | nil => exact fun _ h => h
    | cons r rest ih =>
        intro acc hacc
        apply ih fun x hx => hvalid x (List.mem_cons_of_mem _ hx)
        unfold addToBatch
        split
        · exact hacc
        · rename_i prev _
          intro issue hi
          rcases List.mem_append.mp hi with hi | hi
          · exact hacc issue hi
          · exact sidIssue_at prev (hvalid r (List.mem_cons_self ..)) issue hi
  exact hfold ([], []) fun _ hi => absurd hi List.not_mem_nil

/-- A student of the file has the line of its first row. -/
theorem batch_line (hvalid : ∀ r ∈ valid, P r.line) :
    ∀ e ∈ (batchOf valid).1, P e.2.line :=
  (batchOf_sound (P := fun _ info => P info.line) hvalid fun _ _ _ hprev => hprev).entry

theorem sharedSids_at {batch : Batch} (hbatch : ∀ e ∈ batch, P e.2.line)
    (seen : List (String × String)) : ∀ issue ∈ sharedSids seen batch, issue.At P := by
  induction batch generalizing seen with
  | nil => exact fun _ hi => absurd hi List.not_mem_nil
  | cons e rest ih =>
      obtain ⟨hline, hrest⟩ := List.forall_mem_cons.mp hbatch
      unfold sharedSids
      split
      · exact ih hrest _
      · split
        · exact ih hrest _
        · split
          · exact List.forall_mem_cons.mpr ⟨hline, ih hrest _⟩
          · exact ih hrest _

theorem resolve_at (d : Db) (user : String) {info : BatchStudent} (hline : P info.line)
    {issue : ImportIssue} (hi : (resolve d user info).issue = some issue) : issue.At P := by
  unfold resolve at hi
  dsimp only at hi
  split at hi
  · cases hi
    exact hline
  · split at hi
    · cases hi
      exact hline
    · split at hi
      · cases hi
      · repeat' split at hi
        all_goals cases hi

/-- Every conflict of a plan names the line of a valid row. -/
theorem conflicts_at (P : Nat → Prop) (d : Db) (lab : LabRow) {valid : List ValidRow}
    (invalid : List ImportIssue) (hvalid : ∀ r ∈ valid, P r.line) :
    ∀ issue ∈ (planRows d lab valid invalid).conflicts, issue.At P := by
  intro issue hi
  simp only [planRows, List.mem_append, List.mem_filterMap, List.mem_map] at hi
  rcases hi with ((hi | hi) | hi) | ⟨_, ⟨e, he, rfl⟩, hi⟩
  · exact piRows_at hvalid issue hi
  · exact batchOf_at hvalid issue hi
  · exact sharedSids_at (batch_line hvalid) [] issue hi
  · exact resolve_at d e.1 (batch_line hvalid e he) hi

end Plan

/-! ## The lines of the issues -/

/-- `parseCsv` drops the record. -/
def blankRecord (trim : String → String) (record : List String) : Bool :=
  !record.any fun cell => trim cell != ""

/-- The issue is reported for the header, or for a data row: one that fails its checks with the
issue's message, or one that passes them and is in conflict. -/
inductive ReportedFor (h : Host) (rows : List CsvRecord) (issue : ImportIssue) : ℕ → Prop
  | header : issue.line = 1 → ReportedFor h rows issue 0
  | invalid {i : ℕ} {row : CsvRecord} : rows[i]? = some row → issue.line = i + 2 →
      validRow h issue.line row = .error issue.message → ReportedFor h rows issue (i + 1)
  | conflict {i : ℕ} {row : CsvRecord} {r : ValidRow} : rows[i]? = some row → issue.line = i + 2 →
      validRow h issue.line row = .ok r → ReportedFor h rows issue (i + 1)

section Issues

variable {h : Host} {issue : ImportIssue}

theorem ReportedFor.line {rows : List CsvRecord} {k : ℕ} (hk : ReportedFor h rows issue k) :
    issue.line = k + 1 := by
  cases hk with
  | header hline => exact hline
  | invalid hget hline => exact hline
  | conflict hget hline => exact hline

theorem checkRows_mem {rows : List CsvRecord} {checked : Nat × Except String ValidRow}
    (hc : checked ∈ checkRows h rows) : ∃ i row, rows[i]? = some row ∧ checked.1 = i + 2 ∧
      checked.2 = validRow h (i + 2) row := by
  obtain ⟨⟨row, i⟩, hi, rfl⟩ := List.mem_map.mp hc
  exact ⟨i, row, List.mem_zipIdx_iff_getElem?.mp hi, rfl, rfl⟩

/-- The rows of a file report the issues of its plan. -/
theorem reported_of_rows (d : Db) (lab : LabRow) {rows : List CsvRecord}
    (hi : issue ∈ (planRows d lab (validRows (checkRows h rows))
        (invalidRows (checkRows h rows))).invalid ++
      (planRows d lab (validRows (checkRows h rows)) (invalidRows (checkRows h rows))).conflicts) :
    ∃ k, ReportedFor h rows issue k := by
  rcases List.mem_append.mp hi with hi | hi
  · obtain ⟨⟨line, verdict⟩, hc, hverdict⟩ := List.mem_filterMap.mp hi
    obtain ⟨i, row, hrow, rfl, rfl⟩ := checkRows_mem hc
    cases hv : validRow h (i + 2) row with
    | ok r => rw [hv] at hverdict; cases hverdict
    | error message =>
        rw [hv] at hverdict
        cases hverdict
        exact ⟨i + 1, .invalid hrow rfl hv⟩
  · have hlines := conflicts_at (fun line => ∃ i row r, rows[i]? = some row ∧ line = i + 2 ∧
      validRow h line row = .ok r) d lab (invalidRows (checkRows h rows)) (by
        intro r hr
        obtain ⟨⟨line, verdict⟩, hc, hverdict⟩ := List.mem_filterMap.mp hr
        obtain ⟨i, row, hrow, rfl, rfl⟩ := checkRows_mem hc
        cases hv : validRow h (i + 2) row with
        | error message => rw [hv] at hverdict; cases hverdict
        | ok r' =>
            rw [hv] at hverdict
            cases hverdict
            have hline := validRow_line hv
            exact ⟨i, row, r, hrow, hline, hline.symm ▸ hv⟩) issue hi
    obtain ⟨i, row, r, hrow, hline, hv⟩ := hlines
    exact ⟨i + 1, .conflict hrow hline hv⟩

/-- The rows of a file are its records that are not blank, less the header. -/
theorem rows_length (trim : String → String) (text : String) :
    (parseCsv trim text).headers ≠ [] → (parseCsv trim text).rows.length + 1 =
      ((csvParts text).filter fun p => !blankRecord trim p.record).length := by
  intro hheaders
  have hread := CsvReader.finish_read {} [] text.toList
  have hfilter : ((csvParts text).filter fun p => !blankRecord trim p.record).length =
      (((csvParts text).map CsvPart.record).filter
        fun r => r.any fun cell => trim cell != "").length := by
    rw [List.filter_map, List.length_map]
    congr 1
    apply List.filter_congr
    intro p _
    simp [blankRecord]
  rw [hfilter]
  unfold parseCsv at hheaders ⊢
  dsimp only at hheaders ⊢
  rw [hread, List.nil_append] at hheaders ⊢
  change _ = (List.filter _ ((CsvReader.parts {} [] text.toList).map CsvPart.record)).length
  split
  · rename_i hnone
    rw [hnone] at hheaders
    exact absurd rfl hheaders
  · rename_i first rest hsome
    rw [hsome, List.length_map, List.length_cons]

end Issues

/-- A file whose second row has a bad username, behind a name that is spread over two lines. -/
def spreadCsv : String := "username,name\nada,\"A\nB\"\nb!d,B\n"

/-- A bad username between records that fill a line each, and a blank one and one that is spread. -/
def mixedCsv : String := "username,name\nada,A\nb!d,B\n\neve,\"E\nF\"\n"

end MassDeployment
