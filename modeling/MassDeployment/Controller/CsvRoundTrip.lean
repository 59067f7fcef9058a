import MassDeployment.Lib.Dict
import MassDeployment.Controller.Csv
import MassDeployment.Controller.Selects

set_option autoImplicit false

/-! # What `parseCsv` reads back

A CSV writer has choices: it may quote a cell that does not need it, end a record with a line feed
or with a carriage return and a line feed, and leave out the last line end. `parseCsv` gives the
table back for every choice.

The choices are an inductive relation between a table and its texts, and the reader is followed
along a text of the relation: through a cell, a record, and the records.
-/

namespace MassDeployment

/-- `text.trim()`. -/
def jsTrim (text : String) : String :=
  String.ofList ((text.toList.dropWhile isJsSpace).reverse.dropWhile isJsSpace).reverse

/-! ## The texts of a table -/

/-- The cell cannot be written as it is. -/
def needsQuotes (cell : List Char) : Bool :=
  cell.any fun c => c == '"' || c == ',' || c == '\n' || c == '\r'

/-- Inner quotes are doubled. -/
def doubled (cell : List Char) : List Char :=
  cell.flatMap fun c => if c = '"' then ['"', '"'] else [c]

/-- A text of a cell. -/
inductive WritesCell : List Char → List Char → Prop
  | plain {cell : List Char} : needsQuotes cell = false → WritesCell cell cell
  | quoted (cell : List Char) : WritesCell cell ('"' :: (doubled cell ++ ['"']))

/-- A text of a record: the cells with commas between them. -/
inductive WritesRecord : List String → List Char → Prop
  | empty : WritesRecord [] []
  | single {cell : String} {text : List Char} :
      WritesCell cell.toList text → WritesRecord [cell] text
  | cons {cell next : String} {cells : List String} {text rest : List Char} :
      WritesCell cell.toList text → WritesRecord (next :: cells) rest →
      WritesRecord (cell :: next :: cells) (text ++ ',' :: rest)

/-- LF or CRLF. -/
inductive LineEnd : List Char → Prop
  | lf : LineEnd ['\n']
  | crlf : LineEnd ['\r', '\n']

/-- A text of a list of records; the last line end may be missing. -/
inductive WritesRecords : List (List String) → List Char → Prop
  | last {record : List String} {text : List Char} :
      WritesRecord record text → WritesRecords [record] text
  | lastLine {record : List String} {text line : List Char} :
      WritesRecord record text → LineEnd line → WritesRecords [record] (text ++ line)
  | cons {record : List String} {records : List (List String)} {text line rest : List Char} :
      WritesRecord record text → LineEnd line → WritesRecords records rest →
      WritesRecords (record :: records) (text ++ (line ++ rest))

/-- A table that an import can hold. -/
structure CsvTable where
  headers : List String
  rows : List (List String)
  distinct : headers.Nodup
  named : ∀ h ∈ headers, h ≠ "" ∧ h ≠ "__proto__" ∧ jsTrim h = h
  width : ∀ row ∈ rows, row.length = headers.length
  trimmed : ∀ row ∈ rows, ∀ cell ∈ row, jsTrim cell = cell
  filled : ∀ row ∈ rows, ∃ cell ∈ row, cell ≠ ""

/-! ## The reader along a text -/

namespace CsvReader

/-- The state between two characters, outside quotes. -/
def reading (records : List (List String)) (row : List String) (field : List Char) : CsvReader :=
  { records, row, field }

variable {records : List (List String)} {row : List String} {field : List Char}

theorem read_cons (st : CsvReader) (c : Char) (rest : List Char) :
    st.read (c :: rest) = (st.next c rest.head?).read rest := rfl

theorem read_plain {cell : List Char} (h : needsQuotes cell = false) (rest : List Char) :
    (reading records row field).read (cell ++ rest) = (reading records row (field ++ cell)).read rest := by
  induction cell generalizing field with
  | nil => rw [List.nil_append, List.append_nil]
  | cons c cell ih =>
      simp only [needsQuotes, List.any_cons, Bool.or_eq_false_iff, beq_eq_false_iff_ne] at h
      obtain ⟨⟨⟨⟨hquote, hcomma⟩, hlf⟩, hcr⟩, hrest⟩ := h
      have hput : ∀ behind, (reading records row field).next c behind =
          reading records row (field ++ [c]) := by
        intro behind
        simp [next, reading, put, hquote, hcomma, hlf, hcr]
      rw [List.cons_append, read_cons, hput, ih hrest, List.append_assoc, List.singleton_append]

/-- Inside quotes every doubled quote is one. -/
theorem read_doubled (cell : List Char) {rest : List Char} (hrest : rest.head? ≠ some '"') :
    ({ reading records row field with inQuotes := true } : CsvReader).read
        (doubled cell ++ '"' :: rest) = (reading records row (field ++ cell)).read rest := by
  induction cell generalizing field with
  | nil =>
      have hclose : ({ reading records row field with inQuotes := true } : CsvReader).next '"'
          rest.head? = reading records row field := by
        simp [next, reading, hrest]
      rw [doubled, List.flatMap_nil, List.nil_append, read_cons, hclose, List.append_nil]
  | cons c cell ih =>
      rw [doubled, List.flatMap_cons, List.append_assoc, ← doubled]
      by_cases hquote : c = '"'
      · -- two characters are read, and the second one is passed over
        subst hquote
        have htwo : ∀ behind, ((({ reading records row field with inQuotes := true } : CsvReader).next
            '"' (some '"')).next '"' behind) =
              { reading records row (field ++ ['"']) with inQuotes := true } := by
          intro behind
          simp [next, reading, put]
        rw [if_pos rfl, List.cons_append, List.cons_append, read_cons, read_cons]
        rw [List.head?_cons, htwo, List.nil_append, ih, List.append_assoc, List.singleton_append]
      · have hput : ∀ behind, ({ reading records row field with inQuotes := true } : CsvReader).next c
            behind = { reading records row (field ++ [c]) with inQuotes := true } := by
          intro behind
          simp [next, reading, put, hquote]
        rw [if_neg hquote, List.singleton_append, read_cons, hput, ih, List.append_assoc,
          List.singleton_append]

/-- What follows a cell does not start with a quote. -/
theorem read_cell {cell text rest : List Char} (h : WritesCell cell text)
    (hrest : rest.head? ≠ some '"') :
    (reading records row []).read (text ++ rest) = (reading records row cell).read rest := by
  cases h with
  | plain hplain => exact read_plain hplain rest
  | quoted =>
      have hopen : ∀ behind, (reading records row []).next '"' behind =
          { reading records row [] with inQuotes := true } := by
        intro behind
        simp [next, reading]
      rw [List.cons_append, read_cons, hopen, List.append_assoc, List.singleton_append,
        read_doubled cell hrest, List.nil_append]

/-- Behind a record its last cell is still in the field. -/
theorem read_record (records : List (List String)) (row : List String) {cells : List String}
    {text rest : List Char} (h : WritesRecord cells text) (hne : cells ≠ [])
    (hrest : rest.head? ≠ some '"') : ∃ init last,
    row ++ cells = init ++ [String.ofList last] ∧
      (reading records row []).read (text ++ rest) = (reading records init last).read rest := by
  induction h generalizing row with
  | empty => exact absurd rfl hne
  | @single cell text hcell =>
      refine ⟨row, cell.toList, ?_, read_cell hcell hrest⟩
      rw [String.ofList_toList]
  | @cons cell next cells text rest' hcell _ ih =>
      obtain ⟨init, last, hsplit, hread⟩ := ih (row ++ [cell]) (List.cons_ne_nil _ _)
      refine ⟨init, last, ?_, ?_⟩
      · rw [← hsplit, List.append_assoc, List.singleton_append]
      · have hcomma : ∀ behind, (reading records row cell.toList).next ',' behind =
            reading records (row ++ [cell]) [] := by
          intro behind
          simp [CsvReader.next, reading, pushField, String.ofList_toList]
        rw [List.append_assoc, List.cons_append, read_cell hcell (by simp), read_cons, hcomma]
        exact hread

theorem read_lineEnd {line : List Char} (h : LineEnd line) (last : List Char) (rest : List Char) :
    (reading records row last).read (line ++ rest) =
      (reading (records ++ [row ++ [String.ofList last]]) [] []).read rest := by
  have hlf : ∀ behind, (reading records row last).next '\n' behind =
      reading (records ++ [row ++ [String.ofList last]]) [] [] := by
    intro behind
    simp [next, reading, pushRow, pushField]
  cases h with
  | lf => rw [List.singleton_append, read_cons, hlf]
  | crlf =>
      have hcr : ∀ behind, (reading records row last).next '\r' behind = reading records row last := by
        intro behind
        simp [next, reading]
      rw [List.cons_append, List.singleton_append, read_cons, hcr, read_cons, hlf]

theorem LineEnd.head {line : List Char} (h : LineEnd line) (rest : List Char) :
    (line ++ rest).head? ≠ some '"' := by
  cases h <;> simp

/-- **The records come back.** -/
theorem read_records (records : List (List String)) {written : List (List String)}
    {text : List Char}
    (h : WritesRecords written text) (hcells : ∀ record ∈ written, record ≠ [] ∧ record ≠ [""]) :
    ((reading records [] []).read text).finish = records ++ written := by
  induction h generalizing records with
  | @last record text hrecord =>
      obtain ⟨hne, hblank⟩ := hcells record (List.mem_singleton_self _)
      obtain ⟨init, last, hsplit, hread⟩ := read_record records [] hrecord hne
        (show [].head? ≠ some '"' by simp)
      rw [List.nil_append] at hsplit
      rw [List.append_nil] at hread
      -- the flush at the end of the text: the record is not a lone empty cell
      have hflush : last ≠ [] ∨ init ≠ [] := by
        by_contra hnone
        obtain ⟨rfl, rfl⟩ : last = [] ∧ init = [] := by
          rw [not_or, not_not, not_not] at hnone
          exact hnone
        exact hblank hsplit
      rw [hread, read, finish, if_pos (by simpa [reading] using hflush), hsplit]
      simp [reading, pushRow, pushField]
  | @lastLine record text line hrecord hline =>
      obtain ⟨hne, -⟩ := hcells record (List.mem_singleton_self _)
      obtain ⟨init, last, hsplit, hread⟩ := read_record records [] hrecord hne
        (LineEnd.head hline [])
      rw [List.nil_append] at hsplit
      rw [← List.append_nil line, hread, read_lineEnd hline, ← hsplit]
      simp [read, finish, reading]
  | @cons record rest' text line rest hrecord hline _ ih =>
      obtain ⟨hne, -⟩ := hcells record (List.mem_cons_self ..)
      obtain ⟨init, last, hsplit, hread⟩ := read_record records [] hrecord hne
        (LineEnd.head hline rest)
      rw [List.nil_append] at hsplit
      rw [hread, read_lineEnd hline, ← hsplit,
        ih _ fun r hr => hcells r (List.mem_cons_of_mem _ hr), List.append_assoc,
        List.singleton_append]

end CsvReader

/-! ## The table -/

/-- A record of distinct columns has under each of them its cell. -/
theorem cell_zip {headers row : List String} (hdistinct : headers.Nodup)
    (hwidth : row.length = headers.length) (hproto : "__proto__" ∉ headers) {header cell : String}
    (hmem : (header, cell) ∈ headers.zip row) :
    CsvRecord.cell (headers.zip row) header = some cell := by
  have hname : header ≠ "__proto__" := by
    rintro rfl
    exact hproto (List.of_mem_zip hmem).1
  have hkeys : ((headers.zip row).reverse.map Prod.fst).Nodup := by
    rw [List.map_reverse, List.map_fst_zip hwidth.ge]
    exact List.nodup_reverse.mpr hdistinct
  rw [CsvRecord.cell, if_neg hname]
  exact Dict.lookup_of_mem hkeys (List.mem_reverse.mpr hmem)

/-- The columns of a row, as `forEach` stores them. -/
theorem zipIdx_cells {headers row : List String} (hwidth : row.length = headers.length)
    (htrim : ∀ cell ∈ row, jsTrim cell = cell) :
    (headers.zipIdx.map fun (h, idx) => (h, jsTrim ((row[idx]?).getD ""))) = headers.zip row := by
  apply List.ext_getElem
  · simp [hwidth]
  · intro n h₁ h₂
    have hn : n < row.length := by
      simp only [List.length_zip] at h₂
      omega
    have hcell := htrim row[n] (List.getElem_mem hn)
    simp [hn, hcell]

/-- The rows of a table without columns are none, and the text is a line end at most. -/
theorem parseCsv_no_columns {rows : List (List String)} (hwidth : ∀ row ∈ rows, row.length = 0)
    (hfilled : ∀ row ∈ rows, ∃ cell ∈ row, cell ≠ "") {text : List Char}
    (h : WritesRecords ([] :: rows) text) :
    rows = [] ∧ parseCsv jsTrim (String.ofList text) = { headers := [], rows := [] } := by
  have hrows : rows = [] := by
    apply List.eq_nil_iff_forall_not_mem.mpr
    intro row hrow
    obtain ⟨cell, hcell, -⟩ := hfilled row hrow
    exact List.ne_nil_of_mem hcell (List.length_eq_zero_iff.mp (hwidth row hrow))
  refine ⟨hrows, ?_⟩
  subst hrows
  have hempty : ∀ {text}, WritesRecord [] text → text = [] := by
    intro text h
    cases h
    rfl
  cases h with
  | last hrecord =>
      rw [hempty hrecord]
      rfl
  | lastLine hrecord hline =>
      rw [hempty hrecord, List.nil_append]
      cases hline <;> rfl
  | cons _ _ hrest => cases hrest

/-- **`parseCsv` inverts a CSV writer**, whatever the writer chose. -/
theorem parseCsv_inverts (table : CsvTable) (text : List Char)
    (h : WritesRecords (table.headers :: table.rows) text) :
    parseCsv jsTrim (String.ofList text) =
        { headers := table.headers, rows := table.rows.map fun row => table.headers.zip row } ∧
      ∀ row ∈ table.rows, ∀ header cell, (header, cell) ∈ table.headers.zip row →
        CsvRecord.cell (table.headers.zip row) header = some cell := by
  constructor
  · by_cases hcolumns : table.headers = []
    · have hwidth : ∀ row ∈ table.rows, row.length = 0 := by
        intro row hrow
        rw [table.width row hrow, hcolumns, List.length_nil]
      rw [hcolumns] at h ⊢
      obtain ⟨hrows, hparse⟩ := parseCsv_no_columns hwidth table.filled h
      rw [hparse, hrows, List.map_nil]
    · have hheader : ∃ cell ∈ table.headers, jsTrim cell ≠ "" := by
        obtain ⟨header, rest, hcons⟩ := List.exists_cons_of_ne_nil hcolumns
        have hmem : header ∈ table.headers := hcons ▸ List.mem_cons_self ..
        obtain ⟨hname, -, htrim⟩ := table.named header hmem
        exact ⟨header, hmem, htrim.symm ▸ hname⟩
      have hrow : ∀ row ∈ table.rows, ∃ cell ∈ row, jsTrim cell ≠ "" := by
        intro row hrow
        obtain ⟨cell, hcell, hne⟩ := table.filled row hrow
        exact ⟨cell, hcell, (table.trimmed row hrow cell hcell).symm ▸ hne⟩
      have hfilled : ∀ record ∈ table.headers :: table.rows, ∃ cell ∈ record, jsTrim cell ≠ "" := by
        intro record hrecord
        rcases List.mem_cons.mp hrecord with rfl | hrecord
        · exact hheader
        · exact hrow record hrecord
      have hcells : ∀ record ∈ table.headers :: table.rows, record ≠ [] ∧ record ≠ [""] := by
        intro record hrecord
        obtain ⟨cell, hcell, hne⟩ := hfilled record hrecord
        constructor
        · exact List.ne_nil_of_mem hcell
        · rintro rfl
          rw [List.mem_singleton.mp hcell] at hne
          exact hne (by decide)
      have hread := CsvReader.read_records [] h hcells
      have hkept : (table.headers :: table.rows).filter
          (fun r => r.any fun cell => jsTrim cell != "") = table.headers :: table.rows := by
        apply List.filter_eq_self.mpr
        intro record hrecord
        obtain ⟨cell, hcell, hne⟩ := hfilled record hrecord
        exact List.any_eq_true.mpr ⟨cell, hcell, bne_iff_ne.mpr hne⟩
      have htrim : table.headers.map jsTrim = table.headers := by
        rw [List.map_congr_left fun header hmem => (table.named header hmem).2.2, List.map_id']
      have hrecords : (CsvReader.read {} text).finish = table.headers :: table.rows := hread
      simp only [parseCsv, String.toList_ofList, hrecords, hkept, htrim]
      congr 1
      apply List.map_congr_left
      intro row hrow
      exact zipIdx_cells (table.width row hrow) (table.trimmed row hrow)
  · intro row hrow header cell hmem
    exact cell_zip table.distinct (table.width row hrow)
      (fun hproto => (table.named _ hproto).2.1 rfl) hmem

/-- A cell with a quote, a comma and a line feed in it. -/
theorem parseCsv_inverts_quoted :
    parseCsv jsTrim (String.ofList
        ("name,note\r\n".toList ++ "ada,\"a \"\"b\"\",\nc\"".toList)) =
      { headers := ["name", "note"], rows := [[("name", "ada"), ("note", "a \"b\",\nc")]] } := by
  have hheader : WritesRecord ["name", "note"] "name,note".toList :=
    .cons (.plain (by decide)) (.single (.plain (by decide)))
  have hrow : WritesRecord ["ada", "a \"b\",\nc"] "ada,\"a \"\"b\"\",\nc\"".toList :=
    .cons (.plain (by decide)) (.single (.quoted "a \"b\",\nc".toList))
  exact (parseCsv_inverts
    { headers := ["name", "note"], rows := [["ada", "a \"b\",\nc"]], distinct := by decide,
      named := by decide, width := by decide, trimmed := by decide, filled := by decide }
    _ (.cons hheader .crlf (.last hrow))).1

end MassDeployment
