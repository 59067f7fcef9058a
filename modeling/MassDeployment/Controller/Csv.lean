import MassDeployment.Controller.State

set_option autoImplicit false

/-! # Reading CSV (`csv.ts`)

`parseCsv` splits a text into records in one pass, drops the records without content, and
turns the rest into objects keyed by the header line.
-/

namespace MassDeployment

/-- A data row: the cells under their headers, in the order they were stored. -/
abbrev CsvRecord := List (String × String)

/-- `obj[key]`; a key that was stored twice has its last value, and `__proto__` none. -/
def CsvRecord.cell (r : CsvRecord) (key : String) : Option String :=
  if key = "__proto__" then none else r.reverse.lookup key

structure ParsedCsv where
  headers : List String
  rows : List CsvRecord

/-- Where the pass over the text is: the field, the row and the records so far. -/
structure CsvReader where
  field : List Char := []
  row : List String := []
  records : List (List String) := []
  inQuotes : Bool := false
  /-- The next character was already read, as the second of two quotes. -/
  skip : Bool := false

namespace CsvReader

/-- `field += c`. -/
def put (st : CsvReader) (c : Char) : CsvReader := { st with field := st.field ++ [c] }

def pushField (st : CsvReader) : CsvReader :=
  { st with row := st.row ++ [String.ofList st.field], field := [] }

def pushRow (st : CsvReader) : CsvReader :=
  let st := st.pushField
  { st with records := st.records ++ [st.row], row := [] }

/-- One character of the text, and the one behind it. -/
def next (st : CsvReader) (c : Char) (behind : Option Char) : CsvReader :=
  if st.skip then { st with skip := false }
  else if st.inQuotes then
    if c = '"' then
      if behind = some '"' then { st.put '"' with skip := true } else { st with inQuotes := false }
    else st.put c
  else if c = '"' then { st with inQuotes := true }
  else if c = ',' then st.pushField
  else if c = '\n' then st.pushRow
  else if c = '\r' then st
  else st.put c

/-- The loop over the text. -/
def read (st : CsvReader) : List Char → CsvReader
  | [] => st
  | c :: rest => read (st.next c rest.head?) rest

/-- The records, the last one with or without a line end. -/
def finish (st : CsvReader) : List (List String) :=
  if st.field ≠ [] ∨ st.row ≠ [] then st.pushRow.records else st.records

end CsvReader

/-- Minimal RFC 4180 parser: quoted fields, embedded commas, and CRLF. -/
def parseCsv (trim : String → String) (text : String) : ParsedCsv :=
  let records := (CsvReader.read {} text.toList).finish
  match records.filter fun r => r.any fun cell => trim cell != "" with
  | [] => { headers := [], rows := [] }
  | first :: rest =>
    let headers := first.map trim
    { headers
      rows := rest.map fun r =>
        headers.zipIdx.map fun (h, idx) => (h, trim ((r[idx]?).getD "")) }

example : (parseCsv id "a,b\n\"x,\"\"y\",z\r\n").rows = [[("a", "x,\"y"), ("b", "z")]] := by decide

end MassDeployment
