import MassDeployment.Controller.Csv
import MassDeployment.Controller.Students

set_option autoImplicit false

/-! # Planning a roster import (`labimport.ts`)

`planRosterImport` reads a CSV text and the database and says what applying the text would
change. Nothing is written; `applyRosterImport` computes the plan again before it writes.
-/

namespace MassDeployment

open Js

def maxImportBytes : Nat := 1000000

def maxImportRows : Nat := 5000

/-- `USERNAME_RE = /^[a-z_][a-z0-9_-]{0,31}$/`. -/
def isUsername (s : String) : Bool :=
  match s.toList with
  | [] => false
  | c :: rest => (('a' ≤ c && c ≤ 'z') || c == '_') &&
      rest.all (fun c => ('a' ≤ c && c ≤ 'z') || isDigit c || c == '_' || c == '-') &&
      rest.length ≤ 31

/-- A dot with a character on either side. -/
def innerDot : List Char → Bool
  | _ :: '.' :: _ :: _ => true
  | _ :: rest => innerDot rest
  | [] => false

/-- `EMAIL_RE = /^[^\s@]+@[^\s@]+\.[^\s@]+$/`. -/
def isEmail (s : String) : Bool :=
  let named := fun c => !isJsSpace c && c != '@'
  match s.toList.span (· != '@') with
  | (user, '@' :: domain) =>
    !user.isEmpty && user.all named && domain.all named && innerDot domain
  | _ => false

/-- `STUDENT_ID_RE = /^[A-Za-z0-9][A-Za-z0-9._-]{0,63}$/`. -/
def isStudentId (s : String) : Bool :=
  match s.toList with
  | [] => false
  | c :: rest => isAlnum c &&
      rest.all (fun c => isAlnum c || c == '.' || c == '_' || c == '-') && rest.length ≤ 63

structure ImportIssue where
  /-- 1-based; the header is line 1. -/
  line : Nat
  message : String
  deriving DecidableEq, Repr

/-- The plan of an import, with what keeps it from being committed. -/
structure RosterImportPlan extends RosterPlan where
  conflicts : List ImportIssue := []
  invalid : List ImportIssue := []
  ok : Bool := false

def emptyPlan (lab : String) (issue : ImportIssue) : RosterImportPlan :=
  { lab, invalid := [issue] }

inductive ImportRole where
  | student | pi
  deriving DecidableEq, Repr

/-- A row that passed the checks of its fields. -/
structure ValidRow where
  line : Nat
  role : ImportRole
  user : String
  sid : Option String
  sname : Option String
  semail : Option String
  deriving DecidableEq, Repr

/-! ## Phase A: the fields of a row -/

/-- `text || null`. -/
def nonEmpty (text : String) : Option String := if text = "" then none else some text

/-- The checks of one data row: the row, or the message it is refused with. -/
def validRow (h : Host) (line : Nat) (r : CsvRecord) : Except String ValidRow :=
  let norm := fun k => h.trim ((r.cell k).getD "")
  let lower := fun k => h.toLowerCase (norm k)
  let roleRaw := (nonEmpty (lower "role")).getD "student"
  let user := nonEmpty (lower "username")
  let sid := nonEmpty (norm "student_id")
  let sname := nonEmpty (norm "name")
  let semail := nonEmpty (lower "email")
  let badSid := sid.any fun s => !isStudentId s
  let sidText := sid.getD ""
  if roleRaw = "pi" then
    match user, semail with
    | none, _ => .error "username required on a pi row"
    | some user, semail =>
      if !isUsername user then .error s!"invalid username '{user}'"
      else
        match semail with
        | none => .error "email required on a pi row"
        | some email =>
          if !isEmail email then .error "invalid pi email"
          else if badSid then .error s!"invalid student_id '{sidText}'"
          else .ok { line, role := .pi, user, sid, sname, semail := some email }
  else if roleRaw = "student" then
    match user with
    | none => .error "username required on a student row"
    | some user =>
      if !isUsername user then .error s!"invalid username '{user}'"
      else if badSid then .error s!"invalid student_id '{sidText}'"
      else if semail.any fun e => !isEmail e then .error "invalid email"
      else .ok { line, role := .student, user, sid, sname, semail }
  else .error s!"unknown role '{roleRaw}' (use 'student' or 'pi')"

/-- The data rows with their lines; the header is line 1. -/
def checkRows (h : Host) (rows : List CsvRecord) : List (Nat × Except String ValidRow) :=
  rows.zipIdx.map fun (r, i) => (i + 2, validRow h (i + 2) r)

def validRows (checked : List (Nat × Except String ValidRow)) : List ValidRow :=
  checked.filterMap fun c => c.2.toOption

def invalidRows (checked : List (Nat × Except String ValidRow)) : List ImportIssue :=
  checked.filterMap fun c =>
    match c.2 with
    | .ok _ => none
    | .error message => some ⟨c.1, message⟩

/-! ## Phase B: the PI -/

/-- A field the `pi` rows have to agree on: its value so far, and a row's. -/
def agree (what : String) (line : Nat) (sofar value : Option String) :
    Option String × List ImportIssue :=
  match value, sofar with
  | none, _ => (sofar, [])
  | some v, some w =>
    if w ≠ v then (sofar, [⟨line, s!"conflicting PI {what} in 'pi' rows"⟩]) else (some v, [])
  | some v, none => (some v, [])

/-- What the `pi` rows say, and where they disagree. -/
structure PiRows where
  username : Option String := none
  name : Option String := none
  email : Option String := none
  conflicts : List ImportIssue := []

def PiRows.add (acc : PiRows) (r : ValidRow) : PiRows :=
  if r.role ≠ .pi then acc
  else
    let username := agree "username" r.line acc.username (some r.user)
    let name := agree "name" r.line acc.name r.sname
    let email := agree "email" r.line acc.email r.semail
    { username := username.1, name := name.1, email := email.1
      conflicts := acc.conflicts ++ username.2 ++ name.2 ++ email.2 }

def piRows (valid : List ValidRow) : PiRows := valid.foldl PiRows.add {}

/-! ## Phase C: the students of the file -/

/-- A student of the file; the rows that name it are merged. -/
structure BatchStudent where
  sid : Option String
  name : Option String
  email : Option String
  line : Nat

/-- The map from usernames to students, in the order of their first rows. -/
abbrev Batch := List (String × BatchStudent)

/-- What one more row of the same username adds. -/
def BatchStudent.merge (prev : BatchStudent) (r : ValidRow) : BatchStudent :=
  { prev with
    sid := prev.sid.orElse fun _ => r.sid
    name := prev.name.orElse fun _ => r.sname
    email := prev.email.orElse fun _ => r.semail }

/-- The issue of a row that gives a username a second student id. -/
def sidIssue (prev : BatchStudent) (r : ValidRow) : List ImportIssue :=
  match r.sid, prev.sid with
  | some sid, some other =>
    if sid ≠ other then
      let user := r.user
      [⟨r.line, s!"username '{user}' mapped to two student IDs"⟩]
    else []
  | _, _ => []

def addToBatch (acc : Batch × List ImportIssue) (r : ValidRow) : Batch × List ImportIssue :=
  match acc.1.lookup r.user with
  | none =>
    (acc.1 ++ [(r.user, { sid := r.sid, name := r.sname, email := r.semail, line := r.line })],
      acc.2)
  | some prev =>
    (acc.1.map fun e => if e.1 = r.user then (e.1, prev.merge r) else e, acc.2 ++ sidIssue prev r)

def batchOf (valid : List ValidRow) : Batch × List ImportIssue := valid.foldl addToBatch ([], [])

/-- Two usernames that share a student id: the ids seen so far, with their usernames. -/
def sharedSids (seen : List (String × String)) : Batch → List ImportIssue
  | [] => []
  | (user, info) :: rest =>
    match info.sid with
    | none => sharedSids seen rest
    | some sid =>
      match seen.lookup sid with
      | none => sharedSids ((sid, user) :: seen) rest
      | some other =>
        if other ≠ user then
          ⟨info.line, s!"student_id '{sid}' used by two usernames ('{other}', '{user}')"⟩ ::
            sharedSids seen rest
        else sharedSids seen rest

/-! ## Phase C2: the students of the database -/

/-- `dbById.get(sid)`. -/
def Db.studentBySid (d : Db) (sid : Option String) : Option StudentRow :=
  match sid with
  | some sid => if sid = "" then none else d.students.find fun r => r.studentId == some sid
  | none => none

def Db.studentByName (d : Db) (username : String) : Option StudentRow :=
  d.students.find fun r => r.username == username

/-- What an import does about one student of the file. -/
inductive Resolution where
  | conflict (issue : ImportIssue)
  | create (s : StudentCreate)
  | update (u : StudentUpdate)
  | unchanged

/-- The value of the file, where it differs from the one that is stored. -/
def changed (value stored : Option String) : Option String :=
  value.filter fun v => stored != some v

def resolve (d : Db) (user : String) (info : BatchStudent) : Resolution :=
  let byId := d.studentBySid info.sid
  let byName := d.studentByName user
  let sidText := info.sid.getD ""
  let byIdName := (byId.map StudentRow.username).getD ""
  let storedSid := (byName.bind StudentRow.studentId).filter (· ≠ "")
  let storedSidText := storedSid.getD ""
  if byId.any fun r => r.username ≠ user then
    .conflict ⟨info.line, s!"student_id '{sidText}' already belongs to '{byIdName}'"⟩
  else if storedSid.isSome ∧ info.sid.isSome ∧ storedSid ≠ info.sid then
    .conflict ⟨info.line, s!"username '{user}' already has student_id '{storedSidText}'"⟩
  else
    match byId.orElse fun _ => byName with
    | none =>
      .create { username := user, studentId := info.sid, name := info.name, email := info.email }
    | some existing =>
      let name := changed info.name existing.name
      let email := changed info.email existing.email
      let studentId := if existing.studentId.any (· ≠ "") then none else info.sid
      if name.isSome ∨ email.isSome ∨ studentId.isSome then
        .update { username := user, name, email, studentId }
      else .unchanged

def Resolution.issue : Resolution → Option ImportIssue
  | .conflict issue => some issue
  | _ => none

def Resolution.creates : Resolution → Option StudentCreate
  | .create s => some s
  | _ => none

def Resolution.updates : Resolution → Option StudentUpdate
  | .update u => some u
  | _ => none

/-- The changed, non-blank fields relative to the lab's current PI. -/
def piUpdate (d : Db) (lab : LabRow) (pi : PiRows) : Option PiUpdate :=
  let currentPi := lab.piStudentId.bind d.students.get
  let piUsername := changed pi.username (currentPi.map StudentRow.username)
  let piName := changed pi.name lab.piName
  let piEmail := changed pi.email lab.piEmail
  if piUsername.isSome ∨ piName.isSome ∨ piEmail.isSome then
    some { piUsername, piName, piEmail }
  else none

/-- The usernames of the file that are not on the roster yet. -/
def membershipsToAdd (d : Db) (labId : Nat) (batch : Batch) : List String :=
  (batch.filter fun (user, info) =>
    !((d.studentByName user).orElse fun _ => d.studentBySid info.sid).any fun r =>
      d.isMember labId r.id).map Prod.fst

/-- The plan for the valid rows of a file. -/
def planRows (d : Db) (lab : LabRow) (valid : List ValidRow) (invalid : List ImportIssue) :
    RosterImportPlan :=
  let pi := piRows valid
  let (batch, merged) := batchOf valid
  let resolved := batch.map fun (user, info) => resolve d user info
  let conflicts := pi.conflicts ++ merged ++ sharedSids [] batch ++ resolved.filterMap Resolution.issue
  { lab := lab.name
    piUpdate := piUpdate d lab pi
    studentsToCreate := resolved.filterMap Resolution.creates
    studentsToUpdate := resolved.filterMap Resolution.updates
    membershipsToAdd := membershipsToAdd d lab.id batch
    conflicts, invalid
    ok := conflicts.isEmpty && invalid.isEmpty }

/-- Compute the plan of an import from its CSV text, without writing anything. -/
def planRosterImport (h : Host) (d : Db) (labId : Nat) (text : String) : RosterImportPlan :=
  match d.labs.get labId with
  | none => emptyPlan "" ⟨0, "Unknown lab"⟩
  | some lab =>
    let parsed := parseCsv h.trim text
    let bytes := Js.length text
    let rows := parsed.rows.length
    if bytes > maxImportBytes then
      emptyPlan lab.name ⟨0, s!"File too large ({bytes} bytes; max {maxImportBytes})"⟩
    else if parsed.headers = [] then emptyPlan lab.name ⟨0, "Empty CSV"⟩
    else if !parsed.headers.contains "username" then
      emptyPlan lab.name ⟨1, "Missing required column 'username'"⟩
    else if rows > maxImportRows then
      emptyPlan lab.name ⟨0, s!"Too many rows ({rows}; max {maxImportRows})"⟩
    else
      let checked := checkRows h parsed.rows
      planRows d lab (validRows checked) (invalidRows checked)

/-! ## The import -/

/-- Apply a roster import, up to the first `await`: the plan is derived again from the text, and
refused where it is not committable. -/
def applyRosterImport (labId : Nat) (text : String) (actor : Option String) : Op Thread := do
  let s ← .read id
  let plan := planRosterImport s.host s.db labId text
  if plan.ok then applyRosterPlan labId plan.toRosterPlan actor
  else
    let invalid := plan.invalid.length
    let conflicts := plan.conflicts.length
    let first := ((plan.invalid ++ plan.conflicts).head?.map firstIssue).getD ""
    Op.failWith
      s!"Import not committable: {invalid} invalid row(s), {conflicts} conflict(s){first}"
where
  firstIssue (issue : ImportIssue) : String :=
    let line := issue.line
    let message := issue.message
    s!" — first: line {line}: {message}"

end MassDeployment
