import MassDeployment.Agent.Frames
import MassDeployment.Agent.GpuMonitor
import MassDeployment.Lib.Text
import MassDeployment.Lib.Toml
import MassDeployment.Lib.Utf8

set_option autoImplicit false

/-! # What `/proc` says of a process (`gpu/monitor.py`, `telemetry.py`)

`list_gpu_processes` reads several files for every process it lists. Some of them hold the name of the
process, which is any bytes the process likes. The command line is decoded with replacements and the
status is read where a `ValueError` is caught; `stat` and `comm` are decoded strictly where only an
`OSError` is, so there a name that is no text ends the whole listing, and the heartbeat and the
governor's tick with it.

The files are those of one moment, and what a file holds is the bytes the kernel wrote.
-/

namespace MassDeployment.Agent

open Js

/-! ## Reading -/

/-- The files of `/proc` that are decoded strictly. -/
inductive ProcFile where
  | cgroup (pid : ℤ)
  | status (pid : ℤ)
  | uidMap (pid : ℤ)
  | stat (pid : ℤ)
  | comm (pid : ℤ)
  | bootStat
  deriving DecidableEq

/-- What ends a listing. -/
inductive MonitorError where
  /-- `int()` of a figure that is infinite or no number. -/
  | notFinite
  | unicodeDecode (file : ProcFile)
  | indexError
  deriving DecidableEq

/-- A line of a text file ends in a line feed, however it ends in the file. -/
def universalNewlines : List Char → List Char
  | [] => []
  | '\r' :: '\n' :: rest => '\n' :: universalNewlines rest
  | c :: rest => (if c = '\r' then '\n' else c) :: universalNewlines rest

/-- `open(path, encoding="utf-8").read()`; none for an `OSError`. -/
def readText (file : ProcFile) : Option (List UInt8) → Except MonitorError (Option String)
  | none => .ok none
  | some bytes =>
    match Utf8.decode bytes with
    | some text => .ok (some (String.ofList (universalNewlines text.toList)))
    | none => .error (.unicodeDecode file)

/-- The lines of a text file. -/
def fileLines (text : String) : List String :=
  let lines := Text.split '\n' text
  if lines.getLast? = some "" then lines.dropLast else lines

/-- `text.startswith(start)`. -/
def startsWith (start text : String) : Bool := start.toList.isPrefixOf text.toList

/-- `text.rfind(c)`; none for -1. -/
def rfind (c : Char) (text : List Char) : Option ℕ :=
  (text.reverse.findIdx? (· == c)).map fun i => text.length - 1 - i

/-- A second octet that may follow the first one. -/
def fitsSecond (first second : UInt8) : Bool :=
  if first = 0xe0 then 0xa0 ≤ second && second ≤ 0xbf
  else if first = 0xed then 0x80 ≤ second && second ≤ 0x9f
  else if first = 0xf0 then 0x90 ≤ second && second ≤ 0xbf
  else if first = 0xf4 then 0x80 ≤ second && second ≤ 0x8f
  else 0xe1 ≤ first && first ≤ 0xf3 && 0x80 ≤ second && second ≤ 0xbf

/-- How many octets become one replacement character where no character begins: as many as one might
have begun with. -/
def replacedLength : List UInt8 → ℕ
  | first :: second :: third :: _ =>
    if !fitsSecond first second then 1
    else if 0xf0 ≤ first && 0x80 ≤ third && third ≤ 0xbf then 3
    else 2
  | [first, second] => if fitsSecond first second then 2 else 1
  | _ => 1

/-- `raw.decode("utf-8", "replace")`. -/
def decodeReplace (raw : List UInt8) : List Char :=
  match raw with
  | [] => []
  | _ :: rest =>
    match raw.toByteArray.utf8DecodeChar? 0 with
    | some c => c :: decodeReplace (rest.drop (c.utf8Size - 1))
    | none => Char.ofNat 0xfffd :: decodeReplace (rest.drop (replacedLength raw - 1))
termination_by raw.length
decreasing_by all_goals simp only [List.length_drop, List.length_cons]; omega

/-! ## One process -/

/-- The host as the monitor reads it; a file is missing where opening it is an `OSError`. -/
structure MonitorHost where
  /-- The two answers of `nvidia-smi`. -/
  apps : CommandResult
  pmon : CommandResult
  cgroup : ℤ → Option (List UInt8)
  status : ℤ → Option (List UInt8)
  uidMap : ℤ → Option (List UInt8)
  cmdline : ℤ → Option (List UInt8)
  comm : ℤ → Option (List UInt8)
  stat : ℤ → Option (List UInt8)
  /-- `/proc/stat`. -/
  bootStat : Option (List UInt8)
  /-- `docker inspect` of an id. -/
  inspect : String → CommandResult
  /-- `getent passwd` of a user id in a container. -/
  getent : String → ℤ → CommandResult
  /-- `int((boot + ticks / hz) * 1000)`. -/
  epochMs : ℤ → ℤ → ℤ

/-- `[0-9a-f]`. -/
def isIdChar (c : Char) : Bool := c.isDigit || ('a' ≤ c && c ≤ 'f')

/-- A match of `_DOCKER_CGROUP` at the start: `docker`, a slash or a hyphen, and 12 to 64 digits. -/
def dockerIdHere (text : List Char) : Option String :=
  if "docker".toList.isPrefixOf text then
    match text.drop 6 with
    | [] => none
    | c :: rest =>
      let id := (rest.takeWhile isIdChar).take 64
      if (c = '-' || c = '/') && 12 ≤ id.length then some (String.ofList id) else none
  else none

/-- The first match. -/
def dockerId : List Char → Option String
  | [] => none
  | c :: rest => (dockerIdHere (c :: rest)).or (dockerId rest)

section

variable (py : PyNumbers)

/-- Name, `managed` and lab of a container. -/
def parseInspect (stdout : String) : Option String × Bool × Option String :=
  let parts := Text.split '|' (py.strip stdout) ++ ["", "", ""]
  let part i := py.strip (parts.getD i "")
  let lab := part 2
  (orNone (String.ofList ((part 0).toList.dropWhile (· == '/'))), part 1 == "true",
    if lab = "" || lab = "<no value>" then none else some lab)

def containerInfo (h : MonitorHost) (pid : ℤ) :
    Except MonitorError (Option String × Bool × Option String) := do
  match ← readText (.cgroup pid) (h.cgroup pid) with
  | none => return (none, false, none)
  | some text =>
    match dockerId text.toList with
    | none => return (none, false, none)
    | some id =>
      let res := h.inspect id
      return if res.ok then parseInspect py res.stdout else (none, false, none)

/-- The user id in the namespace, by the first range the id of the host is in. -/
def insideUid (hostUid : ℤ) : List String → Option ℤ
  | [] => none
  | line :: lines =>
    match (py.split line).map py.int with
    | [some inside, some outside, some length] =>
      if outside ≤ hostUid && hostUid < outside + length then some (inside + (hostUid - outside))
      else insideUid hostUid lines
    | _ => none

/-- `_proc_uid`: whatever goes wrong, there is no id. -/
def procUid (h : MonitorHost) (pid : ℤ) : Option ℤ :=
  match readText (.status pid) (h.status pid) with
  | .ok (some status) => do
    let line ← (fileLines status).find? (startsWith "Uid:")
    let hostUid ← (py.split line)[2]?.bind py.int
    match readText (.uidMap pid) (h.uidMap pid) with
    | .ok (some uidMap) => insideUid py hostUid (fileLines uidMap)
    | _ => none
  | _ => none

def studentUser (h : MonitorHost) (container : Option String) (pid : ℤ) : Option String := do
  let container ← container.bind orNone
  let uid ← procUid py h pid
  let res := h.getent container uid
  if !res.ok || !res.stdout.toList.contains ':' then none
  else orNone (py.strip (String.ofList (res.stdout.toList.takeWhile (· != ':'))))

/-- `proc_cmd`: the command line, or the name in brackets where that is blank. -/
def procCmd (h : MonitorHost) (pid : ℤ) : Except MonitorError (Option String) := do
  match h.cmdline pid with
  | none => return none
  | some raw =>
    let spaced := raw.map fun octet => if octet = 0 then 0x20 else octet
    let cmd := py.strip (String.ofList (decodeReplace spaced))
    if cmd = "" then
      match ← readText (.comm pid) (h.comm pid) with
      | none => return none
      | some comm => return clamped ("[" ++ py.strip comm ++ "]")
    else return clamped cmd
where
  clamped (cmd : String) : Option String := orNone (String.ofList (cmd.toList.take 200))

/-- `pid_start_time`: field 22 of `stat`, counted from behind the name. -/
def pidStartTime (pid : ℤ) (stat : Option (List UInt8)) : Except MonitorError (Option ℤ) := do
  match ← readText (.stat pid) stat with
  | none => return none
  | some data =>
    match rfind ')' data.toList with
    | none => return none
    | some rparen =>
      let fields := py.split (String.ofList (data.toList.drop (rparen + 2)))
      return fields[19]?.bind py.int

/-- `pid_started_at`: only the start time is read where nothing is caught. -/
def pidStartedAt (h : MonitorHost) (pid : ℤ) : Except MonitorError (Option ℤ) := do
  match ← pidStartTime py pid (h.stat pid) with
  | none => return none
  | some ticks =>
    match readText .bootStat h.bootStat with
    | .ok (some text) =>
      match (fileLines text).find? (startsWith "btime ") with
      | none => return none
      | some line =>
        match (py.split line)[1]? with
        | none => throw .indexError
        | some boot => return (py.int boot).map fun boot => h.epochMs boot ticks
    | _ => return none

/-- What `list_gpu_processes` looks up of a process. -/
def procInfo (h : MonitorHost) (pid : ℤ) : Except MonitorError ProcInfo := do
  let (container, managed, lab) ← containerInfo py h pid
  let user := studentUser py h container pid
  let startTime ← pidStartTime py pid (h.stat pid)
  let cmd ← procCmd py h pid
  let startedAt ← pidStartedAt py h pid
  return { container, user, startTime, managed, lab, cmd, startedAt }

/-! ## The listing and its readers -/

/-- The report of a process. -/
def gpuReport (h : MonitorHost) (e : ℤ × ℤ) : Except MonitorError GpuReport := do
  let info ← procInfo py h e.1
  return { info with pid := e.1, vramBytes := e.2, util := (pmonUtil py h.pmon).lookup e.1 }

/-- `list_gpu_processes`, with what it raises; where it does not, it is the listing of
`GpuMonitor` (`listGpuProcesses_of_ok`). -/
def MonitorHost.listGpuProcesses (h : MonitorHost) : Except MonitorError (List GpuReport) :=
  match queryComputeApps py h.apps with
  | none => .error .notFinite
  | some vram => vram.mapM (gpuReport py h)

end

/-- `asdict` of a report. -/
def GpuReport.toDict (p : GpuReport) : PyValue :=
  let number : Option Number → PyValue
    | some (.fin q) => .num q
    | some _ => .nonFinite
    | none => .none
  let text (o : Option String) : PyValue := o.elim .none .str
  let int (o : Option ℤ) : PyValue := o.elim .none fun n => .num n
  .dict [("pid", .num p.pid), ("vram_bytes", .num p.vramBytes), ("util", number p.util),
    ("container", text p.container), ("user", text p.user), ("start_time", int p.startTime),
    ("managed", .bool p.managed), ("lab", text p.lab), ("cmd", text p.cmd),
    ("started_at", int p.startedAt)]

/-- `collect_heartbeat`; `before` and `after` are what the collectors around the monitor find. -/
def collectHeartbeat (before : Except MonitorError (List (String × PyValue)))
    (procs : Except MonitorError (List GpuReport))
    (after : Except MonitorError (List (String × PyValue))) :
    Except MonitorError (List (String × PyValue)) := do
  let before ← before
  let procs ← procs
  let after ← after
  return before ++ [("gpu_processes", .list (procs.map GpuReport.toDict))] ++ after

/-- What a tick of the governor decides on; none where the listing raised and the tick is over. -/
def governorTick {δ : Type} (evaluate : List GpuReport → δ)
    (procs : Except MonitorError (List GpuReport)) : Option δ :=
  procs.toOption.map evaluate

/-! ## A process and its name -/

/-- What the reading of `stat` takes from the language: the white space of ASCII, and the numerals of
64 bits. -/
structure PyText.ReadsFields (py : PyText) : Prop where
  space : py.isSpace ' ' = true
  lineFeed : py.isSpace '\n' = true
  solid : ∀ c : Char, c.isAlphanum = true ∨ c = '-' → py.isSpace c = false
  int : ∀ n : ℕ, n < 2 ^ 64 → py.int n.repr = some (n : ℤ)

/-- What is behind the name in the `stat` of a process: its state, the fields 4 to 21, the start
time, and the fields from 23 on. -/
structure StatLine where
  state : Char
  before : List ℤ
  start : ℕ
  after : List ℤ
  isAlpha_state : state.isAlpha = true
  length_before : before.length = 18
  start_lt : start < 2 ^ 64

namespace StatLine

variable (l : StatLine)

/-- The fields from the state on. -/
def fields : List String :=
  String.singleton l.state :: (l.before.map Int.repr ++ l.start.repr :: l.after.map Int.repr)

/-- The line behind the closing parenthesis. -/
def tail : List Char := (l.fields.flatMap fun field => ' ' :: field.toList) ++ ['\n']

/-- `pid (comm) state …`, around any name. -/
def bytes (pid : ℤ) (name : List UInt8) : List UInt8 :=
  Utf8.encode (pid.repr.toList ++ [' ', '(']) ++ (name ++ Utf8.encode (')' :: l.tail))

end StatLine

/-- A host whose processes may have any names: `stat`, `comm` and `status` are written with them. -/
structure Machine where
  files : MonitorHost
  /-- None for a process that is gone. -/
  line : ℤ → Option StatLine
  status : ℤ → List UInt8 → Option (List UInt8)

namespace Machine

variable (m : Machine)

/-- The host under the names. -/
def host (names : ℤ → List UInt8) : MonitorHost :=
  { m.files with
    status := fun pid => m.status pid (names pid)
    comm := fun pid => (m.line pid).map fun _ => names pid ++ [0x0a]
    stat := fun pid => (m.line pid).map fun line => line.bytes pid (names pid) }

/-- No process has a name. -/
def nameless : MonitorHost := m.host fun _ => []

/-- The pids that `nvidia-smi` lists. -/
def listed (py : PyNumbers) : List ℤ := (answerRows (computeAppsRow py) m.files.apps).map Prod.fst

end Machine

/-- Two computations raise the same or do not raise. -/
def RaisesAlike {ε α β : Type} (x : Except ε α) (y : Except ε β) : Prop :=
  ∀ e, x = .error e ↔ y = .error e

/-- **The names do no harm**: every start time is field 22, and the listing, the heartbeat and the
governor's tick are cut short only by what cuts them short where no process has a name. -/
structure Machine.Harmless (py : PyNumbers) (m : Machine) (names : ℤ → List UInt8) : Prop where
  start : ∀ pid ∈ m.listed py, ∀ line, m.line pid = some line →
    pidStartTime py pid ((m.host names).stat pid) = .ok (some (line.start : ℤ))
  listing : RaisesAlike ((m.host names).listGpuProcesses py) (m.nameless.listGpuProcesses py)
  heartbeat : ∀ before after,
    RaisesAlike (collectHeartbeat before ((m.host names).listGpuProcesses py) after)
      (collectHeartbeat before (m.nameless.listGpuProcesses py) after)
  governor : ∀ (δ : Type) (evaluate : List GpuReport → δ),
    governorTick evaluate ((m.host names).listGpuProcesses py) = none ↔
      governorTick evaluate (m.nameless.listGpuProcesses py) = none

/-! ## The text of a line -/

theorem universalNewlines_append_cons {a b : List Char} {c : Char} (hc : c ≠ '\n') :
    universalNewlines (a ++ c :: b) = universalNewlines a ++ universalNewlines (c :: b) := by
  fun_induction universalNewlines a with
  | case1 => rfl
  | case2 rest ih => simp [universalNewlines, ih]
  | case3 d rest hnot ih =>
      have hpair : ∀ after, d = '\r' → rest ++ c :: b = '\n' :: after → False := by
        intro after hd hafter
        cases rest with
        | nil => exact hc (List.cons.inj hafter).1
        | cons x rest => exact hnot rest hd (by rw [(List.cons.inj hafter).1])
      rw [List.cons_append, universalNewlines, ih, List.cons_append]
      exact hpair

theorem universalNewlines_of_not_mem {s : List Char} (h : '\r' ∉ s) : universalNewlines s = s := by
  fun_induction universalNewlines s with
  | case1 => rfl
  | case2 rest ih => simp at h
  | case3 d rest hnot ih =>
      rw [List.mem_cons, not_or] at h
      rw [ih h.2, if_neg (Ne.symm h.1)]

theorem rfind_append_cons {a b : List Char} {c : Char} (h : c ∉ b) :
    rfind c (a ++ c :: b) = some a.length := by
  have hbehind : ∀ d ∈ b.reverse, (d == c) = false := by
    intro d hd
    rw [beq_eq_false_iff_ne]
    rintro rfl
    exact h (List.mem_reverse.mp hd)
  have hfind : (a ++ c :: b).reverse.findIdx? (· == c) = some b.length := by
    rw [List.reverse_append, List.reverse_cons, List.append_assoc, List.findIdx?_append,
      List.findIdx?_eq_none_iff.mpr hbehind]
    simp [List.findIdx?_cons]
  rw [rfind, hfind, Option.map_some, Option.some.injEq]
  simp only [List.length_append, List.length_cons]
  omega

namespace PyText

variable {py : PyText} {word w rest : List Char} {c : Char}

theorem splitFrom_append (h : ∀ c ∈ w, py.isSpace c = false) :
    py.splitFrom word (w ++ rest) = py.splitFrom (word ++ w) rest := by
  induction w generalizing word with
  | nil => simp
  | cons d w ih =>
      have hd : py.isSpace d = false := h d (by simp)
      have hrest : py.splitFrom (word ++ [d]) (w ++ rest) = py.splitFrom (word ++ [d] ++ w) rest :=
        ih fun c hc => h c (by simp [hc])
      simpa [splitFrom, hd] using hrest

theorem splitFrom_space (hc : py.isSpace c = true) (hword : word ≠ []) :
    py.splitFrom word (c :: rest) = String.ofList word :: py.splitFrom [] rest := by
  simp [splitFrom, splitFrom.flush, hc, hword]

/-- A field is not empty and holds no white space. -/
def Solid (py : PyText) (field : String) : Prop :=
  field.toList ≠ [] ∧ ∀ c ∈ field.toList, py.isSpace c = false

theorem split_fields (hpy : py.ReadsFields) {first : String} {fields : List String}
    (hsolid : ∀ field ∈ first :: fields, py.Solid field) :
    py.split (String.ofList (first.toList ++
      ((fields.flatMap fun field => ' ' :: field.toList) ++ ['\n']))) = first :: fields := by
  unfold split
  rw [String.toList_ofList]
  induction fields generalizing first with
  | nil =>
      obtain ⟨hne, hfirst⟩ := hsolid first (by simp)
      rw [List.flatMap_nil, List.nil_append, splitFrom_append hfirst, List.nil_append,
        splitFrom_space hpy.lineFeed hne, String.ofList_toList]
      rfl
  | cons second fields ih =>
      obtain ⟨hne, hfirst⟩ := hsolid first (by simp)
      have hrest := @ih second fun field h => hsolid field (List.mem_cons_of_mem _ h)
      rw [List.flatMap_cons, List.cons_append, List.cons_append, splitFrom_append hfirst,
        List.nil_append, splitFrom_space hpy.space hne, String.ofList_toList, List.append_assoc, hrest]

/-- A numeral is a field. -/
theorem ReadsFields.solid_repr (hpy : py.ReadsFields) (n : ℤ) : py.Solid n.repr := by
  constructor
  · intro hnil
    have hfilter := Toml.filter_isDigit n
    rw [hnil] at hfilter
    have hdigits : n.natAbs.repr.toList ≠ [] := by simp
    exact hdigits hfilter.symm
  · intro c hc
    refine hpy.solid c ?_
    rcases Toml.repr_chars hc with rfl | hdigit
    · exact .inr rfl
    · exact .inl (by rw [Char.isAlphanum, hdigit, Bool.or_true])

end PyText

namespace StatLine

variable {py : PyText} (l : StatLine)

theorem solid_fields (hpy : py.ReadsFields) : ∀ field ∈ l.fields, py.Solid field := by
  intro field hfield
  have hstate : py.Solid (String.singleton l.state) := by
    refine ⟨by simp, fun c hc => ?_⟩
    obtain rfl : c = l.state := by simpa using hc
    exact hpy.solid _ (.inl (by rw [Char.isAlphanum, l.isAlpha_state, Bool.true_or]))
  simp only [fields, List.mem_cons, List.mem_append, List.mem_map] at hfield
  rcases hfield with rfl | ⟨n, -, rfl⟩ | rfl | ⟨n, -, rfl⟩
  · exact hstate
  · exact hpy.solid_repr n
  · exact hpy.solid_repr l.start
  · exact hpy.solid_repr n

/-- Field 22. -/
theorem getElem?_fields : l.fields[19]? = some l.start.repr := by
  have hlength := l.length_before
  rw [fields, List.getElem?_cons_succ, List.getElem?_append_right (by simp [hlength])]
  simp [hlength]

/-- A character behind the name. -/
theorem mem_tail {c : Char} (hc : c ∈ l.tail) :
    c = ' ' ∨ c = '\n' ∨ c = '-' ∨ c.isAlphanum = true := by
  have hrepr : ∀ n : ℤ, c ∈ n.repr.toList → c = '-' ∨ c.isAlphanum = true := by
    intro n hmem
    refine (Toml.repr_chars hmem).imp_right fun hdigit => ?_
    rw [Char.isAlphanum, hdigit, Bool.or_true]
  simp only [tail, List.mem_append, List.mem_flatMap, List.mem_cons,
    List.not_mem_nil, or_false, fields, List.mem_map] at hc
  rcases hc with ⟨field, hfield, rfl | hc⟩ | rfl
  · exact .inl rfl
  · rcases hfield with rfl | hfield
    · obtain rfl : c = l.state := by simpa using hc
      exact .inr (.inr (.inr (by rw [Char.isAlphanum, l.isAlpha_state, Bool.true_or])))
    · rcases hfield with ⟨n, -, rfl⟩ | rfl | ⟨n, -, rfl⟩
      · exact .inr (.inr (hrepr n hc))
      · exact .inr (.inr (hrepr l.start hc))
      · exact .inr (.inr (hrepr n hc))
  · exact .inr (.inl rfl)

theorem not_mem_tail {c : Char} (hc : c ≠ ' ' ∧ c ≠ '\n' ∧ c ≠ '-' ∧ c.isAlphanum = false) :
    c ∉ l.tail := by
  intro hmem
  rcases l.mem_tail hmem with h | h | h | h
  · exact hc.1 h
  · exact hc.2.1 h
  · exact hc.2.2.1 h
  · rw [hc.2.2.2] at h
    cases h

/-- What is split into fields. -/
theorem split_tail (hpy : py.ReadsFields) : py.split (String.ofList (l.tail.drop 1)) = l.fields := by
  have htail : l.tail.drop 1 = (String.singleton l.state).toList ++
      (((l.before.map Int.repr ++ l.start.repr :: l.after.map Int.repr).flatMap
        fun field => ' ' :: field.toList) ++ ['\n']) := by
    rw [tail, fields, List.flatMap_cons, List.append_assoc]
    rfl
  rw [htail]
  exact PyText.split_fields hpy (l.solid_fields hpy)

/-- The line is text exactly if the name is. -/
theorem valid_bytes_iff {pid : ℤ} {name : List UInt8} :
    Utf8.Valid (l.bytes pid name) ↔ Utf8.Valid name := by
  have hopen : Utf8.encode ['('] = [0x28] := by decide
  have hclose : Utf8.encode [')'] = [0x29] := by decide
  have hfront : Utf8.encode (pid.repr.toList ++ [' ', '(']) =
      Utf8.encode (pid.repr.toList ++ [' ']) ++ [0x28] := by
    rw [← hopen, ← Utf8.encode_append, List.append_assoc]
    rfl
  have hrest : Utf8.encode (')' :: l.tail) = 0x29 :: Utf8.encode l.tail := by
    rw [← List.singleton_append, Utf8.encode_append, hclose]
    rfl
  rw [bytes, hfront, hrest, List.append_assoc, List.singleton_append,
    Utf8.valid_append_cons_iff (by decide), Utf8.valid_append_cons_iff (by decide)]
  exact ⟨fun h => h.2.1, fun h => ⟨⟨_, rfl⟩, h, ⟨_, rfl⟩⟩⟩

theorem decode_bytes {pid : ℤ} {s : List Char} : Utf8.decode (l.bytes pid (Utf8.encode s)) =
    some (String.ofList (pid.repr.toList ++ [' ', '('] ++ s ++ ')' :: l.tail)) := by
  rw [Utf8.decode_eq_some_iff, String.toList_ofList, bytes]
  simp only [Utf8.encode_append, List.append_assoc]

end StatLine

theorem readText_of_decode {file : ProcFile} {bytes : List UInt8} {text : String}
    (h : Utf8.decode bytes = some text) : readText file (some bytes) =
      .ok (some (String.ofList (universalNewlines text.toList))) := by
  rw [readText, h]

theorem readText_of_not_valid {file : ProcFile} {bytes : List UInt8} (h : ¬ Utf8.Valid bytes) :
    readText file (some bytes) = .error (.unicodeDecode file) := by
  rw [readText, Utf8.decode_eq_none_iff.mpr h]

section

variable {py : PyNumbers} {pid : ℤ} {name : List UInt8}

/-- **A start time is read exactly where the name is text**, and the exception is raised elsewhere. -/
theorem pidStartTime_eq (hpy : py.ReadsFields) (l : StatLine) :
    pidStartTime py pid (some (l.bytes pid name)) =
      if Utf8.Valid name then .ok (some (l.start : ℤ)) else .error (.unicodeDecode (.stat pid)) := by
  unfold pidStartTime
  by_cases hvalid : Utf8.Valid name
  · obtain ⟨s, rfl⟩ := hvalid
    have hclosing : ')' ∉ l.tail := l.not_mem_tail (by decide)
    have hreturn : '\r' ∉ ')' :: l.tail := by
      rw [List.mem_cons, not_or]
      exact ⟨by decide, l.not_mem_tail (by decide)⟩
    -- the ends of lines are translated in front of the closing parenthesis only
    have htext : universalNewlines (pid.repr.toList ++ [' ', '('] ++ s ++ ')' :: l.tail) =
        universalNewlines (pid.repr.toList ++ [' ', '('] ++ s) ++ ')' :: l.tail := by
      rw [universalNewlines_append_cons (by decide), universalNewlines_of_not_mem hreturn]
    have hdrop (front : List Char) : (front ++ ')' :: l.tail).drop (front.length + 2) =
        l.tail.drop 1 := by
      rw [List.drop_append]
      simp
    rw [readText_of_decode l.decode_bytes, String.toList_ofList, htext, if_pos ⟨s, rfl⟩]
    simp only [bind, Except.bind, pure, Except.pure, String.toList_ofList,
      rfind_append_cons hclosing, hdrop, l.split_tail hpy, l.getElem?_fields, Option.bind_some,
      hpy.int l.start l.start_lt]
  · have hbytes : ¬ Utf8.Valid (l.bytes pid name) := by rwa [l.valid_bytes_iff]
    rw [readText_of_not_valid hbytes, if_neg hvalid]
    rfl

/-- With a name that is text the command is read. -/
theorem procCmd_of_valid {h : MonitorHost} (name : List UInt8)
    (hcomm : h.comm pid = none ∨ h.comm pid = some (name ++ [0x0a])) (hvalid : Utf8.Valid name) :
    ∃ cmd, procCmd py h pid = .ok cmd := by
  have hread : ∃ o, readText (.comm pid) (h.comm pid) = .ok o := by
    rcases hcomm with hcomm | hcomm
    · exact ⟨none, by rw [hcomm]; rfl⟩
    · have htext : Utf8.Valid (name ++ [0x0a]) :=
        (Utf8.valid_append_cons_iff (by decide)).mpr ⟨hvalid, ⟨[], rfl⟩⟩
      obtain ⟨text, hdecode⟩ := Utf8.valid_iff.mp htext
      exact ⟨_, by rw [hcomm]; exact readText_of_decode hdecode⟩
  obtain ⟨o, hread⟩ := hread
  unfold procCmd
  rw [hread]
  cases h.cmdline pid with
  | none => exact ⟨none, rfl⟩
  | some raw =>
    dsimp only
    split
    · cases o with
      | none => exact ⟨none, rfl⟩
      | some comm => exact ⟨_, rfl⟩
    · exact ⟨_, rfl⟩

end

/-! ## What is raised -/

/-- A loop that is not cut short, turn by turn. -/
theorem map_eq_of_mapM {ε α β : Type} {f : α → Except ε β} {l : List α} {r : List β}
    (h : l.mapM f = .ok r) : l.map f = r.map .ok := by
  induction l generalizing r with
  | nil =>
      obtain rfl : [] = r := Except.ok.inj h
      rfl
  | cons c l ih =>
      rw [List.mapM_cons] at h
      cases hf : f c with
      | error e =>
          rw [hf] at h
          cases h
      | ok b =>
          cases hl : l.mapM f with
          | error e =>
              rw [hf, hl] at h
              cases h
          | ok bs =>
              rw [hf, hl] at h
              obtain rfl : b :: bs = r := Except.ok.inj h
              rw [List.map_cons, List.map_cons, hf, ih hl]

namespace RaisesAlike

variable {ε α β γ δ : Type} {x : Except ε α} {y : Except ε β}

theorem of_ok {a : α} {b : β} : RaisesAlike (ε := ε) (.ok a) (.ok b) := fun _ => ⟨nofun, nofun⟩

theorem bind (h : RaisesAlike x y) {f : α → Except ε γ} {g : β → Except ε δ}
    (hfg : ∀ a b, x = .ok a → y = .ok b → RaisesAlike (f a) (g b)) :
    RaisesAlike (x >>= f) (y >>= g) := by
  cases x with
  | error e =>
      have hy : y = .error e := (h e).mp rfl
      subst hy
      intro e'
      show (Except.error e : Except ε γ) = .error e' ↔ (Except.error e : Except ε δ) = .error e'
      simp
  | ok a =>
      cases y with
      | error e => exact absurd ((h e).mpr rfl) nofun
      | ok b => exact hfg a b rfl rfl

/-- The same computation in front of two that raise alike. -/
theorem bind_left {f : α → Except ε γ} {g : α → Except ε δ}
    (hfg : ∀ a, x = .ok a → RaisesAlike (f a) (g a)) : RaisesAlike (x >>= f) (x >>= g) :=
  bind (fun _ => Iff.rfl) fun a b ha hb => by
    obtain rfl : a = b := Except.ok.inj (ha.symm.trans hb)
    exact hfg a ha

theorem mapM {l : List γ} {f : γ → Except ε α} {g : γ → Except ε β}
    (h : ∀ c ∈ l, RaisesAlike (f c) (g c)) : RaisesAlike (l.mapM f) (l.mapM g) := by
  induction l with
  | nil => exact of_ok
  | cons c l ih =>
      rw [List.mapM_cons, List.mapM_cons]
      refine bind (h c (by simp)) fun _ _ _ _ => ?_
      exact bind (ih fun c hc => h c (by simp [hc])) fun _ _ _ _ => of_ok

end RaisesAlike

section

variable {py : PyNumbers} {m : Machine} {names : ℤ → List UInt8} {pid : ℤ}

theorem pidStartTime_host (hpy : py.ReadsFields) {line : StatLine} (hline : m.line pid = some line) :
    pidStartTime py pid ((m.host names).stat pid) =
      if Utf8.Valid (names pid) then .ok (some (line.start : ℤ))
      else .error (.unicodeDecode (.stat pid)) := by
  have hstat : (m.host names).stat pid = some (line.bytes pid (names pid)) := by
    simp [Machine.host, hline]
  rw [hstat, pidStartTime_eq hpy]

/-- A process whose name is text is looked up as if it had none. -/
theorem procInfo_raisesAlike (hpy : py.ReadsFields)
    (hvalid : (m.line pid).isSome → Utf8.Valid (names pid)) :
    RaisesAlike (procInfo py (m.host names) pid) (procInfo py m.nameless pid) := by
  have hnone : Utf8.Valid [] := ⟨[], rfl⟩
  have hstart : pidStartTime py pid ((m.host names).stat pid) =
      pidStartTime py pid (m.nameless.stat pid) := by
    cases hline : m.line pid with
    | none => simp [Machine.nameless, Machine.host, hline]
    | some line =>
        rw [Machine.nameless, pidStartTime_host hpy hline, pidStartTime_host hpy hline,
          if_pos (hvalid (by simp [hline])), if_pos hnone]
  have hcmd (names' : ℤ → List UInt8) (hvalid' : (m.line pid).isSome → Utf8.Valid (names' pid)) :
      ∃ cmd, procCmd py (m.host names') pid = .ok cmd := by
    cases hline : m.line pid with
    | none => exact procCmd_of_valid [] (.inl (by simp [Machine.host, hline])) hnone
    | some line =>
        exact procCmd_of_valid _ (.inr (by simp [Machine.host, hline])) (hvalid' (by simp [hline]))
  obtain ⟨cmd, hcmd₁⟩ := hcmd names hvalid
  obtain ⟨cmd', hcmd₂⟩ := hcmd (fun _ => []) fun _ => hnone
  have hstarted : pidStartedAt py (m.host names) pid = pidStartedAt py m.nameless pid := by
    unfold pidStartedAt
    rw [hstart]
    rfl
  unfold procInfo
  rw [hstart, hstarted, hcmd₁]
  unfold Machine.nameless at *
  rw [hcmd₂]
  refine .bind_left fun info _ => ?_
  refine .bind_left fun start _ => ?_
  exact .bind .of_ok fun _ _ _ _ => .bind_left fun started _ => .of_ok

/-- The pids of the listing are listed. -/
theorem mem_listed {vram : Dict ℤ ℤ} (hvram : queryComputeApps py m.files.apps = some vram)
    {e : ℤ × ℤ} (he : e ∈ vram) : e.1 ∈ m.listed py := by
  rw [queryComputeApps_eq] at hvram
  dsimp only at hvram
  split at hvram
  · obtain rfl := Option.some.inj hvram
    obtain ⟨row, hrow, rfl⟩ := List.mem_map.mp (Dict.mem_of_mem_ofRows he)
    exact List.mem_map_of_mem hrow
  · cases hvram

theorem listGpuProcesses_raisesAlike (hpy : py.ReadsFields)
    (hvalid : ∀ pid ∈ m.listed py, (m.line pid).isSome → Utf8.Valid (names pid)) :
    RaisesAlike ((m.host names).listGpuProcesses py) (m.nameless.listGpuProcesses py) := by
  have happs : ∀ names', (m.host names').apps = m.files.apps := fun _ => rfl
  unfold MonitorHost.listGpuProcesses Machine.nameless
  rw [happs, happs]
  cases hvram : queryComputeApps py m.files.apps with
  | none => exact fun _ => Iff.rfl
  | some vram =>
      refine .mapM fun e he => ?_
      exact .bind (procInfo_raisesAlike hpy (hvalid e.1 (mem_listed hvram he))) fun _ _ _ _ => .of_ok

/-- **The names do no harm exactly if those of the listed processes are text.** -/
theorem harmless_iff (hpy : py.ReadsFields) (m : Machine) (names : ℤ → List UInt8) :
    m.Harmless py names ↔
      ∀ pid ∈ m.listed py, (m.line pid).isSome → Utf8.Valid (names pid) := by
  constructor
  · intro h pid hpid halive
    obtain ⟨line, hline⟩ := Option.isSome_iff_exists.mp halive
    have hstart := h.start pid hpid line hline
    rw [pidStartTime_host hpy hline] at hstart
    by_contra hnot
    rw [if_neg hnot] at hstart
    cases hstart
  · intro hvalid
    have hlisting : RaisesAlike ((m.host names).listGpuProcesses py) (m.nameless.listGpuProcesses py) :=
      listGpuProcesses_raisesAlike hpy hvalid
    constructor
    case start =>
      intro pid hpid line hline
      rw [pidStartTime_host hpy hline, if_pos (hvalid pid hpid (by simp [hline]))]
    case listing => exact hlisting
    case heartbeat =>
      intro before after
      refine .bind_left fun _ _ => ?_
      exact .bind hlisting fun _ _ _ _ => .bind_left fun _ _ => .of_ok
    case governor =>
      intro δ evaluate
      have hnone (x : Except MonitorError (List GpuReport)) :
          governorTick evaluate x = none ↔ ∃ e, x = .error e := by
        cases x with
        | error e => exact iff_of_true rfl ⟨e, rfl⟩
        | ok procs => exact iff_of_false nofun nofun
      rw [hnone, hnone]
      exact exists_congr hlisting

/-- **One name that is no text ends the listing**, wherever its process stands in the list. -/
theorem listGpuProcesses_raises (hpy : py.ReadsFields) {vram : Dict ℤ ℤ}
    (hvram : queryComputeApps py m.files.apps = some vram) (hpid : pid ∈ vram.map Prod.fst)
    (halive : (m.line pid).isSome) (hnot : ¬ Utf8.Valid (names pid)) :
    ∃ e, (m.host names).listGpuProcesses py = .error e := by
  obtain ⟨line, hline⟩ := Option.isSome_iff_exists.mp halive
  have hinfo : ∃ e, procInfo py (m.host names) pid = .error e := by
    unfold procInfo
    rw [pidStartTime_host hpy hline, if_neg hnot]
    cases containerInfo py (m.host names) pid with
    | error e => exact ⟨e, rfl⟩
    | ok info => exact ⟨_, rfl⟩
  obtain ⟨e, he, rfl⟩ := List.mem_map.mp hpid
  obtain ⟨err, herr⟩ := hinfo
  have happs : (m.host names).apps = m.files.apps := rfl
  unfold MonitorHost.listGpuProcesses
  rw [happs, hvram]
  cases hlist : vram.mapM (gpuReport py (m.host names)) with
  | error err => exact ⟨err, hlist⟩
  | ok procs =>
      have hall := map_eq_of_mapM hlist
      have hmem : gpuReport py (m.host names) e ∈ procs.map .ok := hall ▸ List.mem_map_of_mem he
      obtain ⟨r, -, hr⟩ := List.mem_map.mp hmem
      unfold gpuReport at hr
      rw [herr] at hr
      cases hr

/-- A listing that is not cut short reports what is looked up of each process. -/
theorem listGpuProcesses_of_ok {h : MonitorHost} {procs : List GpuReport}
    (hok : h.listGpuProcesses py = .ok procs) :
    listGpuProcesses py (fun pid => (procInfo py h pid).toOption.getD {}) h.apps h.pmon =
      some procs := by
  unfold MonitorHost.listGpuProcesses at hok
  unfold listGpuProcesses
  cases hvram : queryComputeApps py h.apps with
  | none =>
      rw [hvram] at hok
      cases hok
  | some vram =>
      rw [hvram] at hok
      have hall : vram.map (gpuReport py h) = procs.map .ok := map_eq_of_mapM hok
      rw [Option.map_some, Option.some.injEq]
      have hok_inj : Function.Injective (Except.ok (ε := MonitorError) (α := GpuReport)) :=
        fun _ _ => Except.ok.inj
      refine List.map_injective_iff.mpr hok_inj ?_
      rw [← hall, List.map_map]
      refine List.map_congr_left fun e he => ?_
      obtain ⟨r, -, hr⟩ := List.mem_map.mp (hall ▸ List.mem_map_of_mem he)
      unfold gpuReport at hr ⊢
      cases hinfo : procInfo py h e.1 with
      | error err =>
          rw [hinfo] at hr
          cases hr
      | ok info => simp [hinfo, Except.toOption, bind, Except.bind, pure, Except.pure]

end

/-! ## One process -/

/-- The numeral of a number is read as the number. -/
theorem digits_repr (n : ℕ) : digits n.repr = some (n : ℤ) := by
  have hfold : ∀ (l : List Char) (k : ℕ), l.all Char.isDigit = true →
      l.foldl (fun n c => n * 10 + (c.toNat - 48 : ℤ)) (k : ℤ) = (Nat.ofDigitChars 10 l k : ℤ) := by
    intro l
    induction l with
    | nil => exact fun k _ => rfl
    | cons c l ih =>
        intro k hl
        rw [List.all_cons, Bool.and_eq_true] at hl
        have hc := Text.range_of_isDigit hl.1
        have hnext : (k : ℤ) * 10 + (c.toNat - 48 : ℤ) = ((10 * k + (c.toNat - '0'.toNat) : ℕ) : ℤ) := by
          have hzero : '0'.toNat = 48 := rfl
          omega
        rw [List.foldl_cons, hnext, ih _ hl.2]
        rfl
  have hall := Toml.all_isDigit n
  have hne : n.repr.isEmpty = false := by simp
  have hvalue : Nat.ofDigitChars 10 n.repr.toList 0 = n := by simp
  rw [digits, hne, hall, Bool.not_false, Bool.and_self, if_pos rfl, Option.some.injEq]
  calc n.repr.toList.foldl (fun n c => n * 10 + (c.toNat - 48 : ℤ)) 0
      = (Nat.ofDigitChars 10 n.repr.toList 0 : ℤ) := hfold _ 0 hall
    _ = n := by rw [hvalue]

theorem decimals_readsFields : decimals.ReadsFields where
  space := by decide
  lineFeed := by decide
  solid c hc := by
    have hrange : 33 ≤ c.toNat ∧ c.toNat ≤ 126 := by
      rcases hc with hc | rfl
      · have halnum := Text.range_of_isAlphanum hc
        omega
      · decide
    have hspace : c ≠ ' ' := by
      rintro rfl
      exact absurd hrange.1 (by decide)
    have hbreak : isLineBreak c = false := by
      refine Bool.eq_false_iff.mpr fun h => ?_
      have hmem := List.contains_iff_mem.mp h
      simp only [List.mem_cons, List.not_mem_nil, or_false] at hmem
      omega
    show (c == ' ' || isLineBreak c) = false
    rw [hbreak, Bool.or_false, beq_eq_false_iff_ne]
    exact hspace
  int n _ := digits_repr n

/-- `R`, 18 zeros, and the start time 4711. -/
def someLine : StatLine where
  state := 'R'
  before := List.replicate 18 0
  start := 4711
  after := [0]
  isAlpha_state := by decide
  length_before := by decide
  start_lt := by decide

/-- A host with one process on its GPU, which is in no container. -/
def oneProcess : Machine where
  files := {
    apps := ⟨true, "7, 100\n"⟩, pmon := ⟨false, ""⟩, cgroup := fun _ => none, status := fun _ => none,
    uidMap := fun _ => none, cmdline := fun _ => none, comm := fun _ => none, stat := fun _ => none,
    bootStat := none, inspect := fun _ => ⟨false, ""⟩, getent := fun _ _ => ⟨false, ""⟩,
    epochMs := fun boot ticks => (boot * 100 + ticks) * 10 }
  line pid := if pid = 7 then some someLine else none
  status _ _ := none

/-- A process that is called `train)` with a line break and an `é` behind. -/
theorem harmless_iff_train :
    oneProcess.Harmless decimals fun _ => [0x74, 0x72, 0x61, 0x69, 0x6e, 0x29, 0x0a, 0xc3, 0xa9] :=
  (harmless_iff decimals_readsFields oneProcess _).mpr fun _ _ _ => by decide +kernel

/-- A process whose name was cut inside its last letter: its `stat` ends the listing, the heartbeat
and the tick, and without the name nothing ends the listing. -/
theorem cut_name_ends_listing :
    let names : ℤ → List UInt8 := fun _ => [0x63, 0x61, 0x66, 0xc3]
    let procs := (oneProcess.host names).listGpuProcesses decimals
    procs = .error (.unicodeDecode (.stat 7)) ∧
      collectHeartbeat (.ok []) procs (.ok []) = .error (.unicodeDecode (.stat 7)) ∧
      governorTick List.length procs = none ∧
      (∃ procs, oneProcess.nameless.listGpuProcesses decimals = .ok procs) ∧
      ¬ oneProcess.Harmless decimals names := by
  refine ⟨by rfl, by rfl, by rfl, ⟨_, rfl⟩, ?_⟩
  intro h
  have hstart := h.start 7 (by decide +kernel) someLine rfl
  cases hstart
end MassDeployment.Agent
