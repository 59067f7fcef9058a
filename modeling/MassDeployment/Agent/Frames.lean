import MassDeployment.Lib.JsValue

set_option autoImplicit false

/-! # The frames of the agent (`protocol.py`, `dispatcher.py`, `logbus.py`)

What the agent sends up the socket, as it builds it: dictionaries that are written as JSON text
by one language and read back by another. Numbers are exact on the agent's side; the reader has
doubles.
-/

namespace MassDeployment.Agent

open Js

/-! ## Values and their text -/

/-- A value `json.dumps` writes. -/
inductive PyValue where
  | none
  | bool (b : Bool)
  | num (q : ℚ)
  /-- `nan` and the infinities, which `json.dumps` writes as no JSON has them. -/
  | nonFinite
  | str (s : String)
  | list (items : List PyValue)
  | dict (fields : List (String × PyValue))

/-- The numbers of the reader: the one a decimal text stands for, which is exact for small
integers. -/
structure Doubles where
  double : ℚ → Number
  exact : ∀ n : ℕ, n ≤ 2 ^ 53 → double n = .fin n

/-- A moment in milliseconds, within the integers every reader has. -/
abbrev Moment := { ms : ℕ // ms ≤ 2 ^ 53 }

mutual

/-- `JSON.parse` of the text `json.dumps` writes for a value; `none` where it throws. -/
def PyValue.parsed (d : Doubles) : PyValue → Option Json
  | .none => some .null
  | .bool b => some (.bool b)
  | .num q => some (.num (d.double q))
  | .nonFinite => Option.none
  | .str s => some (.str s)
  | .list items => (parsedItems d items).map .arr
  | .dict fields => (parsedFields d fields).map .obj

def PyValue.parsedItems (d : Doubles) : List PyValue → Option (List Json)
  | [] => some []
  | v :: rest => do
    let j ← v.parsed d
    let js ← parsedItems d rest
    return j :: js

def PyValue.parsedFields (d : Doubles) : List (String × PyValue) → Option (List (String × Json))
  | [] => some []
  | (k, v) :: rest => do
    let j ← v.parsed d
    let js ← parsedFields d rest
    return (k, j) :: js

end

/-- The reader that has every number. -/
def Doubles.all : Doubles := ⟨.fin, fun _ _ => rfl⟩

/-- A value as the reader should have it, if JSON has it at all. -/
def PyValue.meant (v : PyValue) : Option Json := v.parsed .all

/-- A text, or `None`. -/
def PyValue.ofText : Option String → PyValue
  | some s => .str s
  | Option.none => .none

def PyValue.ofMoment (ts : Moment) : PyValue := .num (ts.val : ℚ)

/-! ## Frame builders -/

def protocolVersion : ℚ := 2

/-- `result_frame`. -/
def resultFrame (taskId : String) (ok : Bool) (result : PyValue) (error logs : Option String)
    (cached : Bool) (ts : Moment) : List (String × PyValue) :=
  [("type", .str "result"), ("id", .str taskId), ("ok", .bool ok), ("result", result),
    ("error", .ofText error), ("logs", .ofText logs), ("cached", .bool cached),
    ("ts", .ofMoment ts)]

/-- `receipt_frame`. -/
def receiptFrame (taskId : String) (ts : Moment) : List (String × PyValue) :=
  [("type", .str "receipt"), ("id", .str taskId), ("ts", .ofMoment ts)]

/-- `hello_frame`. -/
def helloFrame (node token : String) (capabilities : List (String × PyValue)) (ts : Moment) :
    List (String × PyValue) :=
  [("type", .str "hello"), ("v", .num protocolVersion), ("node", .str node), ("token", .str token),
    ("capabilities", .dict capabilities), ("ts", .ofMoment ts)]

/-- `log_frame`. -/
def logFrame (node level source msg : String) (lab user taskId detail : Option String)
    (ts : Moment) : List (String × PyValue) :=
  [("type", .str "log"), ("node", .str node), ("level", .str level), ("source", .str source),
    ("lab", .ofText lab), ("user", .ofText user), ("task_id", .ofText taskId), ("msg", .str msg),
    ("detail", .ofText detail), ("ts", .ofMoment ts)]

/-- `event_frame`. -/
def eventFrame (node kind : String) (payload : List (String × PyValue)) (ts : Moment) :
    List (String × PyValue) :=
  [("type", .str "event"), ("node", .str node), ("kind", .str kind), ("payload", .dict payload),
    ("ts", .ofMoment ts)]

/-- `telemetry_frame`. -/
def telemetryFrame (node : String) (payload : List (String × PyValue)) (ts : Moment) :
    List (String × PyValue) :=
  [("type", .str "telemetry"), ("node", .str node), ("payload", .dict payload),
    ("ts", .ofMoment ts)]

/-! ## Task dispatch -/

/-- `Task`. -/
structure Task where
  id : String
  action : String
  params : PyValue
  requestedBy : Option String
  ts : PyValue

/-- What a handler does: it returns a result and its logs, or raises; the traceback is the text
`format_exc` makes of what it raised. -/
inductive Outcome where
  | returned (result : PyValue) (logs : String)
  | raised (exc traceback : String)

/-- `logs or None`. -/
def orNone (text : String) : Option String := if text = "" then none else some text

/-- `Dispatcher.handle`: route a task action to its handler and always return a structured
result. -/
def handle (handlers : String → Option (PyValue → Outcome)) (task : Task) (ts : Moment) :
    List (String × PyValue) :=
  match handlers task.action with
  | none =>
    let action := task.action
    resultFrame task.id false .none (some s!"unknown action '{action}'") none false ts
  | some handler =>
    match handler task.params with
    | .returned result logs => resultFrame task.id true result none (orNone logs) false ts
    | .raised exc traceback => resultFrame task.id false .none (some exc) (some traceback) false ts

/-- `{**frame, "cached": True}`, for a frame that has the key. -/
def asCached (frame : List (String × PyValue)) : List (String × PyValue) :=
  frame.map fun kv => if kv.1 = "cached" then (kv.1, .bool true) else kv

/-! ## What the agent emits -/

/-- The levels of the log bus. -/
inductive Level where
  | debug | info | warn | error

def Level.text : Level → String
  | .debug => "DEBUG"
  | .info => "INFO"
  | .warn => "WARN"
  | .error => "ERROR"

/-- Everything the agent puts into its outbox, and the hello it sends first. -/
inductive Emission where
  /-- The result of a task, fresh or replayed from the journal. -/
  | handled (handlers : String → Option (PyValue → Outcome)) (task : Task) (replayed : Bool)
      (ts : Moment)
  | receipt (taskId : String) (ts : Moment)
  | hello (node token : String) (capabilities : List (String × PyValue)) (ts : Moment)
  | log (node : String) (level : Level) (source msg : String) (lab user taskId detail : Option String)
      (ts : Moment)
  | event (node kind : String) (payload : List (String × PyValue)) (ts : Moment)
  | telemetry (node : String) (payload : List (String × PyValue)) (ts : Moment)

def Emission.frame : Emission → List (String × PyValue)
  | .handled handlers task replayed ts =>
    let result := handle handlers task ts
    if replayed then asCached result else result
  | .receipt taskId ts => receiptFrame taskId ts
  | .hello node token capabilities ts => helloFrame node token capabilities ts
  | .log node level source msg lab user taskId detail ts =>
    logFrame node level.text source msg lab user taskId detail ts
  | .event node kind payload ts => eventFrame node kind payload ts
  | .telemetry node payload ts => telemetryFrame node payload ts

end MassDeployment.Agent
