import MassDeployment.Lib.JsValue

set_option autoImplicit false

/-! # Wire frames of the agent hub (`protocol.ts`)

The schemas every inbound frame is parsed with before it can touch the database. Unknown
keys are stripped; a frame that matches no schema is dropped.
-/

namespace MassDeployment

open Js

def protocolVersion : ℚ := 2

structure HelloFrame where
  v : Option ℚ
  node : String
  token : String
  capabilities : Option Json

structure ResultFrame where
  id : String
  ok : Bool
  result : Value
  error : Option String
  logs : Option String
  cached : Option Bool

structure LogFrame where
  level : Option String
  source : Option String
  lab : Option String
  user : Option String
  taskId : Option String
  msg : Option String
  detail : Option String
  ts : Option ℚ

structure EventFrame where
  kind : String
  payload : Option Json
  ts : Option ℚ

inductive InboundFrame where
  | hello (frame : HelloFrame)
  | result (frame : ResultFrame)
  | receipt (id : String)
  | log (frame : LogFrame)
  | event (frame : EventFrame)
  | telemetry (payload : Option Json)

/-! ## Field schemas

A schema returns the parsed field, or `none` where it rejects the value. -/

namespace Schema

/-- `z.string().min(lo).max(hi)`. -/
def string (lo hi : Nat) : Value → Option String
  | some (.str s) => if lo ≤ Js.length s ∧ Js.length s ≤ hi then some s else none
  | _ => none

/-- `.optional()`. -/
def optional {α : Type} (schema : Value → Option α) : Value → Option (Option α)
  | none => some none
  | v => (schema v).map some

/-- `.nullish()`. -/
def nullish {α : Type} (schema : Value → Option α) : Value → Option (Option α)
  | none | some .null => some none
  | v => (schema v).map some

/-- `z.number().finite()`. -/
def finite : Value → Option ℚ
  | some (.num (.fin q)) => some q
  | _ => none

/-- `z.number().int().nonnegative()`. -/
def natural (v : Value) : Option ℚ :=
  (finite v).bind fun q => if q.den = 1 ∧ 0 ≤ q ∧ q ≤ 9007199254740991 then some q else none

def boolean : Value → Option Bool
  | some (.bool b) => some b
  | _ => none

/-- `z.record(z.string(), z.unknown())`. -/
def record : Value → Option Json
  | some (.obj fields) => some (.obj fields)
  | _ => none

end Schema

open Schema

def parseHello (f : String → Value) : Option HelloFrame := do
  return {
    v := ← optional natural (f "v")
    node := ← string 1 63 (f "node")
    token := ← string 1 512 (f "token")
    capabilities := ← optional record (f "capabilities") }

def parseResult (f : String → Value) : Option ResultFrame := do
  return {
    id := ← string 1 64 (f "id")
    ok := ← boolean (f "ok")
    result := f "result"
    error := ← nullish (string 0 20000) (f "error")
    logs := ← nullish (string 0 20000) (f "logs")
    cached := ← optional boolean (f "cached") }

def parseLog (f : String → Value) : Option LogFrame := do
  return {
    level := ← optional (string 0 16) (f "level")
    source := ← nullish (string 0 64) (f "source")
    lab := ← nullish (string 0 64) (f "lab")
    user := ← nullish (string 0 64) (f "user")
    taskId := ← nullish (string 0 64) (f "task_id")
    msg := ← optional (string 0 20000) (f "msg")
    detail := ← nullish (string 0 20000) (f "detail")
    ts := ← optional finite (f "ts") }

def parseEvent (f : String → Value) : Option EventFrame := do
  return {
    kind := ← string 0 32 (f "kind")
    payload := ← optional record (f "payload")
    ts := ← optional finite (f "ts") }

/-- Validate a parsed JSON frame; `none` if it matches no known schema. -/
def parseInboundFrame (raw : Json) : Option InboundFrame := do
  let fields ← record (some raw)
  let f := fun k => Value.field k fields
  let _ ← optional finite (f "ts")
  match f "type" with
  | some (.str "hello") => (parseHello f).map .hello
  | some (.str "result") => (parseResult f).map .result
  | some (.str "receipt") => (string 1 64 (f "id")).map .receipt
  | some (.str "log") => (parseLog f).map .log
  | some (.str "event") => (parseEvent f).map .event
  | some (.str "telemetry") => (optional record (f "payload")).map .telemetry
  | _ => none

/-- Exactly the current protocol version is accepted. -/
def isProtocolCompatible (v : Option ℚ) : Bool := v.getD 0 == protocolVersion

end MassDeployment
