import MassDeployment.Agent.Frames

set_option autoImplicit false

/-! # The pools of a heartbeat (`telemetry.py`)

The agent asks `zpool list` for the pools it owns, one query for each, and reports those that
answered. A report is a list in the order of the queries.
-/

namespace MassDeployment.Agent

open Js

/-- The text functions of the language the parsing of an answer uses. -/
structure PyText where
  /-- `c.isspace()`. -/
  isSpace : Char → Bool
  /-- `int(text)`; `none` where it raises. -/
  int : String → Option ℤ

/-- What a command answers. -/
structure CommandResult where
  ok : Bool
  stdout : String

/-- The pools of the agent's configuration. -/
structure PoolConfig where
  fastPool : String
  slowPool : String
  /-- `slow_is_zfs`: the cold storage is a pool of this node, not an SMB mount. -/
  slowIsZfs : Bool

structure PoolInfo where
  name : String
  size : ℤ
  alloc : ℤ
  free : ℤ
  deriving DecidableEq

namespace PyText

variable (py : PyText)

/-- `text.split()`, with the letters of the word so far. -/
def splitFrom : List Char → List Char → List String
  | word, [] => flush word
  | word, c :: cs =>
    if py.isSpace c then flush word ++ splitFrom [] cs else splitFrom (word ++ [c]) cs
where
  flush (word : List Char) : List String :=
    if word.isEmpty then [] else [String.ofList word]

def split (text : String) : List String := py.splitFrom [] text.toList

/-- `text.strip()` is not empty. -/
def hasText (text : String) : Bool := text.toList.any fun c => !py.isSpace c

/-- `int(text)`. -/
def toInt (text : String) : Except String ℤ :=
  match py.int text with
  | some n => .ok n
  | none => .error s!"invalid literal for int() with base 10: '{text}'"

/-- `_pool_free`: the figures of a pool; without them where the query failed or said nothing. -/
def poolFree (zpoolList : String → CommandResult) (pool : String) :
    Except String (Option PoolInfo) :=
  let res := zpoolList pool
  if !res.ok || !py.hasText res.stdout then .ok none
  else
    match py.split res.stdout with
    | name :: size :: alloc :: free :: _ => do
      let size ← py.toInt size
      let alloc ← py.toInt alloc
      let free ← py.toInt free
      return some ⟨name, size, alloc, free⟩
    | _ => .ok none

/-- The pools this node owns, fast first. -/
def zfsPools (cfg : PoolConfig) : List String :=
  [cfg.fastPool] ++ if cfg.slowIsZfs then [cfg.slowPool] else []

/-- `_pools`. -/
def pools (zpoolList : String → CommandResult) (cfg : PoolConfig) : Except String (List PoolInfo) := do
  let infos ← (zfsPools cfg).mapM (py.poolFree zpoolList)
  return infos.filterMap id

/-- What the two queries of a heartbeat found; the slow pool is not asked for where it is not
this node's. -/
def queried (zpoolList : String → CommandResult) (cfg : PoolConfig) :
    Except String (Option PoolInfo × Option PoolInfo) := do
  let fast ← py.poolFree zpoolList cfg.fastPool
  let slow ← if cfg.slowIsZfs then py.poolFree zpoolList cfg.slowPool else .ok none
  return (fast, slow)

/-- A report has the pools that answered, one after the other. -/
theorem pools_eq (zpoolList : String → CommandResult) (cfg : PoolConfig) :
    py.pools zpoolList cfg =
      (py.queried zpoolList cfg).map fun found => found.1.toList ++ found.2.toList := by
  unfold pools queried zfsPools
  cases hf : py.poolFree zpoolList cfg.fastPool with
  | error e => simp [hf, bind, Except.bind, Except.map]
  | ok fast =>
      cases hz : cfg.slowIsZfs with
      | false => cases fast <;> simp [hf, bind, Except.bind, Except.map, pure, Except.pure]
      | true =>
          cases hs : py.poolFree zpoolList cfg.slowPool with
          | error e => simp [hf, hs, bind, Except.bind, Except.map]
          | ok slow =>
              cases fast <;> cases slow <;>
                simp [hf, hs, bind, Except.bind, Except.map, pure, Except.pure]

end PyText

/-- One entry of the report. -/
def PoolInfo.toDict (p : PoolInfo) : PyValue :=
  .dict [("name", .str p.name), ("size", .num p.size), ("alloc", .num p.alloc),
    ("free", .num p.free)]

/-- `collect_heartbeat`, with what the other collectors found. -/
def heartbeat (pools : List PoolInfo) (others : List (String × PyValue)) : List (String × PyValue) :=
  ("pools", .list (pools.map PoolInfo.toDict)) :: others

/-- What the agent sends where collecting the heartbeat raised (`_heartbeat`): the message alone. -/
def heartbeatFailed (e : String) : List (String × PyValue) := [("error", .str e)]

/-- The payload of a heartbeat, with what the other collectors found. -/
def heartbeatPayload (py : PyText) (zpoolList : String → CommandResult) (cfg : PoolConfig)
    (others : List (String × PyValue)) : List (String × PyValue) :=
  match py.pools zpoolList cfg with
  | .ok pools => heartbeat pools others
  | .error e => heartbeatFailed e

/-! ## The report as a reader has it -/

/-- An entry of the report as a reader has it. -/
def PoolInfo.json (d : Doubles) (p : PoolInfo) : Json :=
  .obj [("name", .str p.name), ("size", .num (d.double p.size)), ("alloc", .num (d.double p.alloc)),
    ("free", .num (d.double p.free))]

theorem PoolInfo.parsed (d : Doubles) (p : PoolInfo) : p.toDict.parsed d = some (p.json d) := by
  simp [toDict, json, PyValue.parsed, PyValue.parsedFields]

theorem parsedItems_pools (d : Doubles) (pools : List PoolInfo) :
    PyValue.parsedItems d (pools.map PoolInfo.toDict) = some (pools.map (PoolInfo.json d)) := by
  induction pools with
  | nil => rfl
  | cons p pools ih => simp [PyValue.parsedItems, PoolInfo.parsed, ih]

/-- The reader of a heartbeat has the pools under `pools`. -/
theorem heartbeat_pools {d : Doubles} {pools : List PoolInfo} {others : List (String × PyValue)}
    {fields : List (String × Json)} (h : PyValue.parsedFields d (heartbeat pools others) = some fields) :
    fields.lookup "pools" = some (.arr (pools.map (PoolInfo.json d))) := by
  simp only [heartbeat, PyValue.parsedFields, PyValue.parsed, parsedItems_pools, Option.map_some,
    Option.bind_eq_bind, Option.bind_some, Option.bind_eq_some_iff] at h
  obtain ⟨js, -, hjs⟩ := h
  cases hjs
  rfl

end MassDeployment.Agent
