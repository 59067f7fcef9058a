import Mathlib.Data.Rat.Floor

set_option autoImplicit false

/-! # Dynamic values of a JavaScript program

Values that came out of `JSON.parse`, as a program sees them that does not know their type:
what is truthy, what `??`, `.` and `?.` give, where a `TypeError` is thrown, what a prepared
SQL statement accepts as a parameter. A value is an `Option Json`, with `none` for
`undefined`.

Numbers are exact rationals, with the infinities a JSON text can produce by overflow and the
`NaN` that arithmetic produces. The conversions between numbers and strings are not
reproduced digit by digit; they are the fields of `Conversions`.
-/

namespace Js

/-- What a program throws, with the message. -/
inductive Error where
  | error (message : String)
  | typeError (message : String)
  | rangeError (message : String)
  | sqliteError (message : String)
  deriving DecidableEq, Repr

/-- The text of an error, `error.message`. -/
def Error.message : Error → String
  | .error m | .typeError m | .rangeError m | .sqliteError m => m

/-! ## Numbers -/

inductive Number where
  | fin (q : ℚ)
  | inf (negative : Bool)
  | nan
  deriving DecidableEq

namespace Number

instance (n : Nat) : OfNat Number n := ⟨.fin n⟩

instance : Coe Nat Number := ⟨fun n => .fin n⟩

instance : Coe Int Number := ⟨fun n => .fin n⟩

/-- `Number.isFinite`. -/
def isFinite : Number → Bool
  | .fin _ => true
  | _ => false

def isNegative : Number → Bool
  | .fin q => decide (q < 0)
  | .inf s => s
  | .nan => false

/-- `a / b`. -/
def div : Number → Number → Number
  | .nan, _ | _, .nan => .nan
  | .inf _, .inf _ => .nan
  | .fin _, .inf _ => .fin 0
  | .inf s, b => .inf (s != b.isNegative)
  | .fin a, .fin b => if b = 0 then (if a = 0 then .nan else .inf (decide (a < 0))) else .fin (a / b)

/-- `a * b`. -/
def mul : Number → Number → Number
  | .nan, _ | _, .nan => .nan
  | .fin a, .fin b => .fin (a * b)
  | .inf s, .fin b => if b = 0 then .nan else .inf (s != decide (b < 0))
  | .fin a, .inf s => if a = 0 then .nan else .inf (s != decide (a < 0))
  | .inf s, .inf t => .inf (s != t)

/-- `Math.round`: to the nearest integer, halves upwards. -/
def round : Number → Number
  | .fin q => .fin ⌊q + 1 / 2⌋
  | n => n

/-- `Math.trunc`. -/
def trunc : Number → Number
  | .fin q => .fin (if q < 0 then ⌈q⌉ else ⌊q⌋)
  | n => n

/-- `a < b`: false where one side is `NaN`. -/
def lt : Number → Number → Bool
  | .fin a, .fin b => decide (a < b)
  | .fin _, .inf s => !s
  | .inf s, .fin _ => s
  | .inf s, .inf t => s && !t
  | _, _ => false

/-- `a <= b`: false where one side is `NaN`. -/
def le : Number → Number → Bool
  | .fin a, .fin b => decide (a ≤ b)
  | .fin _, .inf s => !s
  | .inf s, .fin _ => s
  | .inf s, .inf t => s || !t
  | _, _ => false

theorem le_refl {n : Number} (h : n ≠ .nan) : n.le n = true := by
  cases n with
  | fin q => exact decide_eq_true le_rfl
  | inf s => cases s <;> rfl
  | nan => exact absurd rfl h

theorem nan_le (n : Number) : le .nan n = false := by cases n <;> rfl

theorem le_trans {a b c : Number} (hab : a.le b = true) (hbc : b.le c = true) :
    a.le c = true := by
  cases a with
  | nan => rw [nan_le] at hab; cases hab
  | fin p =>
      cases b with
      | nan => cases hab
      | fin q =>
          cases c with
          | nan => cases hbc
          | fin r =>
              rw [le, decide_eq_true_iff] at hab hbc ⊢
              exact hab.trans hbc
          | inf t => exact hbc
      | inf s => cases s <;> cases c <;> simp_all [le]
  | inf s =>
      cases b with
      | nan => cases hab
      | fin q => cases s <;> cases c <;> simp_all [le]
      | inf t => cases s <;> cases t <;> cases c <;> simp_all [le]

end Number

/-! ## Values -/

/-- A value `JSON.parse` can return. -/
inductive Json where
  | null
  | bool (b : Bool)
  | num (n : Number)
  | str (s : String)
  | arr (items : List Json)
  | obj (fields : List (String × Json))

instance : Inhabited Json := ⟨.null⟩

/-- A value of the program; `none` is `undefined`. -/
abbrev Value := Option Json

namespace Value

/-- `if (v)`. -/
def truthy : Value → Bool
  | none | some .null => false
  | some (.bool b) => b
  | some (.num n) => n != .fin 0 && n != .nan
  | some (.str s) => s != ""
  | some (.arr _) | some (.obj _) => true

/-- `v ?? w`. -/
def orElse (v w : Value) : Value :=
  match v with
  | none | some .null => w
  | some j => some j

/-- The property `k` of a value that is neither `null` nor `undefined`. -/
def field (k : String) : Json → Value
  | .obj fields => fields.lookup k
  | _ => none

/-- `v.k`. -/
def get (v : Value) (k : String) : Except Error Value :=
  match v with
  | none => .error (.typeError s!"Cannot read properties of undefined (reading '{k}')")
  | some .null => .error (.typeError s!"Cannot read properties of null (reading '{k}')")
  | some j => .ok (field k j)

/-- `v?.k`. -/
def getOpt (v : Value) (k : String) : Value :=
  match v with
  | none | some .null => none
  | some j => field k j

/-- `typeof v === "string"`. -/
def asString : Value → Option String
  | some (.str s) => some s
  | _ => none

/-- `typeof v === "number"`. -/
def asNumber : Value → Option Number
  | some (.num n) => some n
  | _ => none

/-- `v === b`. -/
def isBool (v : Value) (b : Bool) : Bool :=
  match v with
  | some (.bool c) => c == b
  | _ => false

/-- `typeof v === "object"`, for a truthy `v`. -/
def isObject : Value → Bool
  | some (.arr _) | some (.obj _) => true
  | _ => false

/-- Equality of keys in a `Set`: objects are equal to nothing but themselves, and two
objects out of two texts are never the same. -/
def sameValueZero : Value → Value → Bool
  | none, none => true
  | some .null, some .null => true
  | some (.bool a), some (.bool b) => a == b
  | some (.num a), some (.num b) => a == b
  | some (.str a), some (.str b) => a == b
  | _, _ => false

/-- What `for (const x of v)` runs through. -/
def iterate : Value → Except Error (List Json)
  | some (.arr items) => .ok items
  | some (.str s) => .ok (s.toList.map fun c => .str (String.ofList [c]))
  | _ => .error (.typeError "object is not iterable")

end Value

/-- The conversions of the language and of the database between numbers and strings. -/
structure Conversions where
  /-- `Number(s)`. -/
  numberOfString : String → Number
  /-- `String(n)`. -/
  stringOfNumber : Number → String
  /-- The text a number compared with a `TEXT` column is turned into. -/
  columnText : Number → String
  /-- The number a text stored in a numeric column is turned into. -/
  columnNumber : String → Option Number
  /-- The text of an array or object, `JSON.stringify`. -/
  jsonText : Json → String

instance : Inhabited Conversions :=
  ⟨⟨fun _ => .nan, fun _ => "", fun _ => "", fun _ => none, fun _ => ""⟩⟩

mutual

/-- `String(v)`. -/
def toText (c : Conversions) : Json → String
  | .null => "null"
  | .bool b => if b then "true" else "false"
  | .num n => c.stringOfNumber n
  | .str s => s
  | .arr items => joinText c items
  | .obj _ => "[object Object]"

/-- `items.join()`: `null` is written as nothing. -/
def joinText (c : Conversions) : List Json → String
  | [] => ""
  | [.null] => ""
  | [j] => toText c j
  | .null :: rest => "," ++ joinText c rest
  | j :: rest => toText c j ++ "," ++ joinText c rest

end

mutual

/-- The conversion to a string does not throw: no object in the value, nor in an array in it,
has a `toString` of its own, which would hide the inherited one. -/
def hasText : Json → Bool
  | .arr items => itemsHaveText items
  | .obj fields => (fields.lookup "toString").isNone
  | _ => true

def itemsHaveText : List Json → Bool
  | [] => true
  | j :: rest => hasText j && itemsHaveText rest

end

/-- The text of a value in a template literal, where it has one. -/
def Value.toText (c : Conversions) : Value → String
  | none => "undefined"
  | some j => Js.toText c j

/-- `${v}`. -/
def Value.interpolate (c : Conversions) (v : Value) : Except Error String :=
  if v.all hasText then .ok (v.toText c)
  else .error (.typeError "Cannot convert object to primitive value")

/-- `Number(v)`. -/
def Value.toNumber (c : Conversions) : Value → Number
  | none => .nan
  | some .null => 0
  | some (.bool b) => if b then 1 else 0
  | some (.num n) => n
  | some j => c.numberOfString (Js.toText c j)

/-! ## Strings

Lengths and cuts count UTF-16 code units, as the language does. -/

/-- The code units of a character. -/
def units (c : Char) : Nat := if c.val < 0x10000 then 1 else 2

/-- `s.length`. -/
def length (s : String) : Nat := (s.toList.map units).sum

/-- The longest prefix of at most `n` code units. -/
def takeUnits : Nat → List Char → List Char
  | _, [] => []
  | n, c :: cs => if units c ≤ n then c :: takeUnits (n - units c) cs else []

/-- `s.slice(0, n)`; a surrogate pair that would be cut in two is left out. -/
def slice (n : Nat) (s : String) : String := String.ofList (takeUnits n s.toList)

/-! ## JSON text in a column -/

/-- The content of a text column that is meant to hold JSON. -/
inductive JsonText where
  | null
  | malformed
  | text (j : Json)

instance : Inhabited JsonText := ⟨.null⟩

/-- `JSON.stringify(v)`, bound to a column; `undefined` is stored as `NULL`. -/
def stringify : Value → JsonText
  | none => .null
  | some j => .text j

/-- `JSON.parse` of a column that is not `NULL`; `none` where it throws. -/
def JsonText.parse : JsonText → Option Json
  | .text j => some j
  | _ => none

/-! ## Parameters of SQL statements -/

/-- A value bound to a parameter. -/
inductive SqlValue where
  | null
  | text (s : String)
  | number (n : Number)
  deriving DecidableEq

/-- Bind one value. Booleans, arrays and objects are refused; `NaN` is stored as `NULL`. -/
def bindOne : Value → Except Error SqlValue
  | none | some .null | some (.num .nan) => .ok .null
  | some (.num n) => .ok (.number n)
  | some (.str s) => .ok (.text s)
  | _ => .error (.typeError "SQLite3 can only bind numbers, strings, bigints, buffers, and null")

/-- Bind one argument of `run`, `get` or `all`. An array stands for its elements, and an
object for named parameters, of which it may fill none. -/
def bindArg : Value → Except Error (List SqlValue)
  | some (.arr items) => items.mapM fun j => bindOne (some j)
  | some (.obj _) => .ok []
  | v => (bindOne v).map fun x => [x]

/-- An argument that stands for named parameters. -/
def isNamed : Value → Bool
  | some (.obj _) => true
  | _ => false

/-- Bind the arguments of a statement with `n` positional parameters. -/
def bindAll (n : Nat) (args : List Value) : Except Error (List SqlValue) := do
  let bound ← args.mapM bindArg
  let values := bound.flatten
  if 1 < args.countP isNamed then
    .error (.typeError "You cannot specify named parameters in two different objects")
  else if values.length < n then .error (.rangeError "Too few parameter values were provided")
  else if n < values.length then .error (.rangeError "Too many parameter values were provided")
  else .ok values

/-- `column = ?` for a `TEXT` column. -/
def SqlValue.isText (c : Conversions) (column : String) : SqlValue → Bool
  | .null => false
  | .text s => s == column
  | .number n => c.columnText n == column

/-- `json_extract(column, '$.k')`; throws on a text that is not JSON. -/
def jsonExtract (c : Conversions) (column : JsonText) (k : String) : Except Error SqlValue :=
  match column with
  | .null => .ok .null
  | .malformed => .error (.sqliteError "malformed JSON")
  | .text j =>
    .ok (match Value.field k j with
      | none | some .null => .null
      | some (.bool b) => .number (if b then 1 else 0)
      | some (.num n) => .number n
      | some (.str s) => .text s
      | some j => .text (c.jsonText j))

/-- `a = b` between two values of no particular column. -/
def SqlValue.same : SqlValue → SqlValue → Bool
  | .text a, .text b => a == b
  | .number a, .number b => a == b
  | _, _ => false

/-! ## Facts about binding -/

@[simp] theorem bindAll_strings (a b : String) :
    bindAll 2 [some (.str a), some (.str b)] = .ok [.text a, .text b] := rfl

@[simp] theorem bindAll_strings₃ (a b d : String) :
    bindAll 3 [some (.str a), some (.str b), some (.str d)] = .ok [.text a, .text b, .text d] :=
  rfl

/-- The arguments a statement is given, one after the other. -/
theorem bindAll_eq_ok {n : Nat} {args : List Value} {xs : List SqlValue}
    (h : bindAll n args = .ok xs) :
    ∃ bound, args.mapM bindArg = .ok bound ∧ xs = bound.flatten ∧ xs.length = n := by
  unfold bindAll at h
  cases hb : args.mapM bindArg with
  | error e => rw [hb] at h; cases h
  | ok bound =>
      rw [hb] at h
      simp only [bind, Except.bind] at h
      split at h
      · cases h
      · split at h
        · cases h
        · split at h
          · cases h
          · cases h
            exact ⟨bound, rfl, rfl, by omega⟩

end Js
