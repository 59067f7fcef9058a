import Mathlib.Data.List.Basic
import Mathlib.Tactic.Common
import Mathlib.Tactic.IntervalCases

set_option autoImplicit false

/-! # Flat TOML documents

A document that is one table with a line `key = value` for each of its keys. It is read character by
character; what goes beyond such documents is left to another reader, and what no TOML reader
accepts is refused.
-/

namespace Toml

/-- A value; floats, times, arrays and tables by a text that stands for them. -/
inductive Value where
  | str (s : String)
  | int (n : Int)
  | bool (b : Bool)
  | other (text : String)
  deriving DecidableEq

/-- The items of a table, in the order of the lines. -/
abbrev Items := List (String × Value)

/-- What `int` and `str` convert at most. -/
def maxDigits : Nat := 4300

/-- The control characters but the tab have no place in a string. -/
def illegal (c : Char) : Bool := (c.toNat < 0x20 || c.toNat == 0x7f) && c != '\t'

def isBareKeyChar (c : Char) : Bool := c.isAlphanum || c == '_' || c == '-'

/-- The character of a short escape. -/
def escaped : Char → Option Char
  | 'b' => some (Char.ofNat 8)
  | 't' => some '\t'
  | 'n' => some '\n'
  | 'f' => some (Char.ofNat 12)
  | 'r' => some '\r'
  | '"' => some '"'
  | '\\' => some '\\'
  | _ => none

/-- Where a reader is in its line. -/
inductive At where
  /-- The rest of the line of the table's name. -/
  | header (rest : List Char)
  | key (acc : List Char)
  /-- The rest of what stands between key and value. -/
  | equals (key : String) (rest : List Char)
  | value (key : String)
  | bare (key : String) (acc : List Char)
  /-- Behind the first quotation mark. -/
  | quote (key : String)
  | str (key : String) (acc : List Char)
  | escape (key : String) (acc : List Char)
  | behind (key : String) (v : Value)
  | invalid
  | beyond
  deriving DecidableEq

structure Reader where
  items : Items
  place : At

/-- An item is read; a key is not given twice. -/
def Reader.add (r : Reader) (key : String) (v : Value) : Reader :=
  if (r.items.map Prod.fst).contains key then { r with place := .invalid }
  else ⟨r.items ++ [(key, v)], .key []⟩

/-- A decimal number without leading zeros. -/
def isDecimal (cs : List Char) : Bool :=
  cs.all Char.isDigit && cs != [] && (cs.head? != some '0' || cs.length == 1)

/-- `true`, `false` or a decimal integer. -/
def bareValue (cs : List Char) : Option Value :=
  if cs = "true".toList then some (.bool true)
  else if cs = "false".toList then some (.bool false)
  else match cs with
    | '-' :: ds => if isDecimal ds then some (.int (-(Nat.ofDigitChars 10 ds 0))) else none
    | ds => if isDecimal ds then some (.int (Nat.ofDigitChars 10 ds 0)) else none

def Reader.step (r : Reader) (c : Char) : Reader :=
  match r.place with
  | .header [] => { r with place := .beyond }
  | .header (d :: rest) =>
    if c = d then { r with place := if rest = [] then .key [] else .header rest }
    else { r with place := .beyond }
  | .key acc =>
    if isBareKeyChar c then { r with place := .key (acc ++ [c]) }
    else if acc = [] then if c = '\n' then r else { r with place := .beyond }
    else if c = ' ' then { r with place := .equals (String.ofList acc) ['=', ' '] }
    else { r with place := .beyond }
  | .equals _ [] => { r with place := .beyond }
  | .equals key (d :: rest) =>
    if c = d then { r with place := if rest = [] then .value key else .equals key rest }
    else { r with place := .beyond }
  | .value key => { r with place := if c = '"' then .quote key else .bare key [c] }
  | .bare key acc =>
    if c = '\n' then
      match bareValue acc with
      | some v =>
        if (acc.filter Char.isDigit).length ≤ maxDigits then r.add key v
        else { r with place := .invalid }
      | none => { r with place := .beyond }
    else { r with place := .bare key (acc ++ [c]) }
  | .quote key =>
    if c = '"' then { r with place := .behind key (.str "") }
    else if c = '\\' then { r with place := .escape key [] }
    else { r with place := if illegal c then .invalid else .str key [c] }
  | .str key acc =>
    if c = '"' then { r with place := .behind key (.str (String.ofList acc)) }
    else if c = '\\' then { r with place := .escape key acc }
    else { r with place := if illegal c then .invalid else .str key (acc ++ [c]) }
  | .escape key acc =>
    match escaped c with
    | some d => { r with place := .str key (acc ++ [d]) }
    | none => { r with place := .beyond }
  | .behind key v => if c = '\n' then r.add key v else { r with place := .beyond }
  | .invalid | .beyond => r

def Reader.run (r : Reader) (cs : List Char) : Reader := cs.foldl Reader.step r

variable {ε : Type}

/-- Read a document with a table of this name, or leave it to the reader of other documents. -/
def read (header : String) (refuse : ε) (beyond : String → Except ε Items) (text : String) :
    Except ε Items :=
  let r := Reader.run ⟨[], .header (header.toList ++ ['\n'])⟩ text.toList
  match r.place with
  | .key [] => .ok r.items
  | .invalid | .quote _ | .str _ _ | .escape _ _ => .error refuse
  | _ => beyond text

/-! ## Writing -/

/-- The escapes of a string that has no control characters. -/
def escape (cs : List Char) : List Char :=
  cs.flatMap fun c => if c = '\\' ∨ c = '"' then ['\\', c] else [c]

def Value.write : Value → List Char
  | .str s => '"' :: escape s.toList ++ ['"']
  | .int n => n.repr.toList
  | .bool b => if b then "true".toList else "false".toList
  | .other text => text.toList

def line (item : String × Value) : List Char :=
  item.1.toList ++ " = ".toList ++ item.2.write ++ ['\n']

/-- The string has no control characters but tabs. -/
def Value.legal : Value → Bool
  | .str s => s.toList.all fun c => !illegal c
  | _ => true

/-- What the lines of a document can hold. -/
def Value.Plain : Value → Prop
  | .int n => (n.natAbs.repr.toList).length ≤ maxDigits
  | .other _ => False
  | _ => True

/-- A key that is written without quotation marks. -/
def BareKey (key : String) : Prop := key ≠ "" ∧ key.toList.all isBareKeyChar = true

/-! ## Reading what was written -/

theorem run_append (r : Reader) (cs ds : List Char) :
    r.run (cs ++ ds) = (r.run cs).run ds := List.foldl_append

theorem run_cons (r : Reader) (c : Char) (cs : List Char) :
    r.run (c :: cs) = (r.step c).run cs := rfl

theorem run_invalid (items : Items) (cs : List Char) :
    Reader.run ⟨items, .invalid⟩ cs = ⟨items, .invalid⟩ := by
  induction cs with
  | nil => rfl
  | cons c cs ih => exact ih

section

variable (items : Items) (key : String)

theorem run_header (rest : List Char) (h : rest ≠ []) :
    Reader.run ⟨items, .header rest⟩ rest = ⟨items, .key []⟩ := by
  induction rest with
  | nil => exact absurd rfl h
  | cons c rest ih =>
      rw [run_cons]
      have hstep : Reader.step ⟨items, .header (c :: rest)⟩ c =
          ⟨items, if rest = [] then .key [] else .header rest⟩ := if_pos rfl
      rw [hstep]
      by_cases hrest : rest = []
      · rw [if_pos hrest, hrest]
        rfl
      · rw [if_neg hrest]
        exact ih hrest

theorem run_key (acc cs : List Char) (h : cs.all isBareKeyChar = true) :
    Reader.run ⟨items, .key acc⟩ cs = ⟨items, .key (acc ++ cs)⟩ := by
  induction cs generalizing acc with
  | nil =>
      rw [List.append_nil]
      rfl
  | cons c cs ih =>
      rw [List.all_cons, Bool.and_eq_true] at h
      have hstep : Reader.step ⟨items, .key acc⟩ c = ⟨items, .key (acc ++ [c])⟩ := if_pos h.1
      rw [run_cons, hstep, ih _ h.2, List.append_assoc]
      rfl

/-- The key of a line, and what stands behind it. -/
theorem run_bareKey (hkey : BareKey key) :
    Reader.run ⟨items, .key []⟩ (key.toList ++ " = ".toList) = ⟨items, .value key⟩ := by
  rw [run_append, run_key items [] _ hkey.2, List.nil_append]
  have hne : key.toList ≠ [] := fun h => hkey.1 (String.toList_injective h)
  have hstep : Reader.step ⟨items, .key key.toList⟩ ' ' =
      ⟨items, .equals (String.ofList key.toList) ['=', ' ']⟩ := by
    unfold Reader.step
    dsimp only
    rw [if_neg (by decide), if_neg hne, if_pos rfl]
  have hequals : " = ".toList = ' ' :: ['=', ' '] := rfl
  rw [hequals, run_cons, hstep, String.ofList_toList]
  rfl

/-- A character of a string that is open. -/
theorem run_char (acc : List Char) (c : Char) (h : illegal c = false) :
    Reader.run ⟨items, .str key acc⟩ (escape [c]) = ⟨items, .str key (acc ++ [c])⟩ := by
  by_cases hspecial : c = '\\' ∨ c = '"'
  · rcases hspecial with rfl | rfl <;> rfl
  · have hesc : escape [c] = [c] := by simp [escape, hspecial]
    obtain ⟨hback, hquote⟩ := not_or.mp hspecial
    rw [hesc, run_cons]
    show Reader.step ⟨items, .str key acc⟩ c = _
    show (if c = '"' then _ else if c = '\\' then _ else _) = _
    rw [if_neg hquote, if_neg hback, if_neg (by simp [h])]

theorem run_escape (acc cs : List Char) (h : cs.all (fun c => !illegal c) = true) :
    Reader.run ⟨items, .str key acc⟩ (escape cs) = ⟨items, .str key (acc ++ cs)⟩ := by
  induction cs generalizing acc with
  | nil =>
      rw [List.append_nil]
      rfl
  | cons c cs ih =>
      rw [List.all_cons, Bool.and_eq_true] at h
      have hescape : escape (c :: cs) = escape [c] ++ escape cs := by
        simp only [escape, List.flatMap_cons, List.flatMap_nil, List.append_nil]
      rw [hescape, run_append, run_char items key acc c (by simpa using h.1), ih _ h.2,
        List.append_assoc]
      rfl

theorem run_illegal (acc cs rest : List Char) (h : cs.all (fun c => !illegal c) = false) :
    Reader.run ⟨items, .str key acc⟩ (escape cs ++ rest) = ⟨items, .invalid⟩ := by
  induction cs generalizing acc with
  | nil => cases h
  | cons c cs ih =>
      have hescape : escape (c :: cs) = escape [c] ++ escape cs := by
        simp only [escape, List.flatMap_cons, List.flatMap_nil, List.append_nil]
      rw [hescape, List.append_assoc, run_append]
      by_cases hc : illegal c = true
      · have hesc : escape [c] = [c] := by
          have hspecial : ¬ (c = '\\' ∨ c = '"') := by
            rintro (rfl | rfl) <;> exact absurd hc (by decide)
          simp [escape, hspecial]
        have hstep : Reader.step ⟨items, .str key acc⟩ c = ⟨items, .invalid⟩ := by
          show (if c = '"' then _ else if c = '\\' then _ else _) = _
          rw [if_neg (by rintro rfl; exact absurd hc (by decide)),
            if_neg (by rintro rfl; exact absurd hc (by decide)), if_pos hc]
        rw [hesc, run_cons, hstep]
        exact run_invalid items _
      · rw [run_char items key acc c (Bool.not_eq_true _ ▸ hc)]
        refine ih _ ?_
        simpa [hc] using h

/-- The first character of a string is read like the others. -/
theorem run_quote (c : Char) (cs : List Char) :
    Reader.run ⟨items, .quote key⟩ (escape (c :: cs)) =
      Reader.run ⟨items, .str key []⟩ (escape (c :: cs)) := by
  have hescape : escape (c :: cs) = escape [c] ++ escape cs := by
    simp only [escape, List.flatMap_cons, List.flatMap_nil, List.append_nil]
  rw [hescape, run_append, run_append]
  congr 1
  by_cases hspecial : c = '\\' ∨ c = '"'
  · rcases hspecial with rfl | rfl <;> rfl
  · have hesc : escape [c] = [c] := by simp [escape, hspecial]
    obtain ⟨hback, hquote⟩ := not_or.mp hspecial
    rw [hesc]
    show Reader.step ⟨items, .quote key⟩ c = Reader.step ⟨items, .str key []⟩ c
    show (if c = '"' then _ else if c = '\\' then _ else _) =
      (if c = '"' then _ else if c = '\\' then _ else _)
    rw [if_neg hquote, if_neg hback, if_neg hquote, if_neg hback]
    rfl

/-- A string is read back, and refused if it has a control character. -/
theorem run_string (s : String) (rest : List Char) :
    Reader.run ⟨items, .value key⟩ ((Value.str s).write ++ '\n' :: rest) =
      if (Value.str s).legal then
        (Reader.add ⟨items, .behind key (.str s)⟩ key (.str s)).run rest
      else ⟨items, .invalid⟩ := by
  have hwrite : (Value.str s).write ++ '\n' :: rest =
      '"' :: (escape s.toList ++ '"' :: '\n' :: rest) := by
    simp [Value.write]
  rw [hwrite, run_cons]
  show Reader.run ⟨items, .quote key⟩ _ = _
  cases hchars : s.toList with
  | nil =>
      have hs : s = "" := String.toList_injective hchars
      rw [if_pos (by rw [hs]; rfl), hs]
      rfl
  | cons c cs =>
      rw [run_append, run_quote, ← run_append]
      by_cases hlegal : (Value.str s).legal = true
      · have hall : (c :: cs).all (fun c => !illegal c) = true := by
          rw [← hchars]
          exact hlegal
        rw [if_pos hlegal, run_append, run_escape items key [] _ hall, List.nil_append, ← hchars]
        show Reader.run ⟨items, .behind key (.str (String.ofList s.toList))⟩ _ = _
        rw [String.ofList_toList]
        rfl
      · rw [if_neg hlegal]
        refine run_illegal items key [] _ _ ?_
        rw [← hchars]
        exact Bool.eq_false_iff.mpr hlegal

theorem run_bare (acc cs : List Char) (h : '\n' ∉ cs) :
    Reader.run ⟨items, .bare key acc⟩ cs = ⟨items, .bare key (acc ++ cs)⟩ := by
  induction cs generalizing acc with
  | nil =>
      rw [List.append_nil]
      rfl
  | cons c cs ih =>
      obtain ⟨hc, hcs⟩ := not_or.mp (mt List.mem_cons.mpr h)
      have hstep : Reader.step ⟨items, .bare key acc⟩ c = ⟨items, .bare key (acc ++ [c])⟩ :=
        if_neg (Ne.symm hc)
      rw [run_cons, hstep, ih _ hcs, List.append_assoc]
      rfl

/-- A value without quotation marks is read back. -/
theorem run_bareValue (c : Char) (cs rest : List Char) (v : Value) (hc : c ≠ '"')
    (hline : '\n' ∉ cs) (hvalue : bareValue (c :: cs) = some v)
    (hdigits : ((c :: cs).filter Char.isDigit).length ≤ maxDigits) :
    Reader.run ⟨items, .value key⟩ (c :: cs ++ '\n' :: rest) =
      (Reader.add ⟨items, .bare key (c :: cs)⟩ key v).run rest := by
  have hfirst : Reader.step ⟨items, .value key⟩ c = ⟨items, .bare key [c]⟩ := by
    show Reader.mk items (if c = '"' then _ else _) = _
    rw [if_neg hc]
  have hlast : Reader.step ⟨items, .bare key (c :: cs)⟩ '\n' =
      Reader.add ⟨items, .bare key (c :: cs)⟩ key v := by
    unfold Reader.step
    dsimp only
    rw [if_pos rfl, hvalue]
    exact if_pos hdigits
  rw [List.cons_append, run_cons, hfirst, run_append, run_bare items key [c] cs hline]
  exact congrArg (Reader.run · rest) hlast

end

theorem all_isDigit (n : Nat) : n.repr.toList.all Char.isDigit = true := by
  rw [Nat.toList_repr, List.all_eq_true]
  exact fun c hc => Nat.isDigit_of_mem_toDigits (by decide) (by decide) hc

/-- A numeral begins with a zero only for zero. -/
theorem head_repr (n : Nat) (hn : 0 < n) : n.repr.toList.head? ≠ some '0' := by
  rw [Nat.toList_repr]
  induction n using Nat.strong_induction_on with
  | _ n ih =>
      by_cases hlt : n < 10
      · rw [Nat.toDigits_of_lt_base hlt]
        interval_cases n <;> decide
      · rw [Nat.toDigits_of_base_le (by decide) (not_lt.mp hlt), List.head?_append]
        have hfirst := ih (n / 10) (by omega) (by omega)
        cases hhead : (Nat.toDigits 10 (n / 10)).head? with
        | none => exact absurd (List.head?_eq_none_iff.mp hhead) Nat.toDigits_ne_nil
        | some d =>
            rw [hhead] at hfirst
            exact hfirst

theorem isDecimal_repr (n : Nat) : isDecimal n.repr.toList = true := by
  have hne : n.repr.toList ≠ [] := by
    rw [Nat.toList_repr]
    exact Nat.toDigits_ne_nil
  rcases Nat.eq_zero_or_pos n with rfl | hn
  · decide
  · have hzero : (n.repr.toList.head? != some '0') = true := bne_iff_ne.mpr (head_repr n hn)
    unfold isDecimal
    rw [all_isDigit, bne_iff_ne.mpr hne, hzero]
    rfl

theorem bareValue_int (n : Int) : bareValue n.repr.toList = some (.int n) := by
  have hword : ∀ (w : List Char) (m : Nat), w.all Char.isDigit = false → m.repr.toList ≠ w := by
    rintro w m hdigit rfl
    rw [all_isDigit m] at hdigit
    cases hdigit
  cases n with
  | ofNat n =>
      show bareValue n.repr.toList = _
      unfold bareValue
      rw [if_neg (hword _ n (by decide)), if_neg (hword _ n (by decide))]
      split
      · rename_i ds heq
        exact absurd heq (hword _ n rfl)
      · rw [if_pos (isDecimal_repr n), Nat.toList_repr, Nat.ofDigitChars_ten_toDigits]
        rfl
  | negSucc n =>
      have hrepr : (Int.negSucc n).repr.toList = '-' :: (n + 1).repr.toList := by
        simp [Int.repr]
      rw [hrepr]
      unfold bareValue
      rw [if_neg (by simp), if_neg (by simp)]
      show (if isDecimal (n + 1).repr.toList = true then _ else _) = _
      rw [if_pos (isDecimal_repr _), Nat.toList_repr, Nat.ofDigitChars_ten_toDigits]
      rfl

theorem filter_isDigit (n : Int) : n.repr.toList.filter Char.isDigit = n.natAbs.repr.toList := by
  have hall : ∀ m : Nat, m.repr.toList.filter Char.isDigit = m.repr.toList := fun m =>
    List.filter_eq_self.mpr (List.all_eq_true.mp (all_isDigit m))
  cases n with
  | ofNat m => exact hall m
  | negSucc m =>
      have hrepr : (Int.negSucc m).repr.toList = '-' :: (m + 1).repr.toList := by
        simp [Int.repr]
      rw [hrepr]
      exact hall (m + 1)

theorem repr_chars {n : Int} {c : Char} (h : c ∈ n.repr.toList) : c = '-' ∨ c.isDigit = true := by
  have hdigit : ∀ m : Nat, c ∈ m.repr.toList → c.isDigit = true := fun m =>
    List.all_eq_true.mp (all_isDigit m) c
  cases n with
  | ofNat m => exact .inr (hdigit m h)
  | negSucc m =>
      have hrepr : (Int.negSucc m).repr.toList = '-' :: (m + 1).repr.toList := by
        simp [Int.repr]
      rw [hrepr] at h
      rcases List.mem_cons.mp h with rfl | h
      · exact .inl rfl
      · exact .inr (hdigit _ h)

/-! ## Documents -/

theorem Reader.add_fresh {r : Reader} {key : String} (h : key ∉ r.items.map Prod.fst) (v : Value) :
    r.add key v = ⟨r.items ++ [(key, v)], .key []⟩ :=
  if_neg fun hmem => h (List.contains_iff_mem.mp hmem)

/-- One line is one item, or the end of the reading. -/
theorem run_line {items : Items} {item : String × Value} (hkey : BareKey item.1)
    (hfresh : item.1 ∉ items.map Prod.fst) (hplain : item.2.Plain) (rest : List Char) :
    Reader.run ⟨items, .key []⟩ (line item ++ rest) =
      if item.2.legal then Reader.run ⟨items ++ [item], .key []⟩ rest else ⟨items, .invalid⟩ := by
  obtain ⟨key, v⟩ := item
  have hline : line (key, v) ++ rest =
      (key.toList ++ " = ".toList) ++ (v.write ++ '\n' :: rest) := by
    simp [line]
  rw [hline, run_append, run_bareKey items key hkey]
  have hbare : ∀ c cs, v.write = c :: cs → c ≠ '"' → '\n' ∉ cs → bareValue v.write = some v →
      (v.write.filter Char.isDigit).length ≤ maxDigits →
      Reader.run ⟨items, .value key⟩ (v.write ++ '\n' :: rest) =
        Reader.run ⟨items ++ [(key, v)], .key []⟩ rest := by
    intro c cs hwrite hc hcs hvalue hdigits
    rw [hwrite] at hvalue hdigits ⊢
    rw [run_bareValue items key c cs rest v hc hcs hvalue hdigits, Reader.add_fresh hfresh]
  cases v with
  | str s =>
      rw [run_string, Reader.add_fresh hfresh]
  | bool b =>
      have hlegal : (Value.bool b).legal = true := rfl
      rw [if_pos hlegal]
      cases b
      · exact hbare 'f' ['a', 'l', 's', 'e'] rfl (by decide) (by decide) (by decide) (by decide)
      · exact hbare 't' ['r', 'u', 'e'] rfl (by decide) (by decide) (by decide) (by decide)
  | int n =>
      have hlegal : (Value.int n).legal = true := rfl
      rw [if_pos hlegal]
      have hother : ∀ c ∈ n.repr.toList, c ≠ '"' ∧ c ≠ '\n' := by
        intro c hc
        rcases repr_chars hc with rfl | hdigit
        · decide
        · constructor <;> (rintro rfl; exact absurd hdigit (by decide))
      cases hwrite : n.repr.toList with
      | nil =>
          have hnone := bareValue_int n
          rw [hwrite] at hnone
          cases hnone
      | cons c cs =>
          rw [hwrite] at hother
          refine hbare c cs hwrite (hother c List.mem_cons_self).1 (fun hmem => ?_)
            (bareValue_int n) ?_
          · exact (hother _ (List.mem_cons_of_mem _ hmem)).2 rfl
          · show (n.repr.toList.filter Char.isDigit).length ≤ maxDigits
            rw [filter_isDigit]
            exact hplain
  | other text => exact hplain.elim

/-- Lines joined by line feeds, with one at the end. -/
theorem toList_join {l : List String} (h : l ≠ []) : (String.intercalate "\n" l ++ "\n").toList =
    l.flatMap fun t => t.toList ++ ['\n'] := by
  induction l with
  | nil => exact absurd rfl h
  | cons t l ih =>
      cases l with
      | nil =>
          rw [String.intercalate_singleton, String.toList_append, List.flatMap_cons,
            List.flatMap_nil, List.append_nil]
          rfl
      | cons u l =>
          rw [String.intercalate_cons_cons, List.flatMap_cons, ← ih (by simp)]
          simp only [String.toList_append, List.append_assoc]
          rfl

theorem run_lines {ws items : Items} (hkeys : ∀ w ∈ ws, BareKey w.1)
    (hplain : ∀ w ∈ ws, w.2.Plain) (hnodup : ((items ++ ws).map Prod.fst).Nodup) :
    Reader.run ⟨items, .key []⟩ (ws.flatMap line) =
      if ws.all fun w => w.2.legal then ⟨items ++ ws, .key []⟩
      else Reader.run ⟨items ++ ws.takeWhile fun w => w.2.legal, .invalid⟩ [] := by
  induction ws generalizing items with
  | nil =>
      rw [List.append_nil]
      rfl
  | cons w ws ih =>
      have hfresh : w.1 ∉ items.map Prod.fst := by
        rw [List.map_append, List.map_cons] at hnodup
        intro hmem
        exact (List.nodup_append.mp hnodup).2.2 _ hmem _ List.mem_cons_self rfl
      rw [List.flatMap_cons, run_line (hkeys w List.mem_cons_self) hfresh
        (hplain w List.mem_cons_self), List.all_cons, List.takeWhile_cons]
      by_cases hlegal : w.2.legal = true
      · have hnodup' : ((items ++ [w] ++ ws).map Prod.fst).Nodup := by
          rwa [List.append_assoc]
        rw [if_pos hlegal, hlegal, Bool.true_and, ih (fun w' hw' => hkeys w' (.tail _ hw'))
          (fun w' hw' => hplain w' (.tail _ hw')) hnodup', List.append_assoc, List.append_assoc]
        rfl
      · have hfalse : w.2.legal = false := Bool.eq_false_iff.mpr hlegal
        rw [if_neg hlegal, hfalse, Bool.false_and, if_neg (by decide), if_neg (by decide),
          List.append_nil]
        rfl

/-- **Reading what was written.** A document of lines is read back, unless a string in it has a
control character. -/
theorem read_lines {ε : Type} {header text : String} {ws : Items} (hkeys : ∀ w ∈ ws, BareKey w.1)
    (hplain : ∀ w ∈ ws, w.2.Plain) (hnodup : (ws.map Prod.fst).Nodup)
    (htext : text.toList = (header.toList ++ ['\n']) ++ ws.flatMap line) (refuse : ε)
    (beyond : String → Except ε Items) :
    read header refuse beyond text =
      if ws.all fun w => w.2.legal then .ok ws else .error refuse := by
  unfold read
  rw [htext, run_append, run_header [] _ (List.append_ne_nil_of_right_ne_nil _ (by simp)),
    run_lines hkeys hplain (by rwa [List.nil_append])]
  by_cases hlegal : (ws.all fun w => w.2.legal) = true
  · rw [if_pos hlegal, if_pos hlegal]
    rfl
  · rw [if_neg hlegal, if_neg hlegal]
    rfl

end Toml
