import Mathlib
import MassDeployment.Agent.Frames
import MassDeployment.Controller.Protocol

set_option autoImplicit false

/-! # What the controller makes of the agent's frames

The agent builds its frames with texts of any length; the controller's schemas bound most of
them, and drop what is longer. A frame arrives as it was meant where its texts are within the
bounds and JSON has its values.
-/

namespace MassDeployment.Agent

open Js

/-- What the controller reads: the text is parsed and validated. -/
def Emission.received (d : Doubles) (e : Emission) : Option InboundFrame :=
  ((PyValue.dict e.frame).parsed d).bind parseInboundFrame

/-! ## Values -/

mutual

/-- JSON has the value, and the reader's numbers are exact on it. -/
def PyValue.Exact (d : Doubles) : PyValue → Prop
  | .none | .bool _ | .str _ => True
  | .num q => d.double q = .fin q
  | .nonFinite => False
  | .list items => ExactItems d items
  | .dict fields => ExactFields d fields

def PyValue.ExactItems (d : Doubles) : List PyValue → Prop
  | [] => True
  | v :: rest => v.Exact d ∧ ExactItems d rest

def PyValue.ExactFields (d : Doubles) : List (String × PyValue) → Prop
  | [] => True
  | (_, v) :: rest => v.Exact d ∧ ExactFields d rest

end

/-! Both readers walk a list in step: they agree on it exactly where they agree on its head and on
its rest. -/

theorem parsedItems_cons (d : Doubles) (v : PyValue) (rest : List PyValue) :
    PyValue.parsedItems d (v :: rest) =
      (v.parsed d).bind fun j => (PyValue.parsedItems d rest).map fun js => j :: js := by
  simp only [PyValue.parsedItems]
  cases v.parsed d <;> cases PyValue.parsedItems d rest <;> rfl

@[simp] theorem parsedFields_nil (d : Doubles) : PyValue.parsedFields d [] = some [] := rfl

theorem parsedFields_cons (d : Doubles) (k : String) (v : PyValue)
    (rest : List (String × PyValue)) :
    PyValue.parsedFields d ((k, v) :: rest) =
      (v.parsed d).bind fun j => (PyValue.parsedFields d rest).map fun js => (k, j) :: js := by
  simp only [PyValue.parsedFields]
  cases v.parsed d <;> cases PyValue.parsedFields d rest <;> rfl

theorem both_some {α β γ : Type} (x x' : Option α) (y y' : Option β) (pair : α → β → γ)
    (hinj : ∀ a a' b b', pair a b = pair a' b' → a = a' ∧ b = b') :
    (∃ c, (x.bind fun a => y.map fun b => pair a b) = some c ∧
      (x'.bind fun a => y'.map fun b => pair a b) = some c) ↔
    (∃ a, x = some a ∧ x' = some a) ∧ ∃ b, y = some b ∧ y' = some b := by
  constructor
  · rintro ⟨c, h, h'⟩
    obtain ⟨a, rfl, hy⟩ := Option.bind_eq_some_iff.mp h
    obtain ⟨a', rfl, hy'⟩ := Option.bind_eq_some_iff.mp h'
    obtain ⟨b, rfl, rfl⟩ := Option.map_eq_some_iff.mp hy
    obtain ⟨b', rfl, heq⟩ := Option.map_eq_some_iff.mp hy'
    obtain ⟨rfl, rfl⟩ := hinj _ _ _ _ heq
    exact ⟨⟨_, rfl, rfl⟩, _, rfl, rfl⟩
  · rintro ⟨⟨a, rfl, rfl⟩, b, rfl, rfl⟩
    exact ⟨pair a b, rfl, rfl⟩

mutual

/-- **A value is read as it was meant** exactly where it is exact. -/
theorem PyValue.parsed_meant (d : Doubles) : (v : PyValue) →
    ((∃ j, v.parsed d = some j ∧ v.meant = some j) ↔ v.Exact d)
  | .none => iff_of_true ⟨_, rfl, rfl⟩ trivial
  | .bool _ => iff_of_true ⟨_, rfl, rfl⟩ trivial
  | .str _ => iff_of_true ⟨_, rfl, rfl⟩ trivial
  | .nonFinite => iff_of_false (fun ⟨_, h, _⟩ => nomatch h) id
  | .num q => by
      constructor
      · rintro ⟨j, h, h'⟩
        have heq : Json.num (d.double q) = .num (.fin q) := Option.some.inj (h.trans h'.symm)
        exact Json.num.inj heq
      · intro h
        refine ⟨.num (.fin q), ?_, rfl⟩
        show some (Json.num (d.double q)) = _
        rw [show d.double q = .fin q from h]
  | .list items => by
      have ih := PyValue.parsedItems_meant d items
      simp only [PyValue.meant, PyValue.parsed, PyValue.Exact, Option.map_eq_some_iff] at ih ⊢
      rw [← ih]
      constructor
      · rintro ⟨j, ⟨js, hjs, rfl⟩, js', hjs', heq⟩
        exact ⟨js, hjs, Json.arr.inj heq ▸ hjs'⟩
      · rintro ⟨js, hjs, hjs'⟩
        exact ⟨.arr js, ⟨js, hjs, rfl⟩, js, hjs', rfl⟩
  | .dict fields => by
      have ih := PyValue.parsedFields_meant d fields
      simp only [PyValue.meant, PyValue.parsed, PyValue.Exact, Option.map_eq_some_iff] at ih ⊢
      rw [← ih]
      constructor
      · rintro ⟨j, ⟨js, hjs, rfl⟩, js', hjs', heq⟩
        exact ⟨js, hjs, Json.obj.inj heq ▸ hjs'⟩
      · rintro ⟨js, hjs, hjs'⟩
        exact ⟨.obj js, ⟨js, hjs, rfl⟩, js, hjs', rfl⟩

theorem PyValue.parsedItems_meant (d : Doubles) : (items : List PyValue) →
    ((∃ js, parsedItems d items = some js ∧ parsedItems .all items = some js) ↔
      ExactItems d items)
  | [] => iff_of_true ⟨_, rfl, rfl⟩ trivial
  | v :: rest => by
      have ihv := PyValue.parsed_meant d v
      have ih := PyValue.parsedItems_meant d rest
      simp only [PyValue.meant, PyValue.ExactItems, parsedItems_cons] at ihv ih ⊢
      rw [← ihv, ← ih]
      exact both_some _ _ _ _ _ (fun _ _ _ _ h => List.cons.inj h)

theorem PyValue.parsedFields_meant (d : Doubles) : (fields : List (String × PyValue)) →
    ((∃ js, parsedFields d fields = some js ∧ parsedFields .all fields = some js) ↔
      ExactFields d fields)
  | [] => iff_of_true ⟨_, rfl, rfl⟩ trivial
  | (k, v) :: rest => by
      have ihv := PyValue.parsed_meant d v
      have ih := PyValue.parsedFields_meant d rest
      simp only [PyValue.meant, PyValue.ExactFields, parsedFields_cons] at ihv ih ⊢
      rw [← ihv, ← ih]
      exact both_some _ _ _ _ _ (fun _ _ _ _ h => by simpa using h)

end

/-! ## Texts and frames -/

/-- An optional text as JSON has it. -/
def textJson : Option String → Json
  | some s => .str s
  | none => .null

@[simp] theorem PyValue.parsed_str (d : Doubles) (s : String) :
    (PyValue.str s).parsed d = some (.str s) := rfl

@[simp] theorem PyValue.parsed_bool (d : Doubles) (b : Bool) :
    (PyValue.bool b).parsed d = some (.bool b) := rfl

@[simp] theorem PyValue.parsed_ofText (d : Doubles) (t : Option String) :
    (PyValue.ofText t).parsed d = some (textJson t) := by
  cases t <;> rfl

@[simp] theorem PyValue.parsed_ofMoment (d : Doubles) (ts : Moment) :
    (PyValue.ofMoment ts).parsed d = some (.num (.fin (ts.val : ℚ))) := by
  show some (Json.num (d.double ((ts.val : ℕ) : ℚ))) = _
  rw [d.exact ts.val ts.property]

@[simp] theorem PyValue.parsed_protocolVersion (d : Doubles) :
    (PyValue.num Agent.protocolVersion).parsed d = some (.num (.fin 2)) := by
  show some (Json.num (d.double (2 : ℚ))) = _
  rw [show (2 : ℚ) = ((2 : ℕ) : ℚ) from rfl, d.exact 2 (by norm_num)]

@[simp] theorem PyValue.parsed_dict (d : Doubles) (fields : List (String × PyValue)) :
    (PyValue.dict fields).parsed d = (parsedFields d fields).map Json.obj := rfl

/-- A text is within the bounds of a schema. -/
def Within (lo hi : Nat) (s : String) : Prop := lo ≤ Js.length s ∧ Js.length s ≤ hi

/-- An optional text is at most `hi` long. -/
def Short (hi : Nat) (t : Option String) : Prop := ∀ s, t = some s → Js.length s ≤ hi

theorem string_eq_some (lo hi : Nat) (s s' : String) :
    Schema.string lo hi (some (.str s)) = some s' ↔ Within lo hi s ∧ s = s' := by
  simp only [Schema.string, Within]
  by_cases h : lo ≤ Js.length s ∧ Js.length s ≤ hi
  · simp [h]
  · simp only [h, if_false, reduceCtorEq, false_and]

theorem nullish_eq_some (hi : Nat) (t t' : Option String) :
    Schema.nullish (Schema.string 0 hi) (some (textJson t)) = some t' ↔ Short hi t ∧ t = t' := by
  cases t with
  | none => simp [textJson, Schema.nullish, Short]
  | some s =>
    by_cases h : Js.length s ≤ hi
    · simp [textJson, Schema.nullish, Short, Schema.string, h]
    · simp [textJson, Schema.nullish, Short, Schema.string, h]

/-! What is read of each frame, and when anything is. -/

theorem received_result (d : Doubles) (id : String) (ok : Bool) (result : PyValue)
    (error logs : Option String) (cached : Bool) (ts : Moment) (f : InboundFrame) :
    ((PyValue.dict (resultFrame id ok result error logs cached ts)).parsed d).bind
        parseInboundFrame = some f ↔
      Within 1 64 id ∧ Short 20000 error ∧ Short 20000 logs ∧ ∃ j, result.parsed d = some j ∧
        f = .result ⟨id, ok, some j, error, logs, some cached⟩ := by
  cases hresult : result.parsed d with
  | none => simp [resultFrame, parsedFields_cons, hresult]
  | some j =>
    simp [resultFrame, parsedFields_cons, hresult, parseInboundFrame, parseResult, Schema.record,
      Value.field, List.lookup, Schema.optional, Schema.finite, Schema.boolean,
      Option.bind_eq_some_iff, string_eq_some, nullish_eq_some]
    exact fun _ _ _ => eq_comm

theorem received_receipt (d : Doubles) (id : String) (ts : Moment) (f : InboundFrame) :
    ((PyValue.dict (receiptFrame id ts)).parsed d).bind parseInboundFrame = some f ↔
      Within 1 64 id ∧ f = .receipt id := by
  simp [receiptFrame, parsedFields_cons, parseInboundFrame, Schema.record, Value.field,
    List.lookup, Schema.optional, Schema.finite, string_eq_some]
  exact fun _ => eq_comm

theorem received_hello (d : Doubles) (node token : String)
    (capabilities : List (String × PyValue)) (ts : Moment) (f : InboundFrame) :
    ((PyValue.dict (helloFrame node token capabilities ts)).parsed d).bind
        parseInboundFrame = some f ↔
      Within 1 63 node ∧ Within 1 512 token ∧
        ∃ j, (PyValue.dict capabilities).parsed d = some j ∧
          f = .hello ⟨some 2, node, token, some j⟩ := by
  cases hfields : PyValue.parsedFields d capabilities with
  | none => simp [helloFrame, parsedFields_cons, hfields]
  | some fields =>
    simp [helloFrame, parsedFields_cons, hfields, parseInboundFrame, parseHello, Schema.record,
      Value.field, List.lookup, Schema.optional, Schema.finite, Schema.natural,
      Option.bind_eq_some_iff, string_eq_some]
    rw [and_iff_right (by norm_num : (2 : ℚ) ≤ 9007199254740991), eq_comm (a := f)]

theorem received_log (d : Doubles) (node level source msg : String)
    (lab user taskId detail : Option String) (ts : Moment) (f : InboundFrame) :
    ((PyValue.dict (logFrame node level source msg lab user taskId detail ts)).parsed d).bind
        parseInboundFrame = some f ↔
      Within 0 16 level ∧ Short 64 (some source) ∧ Short 64 lab ∧ Short 64 user ∧
        Short 64 taskId ∧ Within 0 20000 msg ∧ Short 20000 detail ∧
        f = .log ⟨some level, some source, lab, user, taskId, some msg, detail,
          some (ts.val : ℚ)⟩ := by
  have hsource := nullish_eq_some 64 (some source)
  simp only [textJson] at hsource
  simp [logFrame, parsedFields_cons, parseInboundFrame, parseLog, Schema.record,
    Value.field, List.lookup, Schema.optional, Schema.finite,
    Option.bind_eq_some_iff, string_eq_some, nullish_eq_some, hsource]
  exact fun _ _ _ _ _ _ _ => eq_comm

theorem received_event (d : Doubles) (node kind : String) (payload : List (String × PyValue))
    (ts : Moment) (f : InboundFrame) :
    ((PyValue.dict (eventFrame node kind payload ts)).parsed d).bind parseInboundFrame = some f ↔
      Within 0 32 kind ∧ ∃ j, (PyValue.dict payload).parsed d = some j ∧
        f = .event ⟨kind, some j, some (ts.val : ℚ)⟩ := by
  cases hfields : PyValue.parsedFields d payload with
  | none => simp [eventFrame, parsedFields_cons, hfields]
  | some fields =>
    simp [eventFrame, parsedFields_cons, hfields, parseInboundFrame, parseEvent, Schema.record,
      Value.field, List.lookup, Schema.optional, Schema.finite,
      Option.bind_eq_some_iff, string_eq_some]
    exact fun _ => eq_comm

theorem received_telemetry (d : Doubles) (node : String) (payload : List (String × PyValue))
    (ts : Moment) (f : InboundFrame) :
    ((PyValue.dict (telemetryFrame node payload ts)).parsed d).bind parseInboundFrame = some f ↔
      ∃ j, (PyValue.dict payload).parsed d = some j ∧ f = .telemetry (some j) := by
  cases hfields : PyValue.parsedFields d payload with
  | none => simp [telemetryFrame, parsedFields_cons, hfields]
  | some fields =>
    simp [telemetryFrame, parsedFields_cons, hfields, parseInboundFrame, Schema.record,
      Value.field, List.lookup, Schema.optional, Schema.finite]
    exact eq_comm

/-! ## Preservation -/

/-- What a task came to, as its result frame says it. -/
structure Report where
  ok : Bool
  result : PyValue
  error : Option String
  logs : Option String

def Outcome.report : Outcome → Report
  | .returned result logs => ⟨true, result, none, orNone logs⟩
  | .raised exc traceback => ⟨false, .none, some exc, some traceback⟩

/-- The report of a task; an action without a handler has one too. -/
def report (handlers : String → Option (PyValue → Outcome)) (task : Task) : Report :=
  match handlers task.action with
  | none => let action := task.action; ⟨false, .none, some s!"unknown action '{action}'", none⟩
  | some handler => (handler task.params).report

theorem handle_eq_resultFrame (handlers : String → Option (PyValue → Outcome)) (task : Task)
    (ts : Moment) :
    let r := report handlers task
    handle handlers task ts = resultFrame task.id r.ok r.result r.error r.logs false ts := by
  unfold handle report
  cases handlers task.action with
  | none => rfl
  | some handler =>
    dsimp only
    cases handler task.params <;> rfl

theorem asCached_resultFrame (id : String) (ok : Bool) (result : PyValue)
    (error logs : Option String) (ts : Moment) :
    asCached (resultFrame id ok result error logs false ts) =
      resultFrame id ok result error logs true ts := by
  simp [asCached, resultFrame]

/-- The frame the agent meant to send. -/
def Emission.intended : Emission → Option InboundFrame
  | .handled handlers task replayed _ =>
    let r := report handlers task
    r.result.meant.map fun j => .result ⟨task.id, r.ok, some j, r.error, r.logs, some replayed⟩
  | .receipt taskId _ => some (.receipt taskId)
  | .hello node token capabilities _ =>
    (PyValue.dict capabilities).meant.map fun j => .hello ⟨some 2, node, token, some j⟩
  | .log _ level source msg lab user taskId detail ts =>
    some (.log ⟨some level.text, some source, lab, user, taskId, some msg, detail,
      some (ts.val : ℚ)⟩)
  | .event _ kind payload ts =>
    (PyValue.dict payload).meant.map fun j => .event ⟨kind, some j, some (ts.val : ℚ)⟩
  | .telemetry _ payload _ => (PyValue.dict payload).meant.map fun j => .telemetry (some j)

/-- What a handler did fits into a result frame. -/
def Outcome.Fits (d : Doubles) : Outcome → Prop
  | .returned result logs => result.Exact d ∧ Js.length logs ≤ 20000
  | .raised exc traceback => Js.length exc ≤ 20000 ∧ Js.length traceback ≤ 20000

/-- **The texts are within the controller's bounds**, and its JSON has the values. -/
def Emission.Fits (d : Doubles) : Emission → Prop
  | .handled handlers task _ _ =>
    Within 1 64 task.id ∧
      match handlers task.action with
      | none => let action := task.action; Js.length s!"unknown action '{action}'" ≤ 20000
      | some handler => (handler task.params).Fits d
  | .receipt taskId _ => Within 1 64 taskId
  | .hello node token capabilities _ =>
    Within 1 63 node ∧ Within 1 512 token ∧ (PyValue.dict capabilities).Exact d
  | .log _ _ source msg lab user taskId detail _ =>
    Js.length source ≤ 64 ∧ Short 64 lab ∧ Short 64 user ∧ Short 64 taskId ∧
      Js.length msg ≤ 20000 ∧ Short 20000 detail
  | .event _ kind payload _ => Js.length kind ≤ 32 ∧ (PyValue.dict payload).Exact d
  | .telemetry _ payload _ => (PyValue.dict payload).Exact d

@[simp] theorem short_none (hi : Nat) : Short hi none ↔ True := by simp [Short]

@[simp] theorem short_some (hi : Nat) (s : String) : Short hi (some s) ↔ Js.length s ≤ hi := by
  simp [Short]

@[simp] theorem within_zero (hi : Nat) (s : String) : Within 0 hi s ↔ Js.length s ≤ hi := by
  simp [Within]

theorem short_orNone (hi : Nat) (text : String) : Short hi (orNone text) ↔ Js.length text ≤ hi := by
  unfold orNone
  split
  next h =>
    subst h
    simp [Js.length]
  next => exact short_some hi text

theorem Outcome.fits_iff (d : Doubles) (o : Outcome) :
    o.Fits d ↔ Short 20000 o.report.error ∧ Short 20000 o.report.logs ∧ o.report.result.Exact d := by
  cases o with
  | returned result logs => simp [Outcome.Fits, Outcome.report, short_orNone, and_comm]
  | raised exc traceback => simp [Outcome.Fits, Outcome.report, PyValue.Exact]

theorem report_fits (d : Doubles) (handlers : String → Option (PyValue → Outcome)) (task : Task)
    (replayed : Bool) (ts : Moment) :
    (Emission.handled handlers task replayed ts).Fits d ↔
      Within 1 64 task.id ∧ Short 20000 (report handlers task).error ∧
        Short 20000 (report handlers task).logs ∧ (report handlers task).result.Exact d := by
  simp only [Emission.Fits, report]
  cases handlers task.action with
  | none => simp [PyValue.Exact]
  | some handler => simp [Outcome.fits_iff]

/-- Where the rest of a frame arrives as it is, it is its value that decides. -/
theorem arrives_iff {d : Doubles} {v : PyValue} {received intended : Option InboundFrame}
    {texts : Prop} {g : Json → InboundFrame} (hinj : ∀ j j', g j = g j' → j = j')
    (hreceived : ∀ f, received = some f ↔ texts ∧ ∃ j, v.parsed d = some j ∧ f = g j)
    (hintended : intended = v.meant.map g) :
    (∃ f, received = some f ∧ intended = some f) ↔ texts ∧ v.Exact d := by
  subst hintended
  rw [← v.parsed_meant d]
  constructor
  · rintro ⟨f, hf, hmeant⟩
    obtain ⟨htexts, j, hj, rfl⟩ := (hreceived f).mp hf
    obtain ⟨j', hj', heq⟩ := Option.map_eq_some_iff.mp hmeant
    exact ⟨htexts, j, hj, hinj j' j heq ▸ hj'⟩
  · rintro ⟨htexts, j, hj, hmeant⟩
    exact ⟨g j, (hreceived _).mpr ⟨htexts, j, hj, rfl⟩, by rw [hmeant]; rfl⟩

/-- **A frame of the agent reaches the controller as it was meant exactly where it fits.** -/
theorem arrives_intact_iff (d : Doubles) (e : Emission) :
    (∃ f, e.received d = some f ∧ e.intended = some f) ↔ e.Fits d := by
  cases e with
  | handled handlers task replayed ts =>
    have hframe : (Emission.handled handlers task replayed ts).frame =
        resultFrame task.id (report handlers task).ok (report handlers task).result
          (report handlers task).error (report handlers task).logs replayed ts := by
      simp only [Emission.frame, handle_eq_resultFrame]
      cases replayed
      · rfl
      · exact asCached_resultFrame ..
    rw [report_fits, ← and_assoc, ← and_assoc]
    refine arrives_iff (g := fun j => .result ⟨task.id, _, some j, _, _, some replayed⟩)
      (by simp) (fun f => ?_) rfl
    rw [Emission.received, hframe, received_result, and_assoc, and_assoc]
  | receipt taskId ts =>
    simp only [Emission.received, Emission.frame, received_receipt, Emission.intended,
      Emission.Fits]
    constructor
    · rintro ⟨f, ⟨h, -⟩, -⟩
      exact h
    · intro h
      exact ⟨_, ⟨h, rfl⟩, rfl⟩
  | hello node token capabilities ts =>
    simp only [Emission.Fits]
    rw [← and_assoc]
    refine arrives_iff (g := fun j => .hello ⟨some 2, node, token, some j⟩)
      (by simp) (fun f => ?_) rfl
    rw [Emission.received, Emission.frame, received_hello, and_assoc]
  | log node level source msg lab user taskId detail ts =>
    have hlevel : Js.length level.text ≤ 16 := by cases level <;> decide
    simp only [Emission.received, Emission.frame, received_log, Emission.intended, Emission.Fits,
      within_zero, short_some]
    constructor
    · rintro ⟨f, ⟨-, hsource, hlab, huser, htask, hmsg, hdetail, -⟩, -⟩
      exact ⟨hsource, hlab, huser, htask, hmsg, hdetail⟩
    · rintro ⟨hsource, hlab, huser, htask, hmsg, hdetail⟩
      exact ⟨_, ⟨hlevel, hsource, hlab, huser, htask, hmsg, hdetail, rfl⟩, rfl⟩
  | event node kind payload ts =>
    simp only [Emission.Fits, ← within_zero]
    refine arrives_iff (g := fun j => .event ⟨kind, some j, some (ts.val : ℚ)⟩)
      (by simp) (fun f => ?_) rfl
    rw [Emission.received, Emission.frame, received_event]
  | telemetry node payload ts =>
    simp only [Emission.Fits]
    rw [← true_and ((PyValue.dict payload).Exact d)]
    refine arrives_iff (g := fun j => .telemetry (some j)) (by simp) (fun f => ?_) rfl
    rw [Emission.received, Emission.frame, received_telemetry, true_and]

theorem length_replicate (n : Nat) {c : Char} (hc : Js.units c = 1) :
    Js.length (String.ofList (List.replicate n c)) = n := by
  simp [Js.length, hc]

/-- A handler that did its work and wrote `logs` about it. -/
def verboseHandlers (logs : String) (_ : String) : Option (PyValue → Outcome) :=
  some fun _ => .returned (.dict [("repaired", .bool true)]) logs

def repairTask : Task :=
  ⟨"3f0c6f0e-6d1b-4b7e-9a53-0c7c5d0c1f6a", "node.repair", .dict [], none, .num 0⟩

theorem report_verbose (logs : String) :
    (report (verboseHandlers logs) repairTask).logs = orNone logs := rfl

/-- **The result of a completed task can be dropped**: with more logs than the schema takes, its
frame is none of the controller's. -/
theorem verbose_result_dropped :
    (Emission.handled (verboseHandlers (String.ofList (List.replicate 20001 'x'))) repairTask false
      ⟨0, by norm_num⟩).received .all = none := by
  rw [Option.eq_none_iff_forall_ne_some]
  intro f hf
  simp only [Emission.received, Emission.frame, handle_eq_resultFrame, Bool.false_eq_true,
    if_false, received_result, report_verbose, short_orNone, @length_replicate 20001 'x' rfl] at hf
  have hlong : (20001 : ℕ) ≤ 20000 := hf.2.2.1
  omega

end MassDeployment.Agent
