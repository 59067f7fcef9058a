import MassDeployment.Controller.Schema
import MassDeployment.Lib.DurableQueue
import MassDeployment.Lib.Prog

set_option autoImplicit false

/-! # The controller's state and the programs over it

`Controller` is what the controller process and its two databases hold: the authoritative
database, the per-node task queues, the settings, the in-memory rate-limit maps, the
continuations of `async` functions that are waiting at an `await`, and two records of what
has left the process: the tasks ever issued, and a trace of results accepted and mail handed
to the mailer.

The functions of the controller are `Op`s: programs that write this state and may throw.
`Controller.Evolves` is their arrow of time. Because it is part of the type, it holds of
every function of the controller without a proof about that function: keys are never
reused, a task row only moves forward, every task gets a task id that was never drawn
before, and the trace only grows.
-/

namespace MassDeployment

open Js

/-! ## What the controller is given from outside -/

/-- The platform: sources of randomness, cryptography and the string functions of the
language. The `n`-th random draw of a run is argument `n`. -/
structure Host where
  /-- `randomUUID()`. -/
  uuid : Nat → String
  uuid_injective : ∀ i j, uuid i = uuid j → i = j
  /-- `generatePassword()`. -/
  password : Nat → String
  /-- `generateNodeToken()`. -/
  token : Nat → String
  /-- `nodeTokenHash(name, token)`. -/
  nodeTokenHash : String → String → String
  /-- `encryptSecret(plain)`, with the nonce drawn for it. -/
  encryptSecret : Nat → String → String
  decryptSecret : String → String
  decrypt_encrypt : ∀ i plain, decryptSecret (encryptSecret i plain) = plain
  /-- `s.trim()`. -/
  trim : String → String
  /-- `s.toLowerCase()`. -/
  toLowerCase : String → String
  conversions : Conversions

/-- A platform without secrets, for runs on fixed inputs: the draws are numbered in unary, and
encryption is the identity. -/
def Host.plain : Host where
  uuid n := String.ofList (List.replicate n 'u')
  uuid_injective i j h := by
    have h := congrArg String.toList h
    simpa using congrArg List.length h
  password n := String.ofList (List.replicate n 'p')
  token n := String.ofList (List.replicate n 't')
  nodeTokenHash _ token := token
  encryptSecret _ plain := plain
  decryptSecret stored := stored
  decrypt_encrypt _ _ := rfl
  trim s := s
  toLowerCase s := s
  conversions := default

/-- The operational settings the modelled code reads. -/
structure Settings where
  alertsEnabled : Bool := true
  alertLevel : String := "ERROR"
  alertDedupMinutes : Nat := 15
  nodeOfflineGraceSeconds : Nat := 60
  quotaAlertPct : Number := 90
  studentQuotaAlertsEnabled : Bool := true
  studentQuotaAlertPct : Number := 50
  studentQuotaNotifyAdmins : Bool := false
  scrubEnabled : Bool := false
  scrubIntervalDays : Number := 30
  scrubHour : Number := 2
  scrubTimezone : String := "UTC"

/-! ## Tasks -/

/-- The parameters of a task: the fields of a JSON object. -/
abbrev Params := List (String × Json)

structure TaskFrame where
  id : String
  action : Action
  params : Params
  requestedBy : Option String
  ts : Nat

/-- The string parameter `k` of a task. -/
def TaskFrame.param (t : TaskFrame) (k : String) : Option String :=
  Value.asString (t.params.lookup k)

/-- The payload of a queued job: a frame sealed with the current key, or one that no longer
decrypts or parses. -/
inductive Payload where
  | sealed (frame : TaskFrame)
  | unreadable (message : String)

/-! ## Redaction -/

/-- `pat` occurs in the text. -/
def occursIn (pat : List Char) : List Char → Bool
  | [] => pat.isEmpty
  | c :: cs => pat.isPrefixOf (c :: cs) || occursIn pat cs

/-- `SECRET_KEY_RE = /pass|token|secret|key/i`. -/
def secretKey (k : String) : Bool :=
  let text := k.toList.map Char.toLower
  ["pass", "token", "secret", "key"].any fun pat => occursIn pat.toList text

def redacted : Json := .str "••••••"

mutual

/-- A deep copy with the values of credential-looking keys masked. -/
def redactSecrets : Json → Json
  | .arr items => .arr (redactItems items)
  | .obj fields => .obj (redactFields fields)
  | j => j

def redactItems : List Json → List Json
  | [] => []
  | j :: rest => redactSecrets j :: redactItems rest

def redactFields : List (String × Json) → List (String × Json)
  | [] => []
  | (k, v) :: rest =>
    -- an assignment to `__proto__` makes no field
    if k = "__proto__" then redactFields rest
    else (k, if secretKey k then redacted else redactSecrets v) :: redactFields rest

end

/-- Redaction looks a key up in the redacted object as the redaction of what it found. -/
theorem lookup_redactFields {k : String} (hk : k ≠ "__proto__") (fields : List (String × Json)) :
    (redactFields fields).lookup k =
      (fields.lookup k).map fun v => if secretKey k then redacted else redactSecrets v := by
  induction fields with
  | nil => rfl
  | cons kv rest ih =>
      obtain ⟨k', v⟩ := kv
      rw [redactFields]
      by_cases h : k = k'
      · subst h
        simp [hk]
      · have hb : (k == k') = false := by simpa using h
        by_cases hproto : k' = "__proto__"
        · rw [if_pos hproto, List.lookup_cons, hb, ih]
        · rw [if_neg hproto, List.lookup_cons, List.lookup_cons, hb, ih]

/-! ## Joined rows -/

/-- A placement joined with its lab, its node and its node's cold-storage owner. -/
structure Placement extends PlacementRow where
  labName : String
  nodeName : String
  online : Bool
  nodeColdBackend : ColdBackend
  nodeColdOwnerNodeId : Option Nat
  coldOwnerName : Option String
  nodeColdReady : Bool

structure ProvisionStudent where
  id : Nat
  username : String
  email : Option String
  name : Option String
  studentId : Option String
  linuxUid : Nat
  deriving DecidableEq, Repr

/-- A roster member of a lab. -/
structure Member where
  student : StudentRow
  memberId : Nat
  isPi : Bool

/-! ## Suspended calls -/

/-- An `await` a call is waiting at, with the variables its continuation uses. -/
inductive Await where
  /-- `createPlacement`: the rest of the roster. -/
  | provisionRoster (placement : Placement) (rest : List ProvisionStudent)
      (actor : Option String)
  /-- `addStudentToLab` and `ensurePiAccess`: the rest of the placements. -/
  | provisionOn (rest : List Placement) (student : ProvisionStudent) (actor : Option String)
  /-- `copyMembers`: the rest of the roster to copy. -/
  | copyRest (toLabId : Nat) (rest : List Member) (actor : Option String)
  /-- `applyRosterImport`: the rest of the placements, then the rest of the students. -/
  | importRest (labId : Nat) (placements : List Placement) (student : ProvisionStudent)
      (rest : List ProvisionStudent) (actor : Option String)
  /-- `deliverPlacementCredential`: the mailer's answer about the password it was handed. -/
  | credentialSent (memberId : Nat) (password node : String) (lab username : Value)
  /-- `maybeDeliverPlacementCompletion`: the mailer's answer. -/
  | completionSent (placementId : Nat) (node : String) (lab : Value)

/-- A suspended call: the innermost `await` first, then those of its callers. -/
abbrev Thread := List Await

/-! ## The trace -/

/-- What has left the controller. -/
inductive Event where
  /-- The first result for a task was ingested. -/
  | settled (node taskUuid : String) (ok : Bool)
  /-- A password was handed to the mailer. -/
  | credentialMail (memberId : Nat) (lab node username password recipient : String)
  /-- The mailer reported a password it had been handed as sent. -/
  | credentialMailed (memberId : Nat) (password : String)
  /-- A password was returned to an admin. -/
  | credentialReveal (memberId : Nat) (lab node username password : String)
  | completionMail (placementId : Nat) (lab node recipient : String) (usernames : List String)
  | removalMail (recipient lab : String) (dataDeleted : Bool)
  | gpuMail (recipient username node state : String) (lab : Option String)
  | quotaMail (recipient lab pool : String) (pct : Number)
  | studentQuotaMail (recipient username lab pool : String) (pct : Number)
  | adminAlert (key subject body : String) (recipients : List String) (suppressed : Nat)
  deriving DecidableEq

/-- The dedup state of one alert key. -/
structure KeyState where
  lastSent : Nat
  suppressed : Nat
  deriving DecidableEq, Repr

/-- The controller process with its databases. -/
structure Controller where
  host : Host
  settings : Settings := {}
  /-- `Date.now()`, in milliseconds. -/
  now : Nat := 0
  /-- How many random draws were made. -/
  draws : Nat := 0
  db : Db := {}
  /-- The honker queue of each node. -/
  queues : String → DurableQueue Payload := fun _ => .empty
  alertState : List (String × KeyState) := []
  gpuMailState : List (String × Nat) := []
  threads : List Thread := []
  /-- Every task `enqueueTask` returned, newest first, with the node it was for. -/
  issued : List (String × TaskFrame) := []
  /-- Newest first. -/
  trace : List Event := []

/-- `t` is the row `enqueueTask` inserted for this frame. -/
structure TaskFrame.Issues (frame : TaskFrame) (t : TaskRow) : Prop where
  taskUuid : t.taskUuid = frame.id
  action : t.action = frame.action
  params : t.params = .text (redactSecrets (.obj frame.params))

namespace Controller

/-! ## The arrow of time -/

/-- **What no program of the controller undoes.** -/
structure Evolves (s s' : Controller) : Prop where
  host : s'.host = s.host
  draws : s.draws ≤ s'.draws
  nodes : s.db.nodes.Evolves s'.db.nodes
  labs : s.db.labs.Evolves s'.db.labs
  students : s.db.students.Evolves s'.db.students
  labMembers : s.db.labMembers.Evolves s'.db.labMembers
  labPlacements : s.db.labPlacements.Evolves s'.db.labPlacements
  placementMembers : s.db.placementMembers.Evolves s'.db.placementMembers
  taskLog : s.db.taskLog.Evolves s'.db.taskLog
  /-- The tasks issued since got task ids that were drawn since, and the rows added to the
  log since are theirs. -/
  issued : ∃ new, s'.issued = new ++ s.issued ∧
    (∀ x ∈ new, ∃ d, s.draws ≤ d ∧ d < s'.draws ∧ x.2.id = s.host.uuid d) ∧
    ∀ t ∈ s'.db.taskLog.rows, s.db.taskLog.seq < t.id →
      ∃ frame, (t.node, frame) ∈ new ∧ frame.Issues t
  trace : s.trace <:+ s'.trace

namespace Evolves

/-- Nothing was issued and no row was added to the log. -/
theorem issued_none {s s' : Controller} (hi : s'.issued = s.issued)
    (hs : s'.db.taskLog.seq = s.db.taskLog.seq) :
    ∃ new, s'.issued = new ++ s.issued ∧
      (∀ x ∈ new, ∃ d, s.draws ≤ d ∧ d < s'.draws ∧ x.2.id = s.host.uuid d) ∧
      ∀ t ∈ s'.db.taskLog.rows, s.db.taskLog.seq < t.id →
        ∃ frame, (t.node, frame) ∈ new ∧ frame.Issues t :=
  ⟨[], hi, by simp, fun t ht hlt =>
    absurd (s'.db.taskLog.bounded t ht) (Nat.not_le.mpr (hs ▸ hlt))⟩

theorem refl (s : Controller) : Evolves s s where
  host := rfl
  draws := le_rfl
  nodes := .refl _
  labs := .refl _
  students := .refl _
  labMembers := .refl _
  labPlacements := .refl _
  placementMembers := .refl _
  taskLog := .refl _
  issued := issued_none rfl rfl
  trace := List.suffix_refl _

theorem trans {s s' s'' : Controller} (h : Evolves s s') (h' : Evolves s' s'') :
    Evolves s s'' where
  host := h'.host.trans h.host
  draws := h.draws.trans h'.draws
  nodes := h.nodes.trans h'.nodes
  labs := h.labs.trans h'.labs
  students := h.students.trans h'.students
  labMembers := h.labMembers.trans h'.labMembers
  labPlacements := h.labPlacements.trans h'.labPlacements
  placementMembers := h.placementMembers.trans h'.placementMembers
  taskLog := h.taskLog.trans h'.taskLog
  issued := by
    obtain ⟨new, hnew, hdrawn, hrows⟩ := h.issued
    obtain ⟨new', hnew', hdrawn', hrows'⟩ := h'.issued
    refine ⟨new' ++ new, by rw [hnew', hnew, List.append_assoc], fun x hx => ?_, fun t ht hlt => ?_⟩
    · rcases List.mem_append.mp hx with hx | hx
      · obtain ⟨d, h1, h2, h3⟩ := hdrawn' x hx
        exact ⟨d, h.draws.trans h1, h2, by rw [h3, h.host]⟩
      · obtain ⟨d, h1, h2, h3⟩ := hdrawn x hx
        exact ⟨d, h1, h2.trans_le h'.draws, h3⟩
    · by_cases hle : t.id ≤ s'.db.taskLog.seq
      · -- the row was there in between, and has kept its identity since
        obtain ⟨t', ht', hg⟩ := h'.taskLog.grows t ht hle
        have hg : t'.Grows t := hg
        obtain ⟨frame, hmem, hf⟩ := hrows t' ht' (hg.id ▸ hlt)
        refine ⟨frame, ?_, hg.taskUuid.trans hf.taskUuid, hg.action.trans hf.action,
          hg.params.trans hf.params⟩
        rw [hg.node]
        exact List.mem_append_right _ hmem
      · obtain ⟨frame, hmem, hf⟩ := hrows' t ht (Nat.not_le.mp hle)
        exact ⟨frame, List.mem_append_left _ hmem, hf⟩
  trace := h.trace.trans h'.trace

end Evolves

instance : IsPreorder Controller Evolves where
  refl := Evolves.refl
  trans _ _ _ := Evolves.trans

/-- A row of the task log that was there keeps its place in the lifecycle. -/
theorem Evolves.task {s s' : Controller} (h : Evolves s s') {t t' : TaskRow}
    (ht : t ∈ s.db.taskLog.rows) (ht' : t' ∈ s'.db.taskLog.rows) (hid : t'.id = t.id) :
    t.Grows t' :=
  h.taskLog.get (Table.get_eq_some.mpr ⟨ht, rfl⟩) (Table.get_eq_some.mpr ⟨ht', hid⟩)

end Controller

/-- A function of the controller: it may throw, and what it wrote before stays written. -/
abbrev Op := Prog Controller.Evolves Error

/-! ## Tables as parts of the state -/

/-- A table of the database that rows may be added to without further ado. -/
structure Slot (ρ : Type) [Row ρ] where
  get : Controller → Table ρ
  set : Controller → Table ρ → Controller
  evolves : ∀ s T, (get s).Evolves T → s.Evolves (set s T)

namespace Slot

def nodes : Slot NodeRow where
  get s := s.db.nodes
  set s T := { s with db := { s.db with nodes := T } }
  evolves s _ h := { Controller.Evolves.refl s with nodes := h }

def labs : Slot LabRow where
  get s := s.db.labs
  set s T := { s with db := { s.db with labs := T } }
  evolves s _ h := { Controller.Evolves.refl s with labs := h }

def students : Slot StudentRow where
  get s := s.db.students
  set s T := { s with db := { s.db with students := T } }
  evolves s _ h := { Controller.Evolves.refl s with students := h }

def labMembers : Slot LabMemberRow where
  get s := s.db.labMembers
  set s T := { s with db := { s.db with labMembers := T } }
  evolves s _ h := { Controller.Evolves.refl s with labMembers := h }

def labPlacements : Slot PlacementRow where
  get s := s.db.labPlacements
  set s T := { s with db := { s.db with labPlacements := T } }
  evolves s _ h := { Controller.Evolves.refl s with labPlacements := h }

def placementMembers : Slot PlacementMemberRow where
  get s := s.db.placementMembers
  set s T := { s with db := { s.db with placementMembers := T } }
  evolves s _ h := { Controller.Evolves.refl s with placementMembers := h }

variable {ρ : Type} [Row ρ]

/-- `UPDATE … WHERE p`. -/
def update (t : Slot ρ) (p : ρ → Bool) (f : ρ → ρ) (h : Row.Keeps p f) : Op Unit :=
  .write (fun s => t.set s ((t.get s).update p f h)) fun s =>
    t.evolves s _ (.of_update (t.get s) p f h)

/-- `UPDATE … WHERE p`, checked against the `UNIQUE` constraints. -/
def tryUpdate (t : Slot ρ) (p : ρ → Bool) (f : ρ → ρ)
    (h : ∀ r, p r = true → Row.grows r (f r)) : Op Unit :=
  .exchange
    (fun s =>
      match (t.get s).tryUpdate p f h with
      | some T => .ok ((), t.set s T)
      | none => .error (.sqliteError "UNIQUE constraint failed"))
    (by
      intro s a s' hs
      split at hs
      · cases hs
        exact t.evolves s _ (.of_tryUpdate ‹_›)
      · cases hs)

/-- `DELETE … WHERE p`. -/
def delete (t : Slot ρ) (p : ρ → Bool) : Op Unit :=
  .write (fun s => t.set s ((t.get s).delete p)) fun s => t.evolves s _ (.of_delete (t.get s) p)

/-- `INSERT`; returns the new key. -/
def insert (t : Slot ρ) (mk : Nat → ρ) (hmk : ∀ i, Row.id (mk i) = i) : Op Nat :=
  .exchange
    (fun s =>
      match (t.get s).insert mk hmk with
      | some T => .ok (T.seq, t.set s T)
      | none => .error (.sqliteError "UNIQUE constraint failed"))
    (by
      intro s a s' hs
      split at hs
      · cases hs
        exact t.evolves s _ (.of_insert ‹_›)
      · cases hs)

theorem update_run (t : Slot ρ) (p : ρ → Bool) (f : ρ → ρ) (h : Row.Keeps p f) (s : Controller) :
    (t.update p f h).run s = (.ok (), t.set s ((t.get s).update p f h)) := rfl

/-- An insertion that clashes with no row. -/
theorem insert_run {t : Slot ρ} {mk : Nat → ρ} {hmk : ∀ i, Row.id (mk i) = i} {s : Controller}
    (h : ∀ r ∈ (t.get s).rows, ¬ Row.clash r (mk ((t.get s).seq + 1))) :
    ∃ T, (t.insert mk hmk).run s = (.ok ((t.get s).seq + 1), t.set s T) ∧
      T.rows = (t.get s).rows ++ [mk ((t.get s).seq + 1)] := by
  obtain ⟨T, hT, hrows, hseq⟩ := Table.insert_of_fresh hmk h
  refine ⟨T, ?_, hrows⟩
  simp only [insert, Prog.exchange, hT, hseq]

/-- An insertion is made, or refused without a trace. -/
theorem insert_cases (t : Slot ρ) (mk : Nat → ρ) (hmk : ∀ i, Row.id (mk i) = i) (s : Controller) :
    (t.insert mk hmk).run s = (.error (.sqliteError "UNIQUE constraint failed"), s) ∨
      ∃ T, (t.insert mk hmk).run s = (.ok T.seq, t.set s T) ∧
        T.rows = (t.get s).rows ++ [mk T.seq] ∧ T.seq = (t.get s).seq + 1 := by
  simp only [insert, Prog.exchange]
  cases hT : (t.get s).insert mk hmk with
  | none => exact .inl rfl
  | some T =>
      obtain ⟨hrows, hseq⟩ := Table.insert_eq_some hT
      exact .inr ⟨T, rfl, hseq ▸ hrows, hseq⟩

/-- An update that clashes with no row. -/
theorem tryUpdate_run {t : Slot ρ} {p : ρ → Bool} {f : ρ → ρ}
    {hg : ∀ r, p r = true → Row.grows r (f r)} {s : Controller}
    (h : ((t.get s).rows.map fun r => if p r then f r else r).Pairwise fun a b => ¬ Row.clash a b) :
    ∃ T, (t.tryUpdate p f hg).run s = (.ok (), t.set s T) ∧
      T.rows = (t.get s).rows.map fun r => if p r then f r else r := by
  obtain ⟨T, hT, hrows, _⟩ := Table.tryUpdate_of_fresh hg h
  refine ⟨T, ?_, hrows⟩
  simp only [tryUpdate, Prog.exchange, hT]

end Slot

/-! ## Reading and writing the rest of the state -/

namespace Op

/-- `Date.now()`. -/
def now : Op Nat := .read Controller.now

/-- Read the database. -/
def query {α : Type} (f : Db → α) : Op α := .read fun s => f s.db

/-- The next random draw. -/
def draw {α : Type} (f : Host → Nat → α) : Op α :=
  .exchange (fun s => .ok (f s.host s.draws, { s with draws := s.draws + 1 }))
    (by
      intro s a s' h
      cases h
      exact { Controller.Evolves.refl s with
        draws := Nat.le_succ _
        issued := Controller.Evolves.issued_none rfl rfl })

/-- Record what leaves the controller. -/
def emit (e : Event) : Op Unit :=
  .write (fun s => { s with trace := e :: s.trace }) fun s =>
    { Controller.Evolves.refl s with trace := List.suffix_cons e s.trace }

/-- Suspend a call at an `await`. -/
def spawn (thread : Thread) : Op Unit :=
  .write (fun s => { s with threads := s.threads ++ [thread] }) fun s => { Controller.Evolves.refl s with }

/-- Raise what a pure computation threw. -/
def lift {α : Type} : Except Error α → Op α
  | .ok a => pure a
  | .error e => throw e

/-- `throw new Error(message)`. -/
def failWith {α : Type} (message : String) : Op α := throw (.error message)

/-- Write the tables that are lists. -/
def writeLists (f : Db → Db)
    (h : ∀ d, (f d).nodes = d.nodes ∧ (f d).labs = d.labs ∧ (f d).students = d.students ∧
      (f d).labMembers = d.labMembers ∧ (f d).labPlacements = d.labPlacements ∧
      (f d).placementMembers = d.placementMembers ∧ (f d).taskLog = d.taskLog := by
        intro d; exact ⟨rfl, rfl, rfl, rfl, rfl, rfl, rfl⟩) : Op Unit :=
  .write (fun s => { s with db := f s.db }) fun s => by
    obtain ⟨h1, h2, h3, h4, h5, h6, h7⟩ := h s.db
    exact { Controller.Evolves.refl s with
      nodes := h1 ▸ .refl _
      labs := h2 ▸ .refl _
      students := h3 ▸ .refl _
      labMembers := h4 ▸ .refl _
      labPlacements := h5 ▸ .refl _
      placementMembers := h6 ▸ .refl _
      taskLog := h7 ▸ .refl _
      issued := Controller.Evolves.issued_none rfl (by rw [h7]) }

end Op

end MassDeployment
