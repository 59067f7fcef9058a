import MassDeployment.Controller.State

set_option autoImplicit false

/-! # Audit entries and admin alerts (`audit.ts`, `alerts.ts`) -/

namespace MassDeployment

open Js

/-- Append an audit entry. -/
def audit (actor : Option String) (action : String) (target detail : Option String) : Op Unit := do
  let now ← Op.now
  Op.writeLists fun d =>
    { d with auditLog := d.auditLog ++ [⟨now, actor, action, target, detail⟩] }

/-- Append a row to `logs`. -/
def insertLog (row : LogRow) : Op Unit :=
  Op.writeLists fun d => { d with logs := d.logs ++ [row] }

/-- `LEVELS[level]`. -/
def levelOf : String → Option Nat
  | "DEBUG" => some 10
  | "INFO" => some 20
  | "WARN" => some 30
  | "ERROR" => some 40
  | _ => none

/-- Set the entry of a key in an association list. -/
def setKey {α : Type} (key : String) (value : α) (m : List (String × α)) : List (String × α) :=
  (key, value) :: m.filter fun kv => kv.1 != key

/-- Write the dedup state of an alert key. -/
def setAlertState (key : String) (st : KeyState) : Op Unit :=
  .write (fun s => { s with alertState := setKey key st s.alertState }) fun s =>
    { Controller.Evolves.refl s with }

/-- The addresses of all admins. -/
def Db.adminEmails (d : Db) : List String := (d.admins.map AdminRow.email).filter (· != "")

/-- Send an alert to all admins, rate-limited by key. -/
def alertAdmins (key subject body : String) : Op Unit := do
  let s ← .read id
  if s.settings.alertsEnabled then
    let st := s.alertState.lookup key
    let windowMs := s.settings.alertDedupMinutes * 60 * 1000
    match st with
    | some k =>
      if s.now - k.lastSent < windowMs then
        setAlertState key { k with suppressed := k.suppressed + 1 }
      else
        setAlertState key ⟨s.now, 0⟩
        mailAlert s k.suppressed
    | none =>
      setAlertState key ⟨s.now, 0⟩
      mailAlert s 0
where
  /-- Hand the alert to the mailer, with the count of suppressed ones. -/
  mailAlert (s : Controller) (suppressed : Nat) : Op Unit :=
    if s.db.adminEmails.isEmpty then pure ()
    else Op.emit (.adminAlert key subject body s.db.adminEmails suppressed)

/-- Alert on a log line at or above the configured level. -/
def maybeAlertOnLog (node level : String) (source : Option String) (msg : String)
    (detail : Option String) : Op Unit := do
  let alertLevel ← .read fun s => s.settings.alertLevel
  let threshold := (levelOf alertLevel).getD 40
  if (levelOf level).getD 0 < threshold then pure ()
  else
    let sourceText := source.getD "-"
    let sourceName := source.getD ""
    let trim ← .read fun s => s.host.trim
    alertAdmins s!"log:{node}:{sourceText}:{level}" (trim s!"[{level}] {node} {sourceName}")
      (msg ++ match detail with
        | some d => if d = "" then "" else "\n\n" ++ d
        | none => "")

def alertNodeOffline (node : String) (label : Option String) : Op Unit :=
  let display := match label with
    | some l => if l ≠ "" ∧ l ≠ node then s!"{l} ({node})" else node
    | none => node
  alertAdmins s!"node-offline:{node}" s!"Node offline: {display}"
    s!"Node {display} has been disconnected from the controller for longer than the grace window."

def alertTaskFailed (node : String) (action : Action) (error : String) : Op Unit :=
  let actionText := action.text
  alertAdmins s!"task-failed:{node}:{actionText}" s!"Task failed on {node}: {actionText}"
    s!"A {actionText} task failed on node {node}.\n\n{error}"

end MassDeployment
