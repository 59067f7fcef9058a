import MassDeployment.Controller.Protocol
import MassDeployment.Controller.Ingest

set_option autoImplicit false

/-! # Ingestion of agent frames (`hub.ts`)

What the frames of an authenticated socket do to the controller, and the consumer tick that
feeds a socket from its node's queue. The sockets themselves are in `Sockets`.
-/

namespace MassDeployment

open Js

/-! ## Results -/

/-- The parameters of a task row; nothing where there are none or they do not parse. -/
def safeParams (params : JsonText) : Value :=
  match params with
  | .null | .malformed => some (.obj [])
  | .text j => some j

/-- Record the failure of a mail that was being sent in the background. This runs in a `.catch`
handler: where the lab does not bind, the promise is rejected, which no caller sees. -/
def logMailFailure (source msg : String) (node : String) (lab user : Value) (e : Error) :
    Op Unit := do
  let now ← Op.now
  match bindAll 2 [lab, user] with
  | .ok [labText, userText] =>
    insertLog
      { ts := now, node := node, level := "ERROR", source := some source, lab := labText
        user := userText, msg, detail := .text e.message }
  | _ => pure ()

/-- `void deliverPlacementCredential(…).catch(…)`. -/
def startCredentialMail (labName : Value) (node : String) (username : Value) : Op Unit := do
  let waiting ← tryCatch (deliverPlacementCredential labName node username) fun e => do
    logMailFailure "credential" "credential delivery failed" node labName username e
    return []
  if waiting.isEmpty then pure () else Op.spawn waiting

/-- `void maybeDeliverPlacementCompletion(…).catch(…)`. -/
def startCompletionMail (labName : Value) (node : String) : Op Unit := do
  let waiting ← tryCatch (maybeDeliverPlacementCompletion labName node) fun e => do
    logMailFailure "placement-completion" "PI completion email failed" node labName (some .null) e
    return []
  if waiting.isEmpty then pure () else Op.spawn waiting

/-- Store what a node reported about itself. -/
def storeCapabilities (node : String) (capabilities : Value) : Op Unit := do
  let now ← Op.now
  updateNode node fun n =>
    { n with capabilities := stringify capabilities, lastSeen := some now }

/-- `frame.result?.lab ?? params.lab`. -/
def resultLab (frame : ResultFrame) (t : TaskRow) : Except Error Value :=
  match frame.result.getOpt "lab" with
  | none | some .null => Value.get (safeParams t.params) "lab"
  | some j => .ok (some j)

/-- What the first result of a task does to placements, members and nodes. -/
def applyLifecycle (node : String) (frame : ResultFrame) (t : TaskRow) : Op Unit := do
  let labName ← Op.lift (resultLab frame t)
  if frame.ok && t.action == .nodeCheck && frame.result.truthy then
    storeCapabilities node frame.result
  else if frame.ok && t.action == .nodeRepair && (frame.result.getOpt "health").truthy then
    storeCapabilities node (frame.result.getOpt "health")
  else if labName.truthy && t.action == .labCreate then
    markPlacementStateByLabNode labName node (if frame.ok then .active else .failed)
      (if frame.ok then none else some (frame.error.getD "lab.create failed"))
  else if labName.truthy && t.action == .labDestroy then
    if frame.ok then confirmPlacementDestroyed labName node
    else
      markPlacementStateByLabNode labName node .deleting
        (some (frame.error.getD "lab.destroy failed"))
  else if !labName.truthy then pure ()
  else
    let username ← Op.lift (Value.get (safeParams t.params) "username")
    if username.truthy && t.action == .studentAdd then
      markPlacementMemberState labName node username (if frame.ok then .active else .failed)
        (if frame.ok then none else some (frame.error.getD "student.add failed"))
      if frame.ok then
        startCredentialMail labName node username
        startCompletionMail labName node
    else if username.truthy && t.action == .studentRemove && frame.ok then
      completeStudentRemoval frame.id
    else pure ()

/-- Alert the admins about a task that failed. -/
def alertFailure (frame : ResultFrame) (t : TaskRow) : Op Unit :=
  if frame.ok then pure ()
  else alertTaskFailed t.node t.action (frame.error.getD "unknown error")

/-- Keep the logs a result came with. -/
def logResult (frame : ResultFrame) : Op Unit :=
  match frame.logs with
  | none => pure ()
  | some logs =>
    if logs = "" then pure ()
    else do
      let now ← Op.now
      let verdict := if frame.ok then "ok" else "failed"
      insertLog
        { ts := now, level := if frame.ok then "INFO" else "ERROR", source := some "task"
          taskId := some frame.id, msg := s!"task {verdict}", detail := .text logs }

/-- The effects of a result that was accepted. -/
def applyResult (node : String) (frame : ResultFrame) : Op Unit := do
  applyTask
  logResult frame
where
  /-- The effects on the rows the task is about. -/
  applyTask : Op Unit := do
    match ← Op.query fun d => d.getTask frame.id with
    | none => pure ()
    | some t =>
      alertFailure frame t
      applyLifecycle node frame t

/-- Ingest a result: the first one for a task of this node takes effect, every other one is
dropped. -/
def handleResult (node : String) (frame : ResultFrame) : Op Unit := do
  let changed ← markTaskState node frame.id (.done frame.ok) frame.result
    (if frame.ok then none else frame.error) (frame.cached == some true)
  if changed then
    Op.emit (.settled node frame.id frame.ok)
    applyResult node frame
  else pure ()

/-! ## Logs, events, telemetry -/

/-- A bounded string with control characters stripped, or nothing. -/
def boundedStr (max : Nat) (v : Value) : Option String :=
  match v.asString with
  | none => none
  | some s =>
    let clean := slice max (String.ofList (s.toList.filter fun c => c ≥ ' ' && c != '\x7f'))
    if clean = "" then none else some clean

/-- A length-clamped free text. -/
def clampText (max : Nat) (v : Option String) : Option String := v.map (slice max)

def intOrNull (v : Value) : Option Number :=
  match v.asNumber with
  | some n => if n.isFinite then some n.trunc else none
  | none => none

/-- A column value for an optional text. -/
def textOrNull : Option String → SqlValue
  | some s => .text s
  | none => .null

def handleLog (node : String) (frame : LogFrame) : Op Unit := do
  let now ← Op.now
  let bounded := fun max (v : Option String) => boundedStr max (v.map Json.str)
  let level := frame.level.getD "INFO"
  insertLog
    { ts := frame.ts.elim (now : Number) Number.fin, node := node, level
      source := bounded 32 frame.source, lab := textOrNull (bounded 40 frame.lab)
      user := textOrNull (bounded 32 frame.user), taskId := bounded 64 frame.taskId
      msg := (clampText 2000 frame.msg).getD ""
      detail := textOrNull (clampText 8000 frame.detail) }
  maybeAlertOnLog node level frame.source (frame.msg.getD "") frame.detail

/-- The states a GPU event may report. -/
def gpuStates : List String := ["idle", "warned", "killed"]

def gpuMailWindowMs : Nat := 10 * 60 * 1000

/-- Mail a student about their GPU process, if the sending node hosts them. -/
def emailGpuEvent (node : String) (user lab : Option String) (state : String) : Op Unit := do
  let s ← .read id
  match user with
  | none => pure ()
  | some username =>
    let owns := s.db.placements.any fun p =>
      p.nodeName == node && (s.db.roster p.labId).any fun r => r.username == username
    let email := (s.db.students.find fun r => r.username == username).bind StudentRow.email
    let key := s!"{node}:{username}:{state}"
    let last := (s.gpuMailState.lookup key).getD 0
    if state ≠ "warned" ∧ state ≠ "killed" then pure ()
    else if !owns then pure ()
    else
      match email with
      | none => pure ()
      | some address =>
        if address = "" then pure ()
        else if s.now - last < gpuMailWindowMs then pure ()
        else
          setGpuMailState key s.now
          Op.emit (.gpuMail address username node state lab)
where
  /-- Remember when a key was last mailed. -/
  setGpuMailState (key : String) (now : Nat) : Op Unit :=
    .write (fun s => { s with gpuMailState := setKey key now s.gpuMailState }) fun s =>
      { Controller.Evolves.refl s with }

/-- Store a GPU event, attributed to the placement of its lab on this node. -/
def handleEvent (node : String) (frame : EventFrame) : Op Unit :=
  if frame.kind ≠ "gpu" then pure ()
  else do
    let now ← Op.now
    let raw := fun k => Value.field k (frame.payload.getD (.obj []))
    let user := boundedStr 32 (raw "user")
    let lab := boundedStr 40 (raw "lab")
    let state := match (raw "state").asString with
      | some s => if gpuStates.contains s then s else "idle"
      | none => "idle"
    let placement ← placementNamed lab node
    Op.writeLists fun d =>
      { d with
        gpuEvents := d.gpuEvents ++
          [{ node, pid := intOrNull (raw "pid"), user, lab, placementId := placement.map (·.id)
             vramBytes := intOrNull (raw "vram_bytes"), state
             ts := (frame.ts.bind fun q => intOrNull (some (.num (.fin q)))).getD (now : Number)
             cmd := boundedStr 200 (raw "cmd"), idleS := intOrNull (raw "idle_s") }] }
    emailGpuEvent node user lab state

/-- Ingest a frame of a socket that is authenticated as `node`. -/
def ingestFrame (node : String) : InboundFrame → Op Unit
  | .result frame => handleResult node frame
  | .receipt id => markTaskReceived node id
  | .log frame => handleLog node frame
  | .event frame => handleEvent node frame
  | .telemetry payload => ingestTelemetry node (payload.getD (.obj []))
  | .hello _ => pure ()

/-! ## The consumer tick -/

/-- The worker id under which the hub claims a node's jobs. -/
def hubWorker (node : String) : String := "controller-hub-" ++ node

/-- Claim one job and push it down the socket; `sent` tells whether `ws.send` returned.
Returns whether the tick goes on. -/
def drainOne (node : String) (sent : Bool) : Op Bool := do
  match ← claimTask node (hubWorker node) with
  | none => return false
  | some (jobId, frame) =>
    if sent then
      ackTask node jobId (hubWorker node)
      let _ ← markTaskState node frame.id .sent none none false
      bumpAttempts node frame.id
      return true
    else
      retryTask node jobId (hubWorker node)
      return false

/-- The batch of one tick: one entry for each of the up to twenty sends. -/
def drainBatch (node : String) : List Bool → Op Unit
  | [] => pure ()
  | sent :: rest => do
    if ← drainOne node sent then drainBatch node rest

end MassDeployment
