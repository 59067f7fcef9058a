import MassDeployment.Controller.Hub
import MassDeployment.Controller.Labs
import MassDeployment.Controller.RosterImport
import MassDeployment.Lib.Run

set_option autoImplicit false

/-! # Everything that can happen to the controller

`Act` lists the calls the rest of the world makes on the controller: the admin operations,
the frames of authenticated agents, the consumer ticks, the mailer's answers and the other
`await`s that come back. `step` runs one of them to its end or to its first `await`; what it
threw is gone, what it wrote before stays.

A run is a list of acts, so a statement about every list of acts covers every interleaving
of calls, results and resumed calls.
-/

namespace MassDeployment

open Js

/-- What a call finds when it comes back from its `await`; the loops that only wait for
another call of this file ignore it. -/
inductive Answer where
  | sent
  | notSent
  | threw (e : Error)
  deriving DecidableEq

/-- A claim that is given back keeps the keys of the placement. -/
theorem keeps_unclaimed (r : PlacementRow) :
    let r' : PlacementRow := { r with completionEmailSentAt := none }
    r'.id = r.id ∧ r'.labId = r.labId ∧ r'.nodeId = r.nodeId ∧ r'.sshPort = r.sshPort :=
  ⟨rfl, rfl, rfl, rfl⟩

/-- Continue after an `await`, up to the next one. -/
def Await.resume (answer : Answer) : Await → Op Thread
  | .provisionRoster placement rest actor => MassDeployment.provisionRoster placement rest actor
  | .provisionOn rest student actor => MassDeployment.provisionOn rest student actor
  | .copyRest toLabId rest actor => copyEach toLabId actor rest
  | .importRest labId placements student rest actor =>
    match placements with
    | [] => provisionImported labId actor rest
    | placement :: others => do
      provisionMemberOnPlacement placement student actor
      return [.importRest labId others student rest actor]
  | .credentialSent memberId password node lab username =>
    match answer with
    | .sent => do
      Op.emit (.credentialMailed memberId password)
      clearCredential memberId
      return []
    | .notSent => return []
    | .threw e => do
      logMailFailure "credential" "credential delivery failed" node lab username e
      return []
  | .completionSent placementId node lab =>
    match answer with
    | .sent => do
      let now ← Op.now
      updatePlacement placementId fun r => { r with completionEmailSentAt := some now }
      return []
    | .notSent => do
      updatePlacement placementId (fun r => { r with completionEmailSentAt := none }) keeps_unclaimed
      return []
    | .threw e => do
      logMailFailure "placement-completion" "PI completion email failed" node lab (some .null) e
      return []

/-- Suspend a call that still waits for something. -/
def suspend (waiting : Thread) : Op Unit := if waiting.isEmpty then pure () else Op.spawn waiting

/-- Take the `i`-th suspended call off the list. -/
def takeThread (i : Nat) : Op Unit :=
  .write (fun s => { s with threads := s.threads.eraseIdx i }) fun s =>
    { Controller.Evolves.refl s with }

/-- Let the `i`-th suspended call continue. One that throws is gone. -/
def resumeThread (i : Nat) (answer : Answer) : Op Unit := do
  match ← .read fun s => s.threads[i]? with
  | none | some [] => pure ()
  | some (await :: callers) =>
    takeThread i
    let waiting ← await.resume answer
    suspend (waiting ++ callers)

/-- The tasks the schedulers and the node and settings pages queue. -/
inductive Chore where
  | check | repair | reboot | scrub
  | usageScan (lab : String) (users : List String)
  | gpuPolicy (payload : Params)

def Chore.action : Chore → Action
  | .check => .nodeCheck
  | .repair => .nodeRepair
  | .reboot => .nodeReboot
  | .scrub => .nodeScrub
  | .usageScan _ _ => .usageScan
  | .gpuPolicy _ => .gpuPolicyUpdate

def Chore.params : Chore → Params
  | .check | .repair | .reboot | .scrub => []
  | .usageScan lab users => [("lab", .str lab), ("users", .arr (users.map .str))]
  | .gpuPolicy payload => payload

inductive Act where
  | provisionNode (name : String) (actor : Option String)
  | rotateNodeToken (name : String) (actor : Option String)
  | setNodeAlias (name newAlias : String) (actor : Option String)
  | revokeNode (name : String) (actor : Option String)
  | deleteNode (name : String) (actor : Option String) (force : Bool)
  | setNodeColdStorage (name : String) (backend : ColdBackend) (ownerName actor : Option String)
  | createLab (name : String) (piName piEmail actor : Option String)
  | updateLabMeta (labId : Nat) (piName piEmail : Option (Option String)) (actor : Option String)
  | destroyLab (labId : Nat) (actor : Option String) (force : Bool)
  | createPlacement (input : CreatePlacementInput) (actor : Option String)
  | updatePlacementQuota (placementId : Nat) (fast : Option Int) (cold : Option (Option Int))
      (actor : Option String)
  | recreatePlacement (placementId : Nat) (input : RecreateInput) (actor : Option String)
  | retryPlacement (placementId : Nat) (actor : Option String)
  | destroyPlacement (placementId : Nat) (actor : Option String)
  | forceDeletePlacement (placementId : Nat) (actor : Option String)
  | addStudentToLab (labId : Nat) (student : StudentInput) (actor : Option String)
  | ensurePiAccess (labId : Nat) (student : StudentInput) (actor : Option String)
  | copyMembers (fromLabId toLabId : Nat) (actor : Option String)
  | removeStudentFromLab (labId studentId : Nat) (deleteData : Bool) (actor : Option String)
  | applyRosterImport (labId : Nat) (text : String) (actor : Option String)
  | consumePlacementCredential (placementId studentId : Nat) (actor : Option String)
  | deliverPlacementCredential (lab node username : String)
  | maybeDeliverPlacementCompletion (lab node : String)
  | maintain (node : String) (job : Chore) (actor : Option String)
  /-- A frame arrives on a socket authenticated as `node`. -/
  | frame (node : String) (received : InboundFrame)
  /-- A socket authenticated as `node`, or the socket of `node` closed. -/
  | registerNode (node : String) (capabilities : Json)
  | deregisterNode (node : String)
  /-- A consumer tick; the list says which of its sends return. -/
  | drainNode (node : String) (sends : List Bool)
  /-- A suspended call comes back from its `await`. -/
  | resume (i : Nat) (answer : Answer)
  /-- Time passes. -/
  | tick (ms : Nat)
  | configure (settings : Settings)

/-- Run a call for its effects. -/
def discard {α : Type} (x : Op α) : Op Unit := do
  let _ ← x

/-- Run an `async` call up to its first `await`. -/
def start (x : Op Thread) : Op Unit := do
  let waiting ← x
  suspend waiting

def Act.run : Act → Op Unit
  | .provisionNode name actor => discard (MassDeployment.provisionNode name actor)
  | .rotateNodeToken name actor => discard (MassDeployment.rotateNodeToken name actor)
  | .setNodeAlias name newAlias actor => MassDeployment.setNodeAlias name newAlias actor
  | .revokeNode name actor => MassDeployment.revokeNode name actor
  | .deleteNode name actor force => MassDeployment.deleteNode name actor force
  | .setNodeColdStorage name backend ownerName actor =>
    MassDeployment.setNodeColdStorage name backend ownerName actor
  | .createLab name piName piEmail actor =>
    discard (MassDeployment.createLab name piName piEmail actor)
  | .updateLabMeta labId piName piEmail actor =>
    MassDeployment.updateLabMeta labId piName piEmail actor
  | .destroyLab labId actor force => MassDeployment.destroyLab labId actor force
  | .createPlacement input actor => start (MassDeployment.createPlacement input actor)
  | .updatePlacementQuota id fast cold actor =>
    MassDeployment.updatePlacementQuota id fast cold actor
  | .recreatePlacement id input actor => MassDeployment.recreatePlacement id input actor
  | .retryPlacement id actor => MassDeployment.retryPlacement id actor
  | .destroyPlacement id actor => MassDeployment.destroyPlacement id actor
  | .forceDeletePlacement id actor => MassDeployment.forceDeletePlacement id actor
  | .addStudentToLab labId student actor =>
    start (MassDeployment.addStudentToLab labId student actor)
  | .ensurePiAccess labId student actor =>
    start (MassDeployment.ensurePiAccess labId student actor)
  | .copyMembers fromLabId toLabId actor =>
    start (MassDeployment.copyMembers fromLabId toLabId actor)
  | .removeStudentFromLab labId studentId deleteData actor =>
    MassDeployment.removeStudentFromLab labId studentId deleteData actor
  | .applyRosterImport labId text actor =>
    start (MassDeployment.applyRosterImport labId text actor)
  | .consumePlacementCredential placementId studentId actor =>
    discard (MassDeployment.consumePlacementCredential placementId studentId actor)
  | .deliverPlacementCredential lab node username =>
    startCredentialMail (some (.str lab)) node (some (.str username))
  | .maybeDeliverPlacementCompletion lab node => startCompletionMail (some (.str lab)) node
  | .maintain node job actor => discard (enqueueTask node job.action job.params actor)
  | .frame node received => ingestFrame node received
  | .registerNode node capabilities => MassDeployment.registerNode node capabilities
  | .deregisterNode node => markNodeOffline node
  | .drainNode node sends => drainBatch node (sends.take 20)
  | .resume i answer => resumeThread i answer
  | .tick ms => .write (fun s => { s with now := s.now + ms }) fun s =>
      { Controller.Evolves.refl s with }
  | .configure settings => .write (fun s => { s with settings := settings }) fun s =>
      { Controller.Evolves.refl s with }

/-- One act. -/
def step (s : Controller) (a : Act) : Controller := a.run.after s

/-- Every act moves the controller along its arrow of time. -/
theorem step_evolves (s : Controller) (a : Act) : s.Evolves (step s a) := a.run.keeps s

/-- A controller with empty databases. -/
def Controller.init (host : Host) : Controller := { host }

/-- A state some run from empty databases reaches. -/
def Reachable (s : Controller) : Prop := ∃ host acts, s = Run.run step (.init host) acts

theorem run_evolves (s : Controller) (acts : List Act) : s.Evolves (Run.run step s acts) :=
  Run.preorder step_evolves s acts

/-! ## Runs on fixed inputs -/

/-- The placement of a lab on the first node. -/
def placedInput (labId sshPort : Nat) : CreatePlacementInput :=
  { labId, nodeId := 1, fastQuotaBytes := 10, coldQuotaBytes := some 10
    studentFastQuotaBytes := none, studentColdQuotaBytes := none, sshPort
    image := "ubuntu", containerOptions := ⟨"4", "8g", "1g", "300g", "no"⟩ }

/-- A lab placed on a node: the run up to the placement, whose `lab.create` has the task id
`u`. -/
def placedLab : List Act :=
  [.provisionNode "n" none, .createLab "lab" none none none, .createPlacement (placedInput 1 2200) none]

/-- The result of a task that succeeded. -/
def succeeded (node taskUuid : String) : Act :=
  .frame node (.result ⟨taskUuid, true, none, none, none, none⟩)

end MassDeployment
