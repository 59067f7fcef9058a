import MassDeployment.Agent.Worker
import MassDeployment.Controller.Queued

set_option autoImplicit false

/-! # The controller and the agent of one node

Two durable queues joined by a socket. The controller pushes the tasks of the node down the socket
(`hub.ts`, `drainNode`) and acknowledges a job as soon as `ws.send` returned; the agent queues what
it receives, works on it, and sends its frames up through its outbox (`client.py`). The socket
keeps the order of the frames, and loses those in flight when it is lost.

An open connection is one whose hello the hub has accepted: what the hub's table of sockets does
with hellos, pings and tokens shows here only as connections that open, close and are lost.
-/

namespace MassDeployment

open Js Agent

/-! ## Frames on the wire -/

mutual

/-- What `json.loads` makes of the text `JSON.stringify` writes. -/
def loaded : Json → PyValue
  | .null => .none
  | .bool b => .bool b
  | .num (.fin q) => .num q
  | .num _ => .none
  | .str s => .str s
  | .arr items => .list (loadedItems items)
  | .obj fields => .dict (loadedFields fields)

def loadedItems : List Json → List PyValue
  | [] => []
  | j :: rest => loaded j :: loadedItems rest

def loadedFields : List (String × Json) → List (String × PyValue)
  | [] => []
  | (k, j) :: rest => (k, loaded j) :: loadedFields rest

end

/-- A task frame as the agent reads it; an absent `requested_by` is not written. -/
def TaskFrame.wire (frame : TaskFrame) : Frame :=
  [("type", .str "task"), ("id", .str frame.id), ("action", .str frame.action.text),
    ("params", loaded (.obj frame.params))] ++
  (frame.requestedBy.toList.map fun by' => ("requested_by", .str by')) ++
  [("ts", .num frame.ts)]

/-! ## The state -/

structure Link where
  node : String
  /-- How the controller reads numbers. -/
  reader : Doubles
  controller : Controller
  client : Client
  connected : Bool := false
  /-- The task frames in flight, oldest first. -/
  down : List TaskFrame := []
  /-- The frames of the agent in flight, oldest first. -/
  up : List Frame := []

/-- The act is a consumer tick of the node. -/
def Act.drains (node : String) : Act → Bool
  | .drainNode name _ => name == node
  | _ => false

inductive LinkEvent where
  /-- Anything else the controller does: the calls of the admins, the frames of other nodes. -/
  | act (a : Act)
  /-- A consumer tick of the node; the list says which of its sends return. -/
  | tick (sends : List Bool)
  /-- Claims on jobs of the node run out. -/
  | redeliver (jobs : List Nat)
  /-- The controller process starts anew. -/
  | restart
  /-- A step of the agent. -/
  | client (e : AgentEvent)
  | dial
  /-- The connection is lost with everything in flight. -/
  | lose
  /-- The oldest task frame in flight reaches the agent. -/
  | deliver
  /-- The oldest frame of the agent in flight reaches the hub. -/
  | arrive
  /-- It reaches the hub with the bucket of the connection empty. -/
  | refuse

namespace Link

/-- A controller with empty databases, and the agent of one node on an empty state directory. -/
def start (host : Host) (reader : Doubles) (node workerId : String) (retainDays : Nat) : Link where
  node := node
  reader := reader
  controller := .init host
  client := .fresh node workerId retainDays

/-- The batch of a tick: what is sent, oldest first, and the controller after it. -/
def push (s : Controller) (node : String) (sends : List Bool) : List TaskFrame × Controller :=
  let h := Hub.push { controller := s } node 0 (sends.take 20)
  ((h.sent.map Sent.frame).reverse, h.controller)

/-- The sender of the agent ends with the connection. -/
def lose (l : Link) : Link :=
  { l with connected := false, down := [], up := [], client := { l.client with sender := none } }

def tick (l : Link) (sends : List Bool) : Link :=
  let pushed := push l.controller l.node sends
  -- a send into a connection that was lost returns all the same
  { l with controller := pushed.2, down := if l.connected then l.down ++ pushed.1 else l.down }

def deliver (l : Link) : Link :=
  match l.down with
  | [] => l
  | frame :: rest => { l with down := rest, client := l.client.receive (some (.dict frame.wire)) }

/-- A frame that matches no known shape is dropped at the edge. -/
def arrive (l : Link) : Link :=
  match l.up with
  | [] => l
  | frame :: rest =>
    match ((PyValue.dict frame).parsed l.reader).bind parseInboundFrame with
    | none => { l with up := rest }
    | some received =>
      { l with up := rest, controller := (ingestFrame l.node received).after l.controller }

/-- A step of the agent; it receives and sends over the connection only. -/
def clientStep (l : Link) : AgentEvent → Link
  | .receive _ => l
  | .claimOutbound => if l.connected then { l with client := l.client.claimOutbound } else l
  | .sendOutbound acked =>
    if l.connected then
      { l with
        client := l.client.sendOutbound acked
        up := l.up ++ l.client.sender.toList.map Job.payload }
    else l
  | .restart workerId => { l.lose with client := l.client.restart workerId }
  | e => { l with client := l.client.step e }

def step (l : Link) : LinkEvent → Link
  | .act a =>
    if a.drains l.node then l else { l with controller := MassDeployment.step l.controller a }
  | .tick sends => l.tick sends
  | .redeliver jobs =>
    { l with
      controller :=
        (writeQueue l.node fun q => q.expire fun j => jobs.contains j.id).after l.controller }
  | .restart =>
    { l.lose with
      controller := { l.controller with threads := [], alertState := [], gpuMailState := [] } }
  | .client e => l.clientStep e
  | .dial => { l.lose with connected := true }
  | .lose => l.lose
  | .deliver => l.deliver
  | .arrive => l.arrive
  -- the frame is dropped and the connection is closed
  | .refuse => { l with up := l.up.tail }

end Link

end MassDeployment
