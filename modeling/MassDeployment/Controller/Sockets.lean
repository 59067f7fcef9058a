import MassDeployment.Controller.Acts

set_option autoImplicit false

/-! # The sockets of the hub (`hub.ts`)

The hub over its sockets: who is connected, which consumer feeds which socket, and what the
events of a socket do. A socket is known by its place in `Hub.sockets`, in the order of the
`connection` events, and stays there after it has closed.

Every event of the event loop is one `Stimulus`; handlers run to their end before the next
event. What a handler does to the databases is an `Op` of the controller, run where the
source calls it. Some fields are records of what happened that the source does not keep:
which hellos a socket had accepted, whether its entry was taken over or dropped, and the
task frames sent.
-/

namespace MassDeployment

open Js

/-! ## State -/

/-- `ws.readyState`, from `OPEN` on. -/
inductive ReadyState where
  | opened | closing | closed
  deriving DecidableEq, Repr

/-- A socket with the variables its handlers close over. -/
structure Socket where
  readyState : ReadyState := .opened
  /-- The node the last hello was accepted for. -/
  node : Option String := none
  tokens : ℚ
  lastRefill : Nat
  /-- Whether the deadline of the hello is still pending. -/
  helloTimer : Bool := true
  /-- The hellos accepted on this socket: node and token. -/
  hellos : List (String × String) := []
  /-- Another hello for its node took over its entry. -/
  superseded : Bool := false
  /-- A consumer tick dropped it because its node was no longer authorised. -/
  revoked : Bool := false
  deriving DecidableEq

/-- An entry of `connections`. -/
structure NodeConn where
  ws : Nat
  node : String
  /-- The interval that feeds the socket. -/
  consumer : Nat
  tokenHash : String
  isAlive : Bool
  deriving DecidableEq

/-- A running interval `setInterval(() => drainNode(node, ws), 400)`. -/
structure Consumer where
  id : Nat
  node : String
  ws : Nat
  deriving DecidableEq

/-- A task frame that was sent, with the row its node had at that moment. -/
structure Sent where
  ws : Nat
  node : String
  frame : TaskFrame
  row : Option NodeRow

structure Hub where
  controller : Controller
  sockets : List Socket := []
  connections : List NodeConn := []
  consumers : List Consumer := []
  /-- The next interval. -/
  nextConsumer : Nat := 0
  /-- The nodes with a pending offline alert. -/
  pendingOfflineAlerts : List String := []
  /-- Newest first. -/
  sent : List Sent := []

def msgRatePerSec : ℚ := 50

def msgBurst : ℚ := 100

/-- Refill the token bucket. -/
def Socket.refill (s : Socket) (now : Nat) : Socket :=
  { s with
    tokens := min msgBurst (s.tokens + ((now : ℚ) - s.lastRefill) / 1000 * msgRatePerSec)
    lastRefill := now }

namespace Hub

/-- Run a function of the controller. -/
def run {α : Type} (h : Hub) (x : Op α) : Hub := { h with controller := x.after h.controller }

/-- Write to one socket. -/
def onSocket (h : Hub) (ws : Nat) (f : Socket → Socket) : Hub :=
  { h with sockets := h.sockets.modify ws f }

/-- `connections.get(node)`. -/
def connection (h : Hub) (node : String) : Option NodeConn :=
  h.connections.find? fun c => c.node == node

/-- `ws.readyState`. -/
def readyState (h : Hub) (ws : Nat) : ReadyState :=
  match h.sockets[ws]? with
  | some socket => socket.readyState
  | none => .closed

/-- `ws.close()` and `ws.terminate()`: the socket no longer counts as open; its `close` event
is still to come. -/
def close (h : Hub) (ws : Nat) : Hub :=
  h.onSocket ws fun s =>
    { s with readyState := if s.readyState = .opened then .closing else s.readyState }

/-- `clearInterval(consumer)`. -/
def clearInterval (h : Hub) (consumer : Nat) : Hub :=
  { h with consumers := h.consumers.filter fun c => c.id != consumer }

/-- `connections.delete(node)`. -/
def deleteConnection (h : Hub) (node : String) : Hub :=
  { h with connections := h.connections.filter fun c => c.node != node }

/-- `connections.set(conn.node, conn)`. -/
def setConnection (h : Hub) (conn : NodeConn) : Hub :=
  { h with connections := h.connections.filter (fun c => c.node != conn.node) ++ [conn] }

/-! ## The node registry -/

/-- Cancel any pending offline alert for a node. -/
def cancelOfflineAlert (h : Hub) (node : String) : Hub :=
  { h with pendingOfflineAlerts := h.pendingOfflineAlerts.filter fun n => n != node }

/-- The grace window is over: alert, unless the node is back. -/
def fireOfflineAlert (h : Hub) (node : String) : Hub :=
  let h := h.cancelOfflineAlert node
  if (h.connection node).isSome then h
  else
    match h.controller.db.node node with
    | none => h
    | some row => if row.online then h else h.run (alertNodeOffline node row.nodeAlias)

def registerNode (h : Hub) (node : String) (capabilities : Json) : Hub :=
  (h.cancelOfflineAlert node).run (MassDeployment.registerNode node capabilities)

/-- Stop the consumer of a node and drop its entry. -/
def dropConnection (h : Hub) (node : String) : Hub :=
  match h.connection node with
  | some conn => (h.clearInterval conn.consumer).deleteConnection node
  | none => h

def deregisterNode (h : Hub) (node : String) : Hub :=
  let h := ((h.dropConnection node).run (markNodeOffline node)).cancelOfflineAlert node
  if h.controller.settings.nodeOfflineGraceSeconds = 0 then h.fireOfflineAlert node
  else { h with pendingOfflineAlerts := h.pendingOfflineAlerts ++ [node] }

/-! ## Hellos -/

/-- Whether a hello passes the checks of `handleHello` on its own data: the credential and the
protocol version. -/
def helloAllowed (s : Controller) (frame : HelloFrame) : Bool :=
  (verifyNodeAuth s frame.node frame.token).toOption.isSome && isProtocolCompatible frame.v

/-- Start a consumer for an authenticated socket and enter it into the table. -/
def connect (h : Hub) (ws : Nat) (frame : HelloFrame) (tokenHash : String) : Hub :=
  let h := h.registerNode frame.node (frame.capabilities.getD (.obj []))
  let consumer := h.nextConsumer
  let h : Hub :=
    { h with
      consumers := h.consumers ++ [{ id := consumer, node := frame.node, ws }]
      nextConsumer := consumer + 1 }
  h.setConnection { ws, node := frame.node, consumer, tokenHash, isAlive := true }

/-- Authenticate a socket; returns the node it now speaks for. -/
def handleHello (h : Hub) (ws : Nat) (frame : HelloFrame) : Option String × Hub :=
  match verifyNodeAuth h.controller frame.node frame.token with
  | .error _ => (none, h.close ws)
  | .ok tokenHash =>
    if !isProtocolCompatible frame.v then (none, h.close ws)
    else
      match h.connection frame.node with
      | none => (some frame.node, h.connect ws frame tokenHash)
      | some existing =>
        -- a live node's queue is not given away
        if h.readyState existing.ws = .opened then (none, h.close ws)
        else
          let h := ((h.clearInterval existing.consumer).close existing.ws).onSocket existing.ws
            fun s => { s with superseded := true }
          (some frame.node, h.connect ws frame tokenHash)

/-! ## The consumer tick -/

/-- Claim one job of `node` and push it down the socket; the frame that was sent, if any. -/
def pushOne (node : String) (sent : Bool) : Op (Option TaskFrame) := do
  match ← claimTask node (hubWorker node) with
  | none => return none
  | some (jobId, frame) =>
    if sent then
      ackTask node jobId (hubWorker node)
      let _ ← markTaskState node frame.id .sent none none false
      bumpAttempts node frame.id
      return some frame
    else
      retryTask node jobId (hubWorker node)
      return none

/-- The batch of one tick: one entry for each of the up to twenty sends. -/
def push (h : Hub) (node : String) (ws : Nat) : List Bool → Hub
  | [] => h
  | sent :: rest =>
    match (pushOne node sent).run h.controller with
    | (.ok (some frame), s) =>
      push
        { h with
          controller := s
          sent := ⟨ws, node, frame, h.controller.db.node node⟩ :: h.sent } node ws rest
    | (_, s) => { h with controller := s }

def drainNode (h : Hub) (node : String) (ws : Nat) (sends : List Bool) : Hub :=
  if h.readyState ws ≠ .opened then h
  else
    match h.connection node with
    | none => h
    | some conn =>
      if conn.ws ≠ ws then h
      else if !h.controller.db.nodeStillAuthorized node conn.tokenHash then
        ((h.close ws).onSocket ws fun s => { s with revoked := true }).deregisterNode node
      else h.push node ws (sends.take 20)

/-! ## Messages -/

/-- A parsed frame arrives on a socket. -/
def receive (h : Hub) (ws : Nat) (authenticated : Option String) : InboundFrame → Hub
  | .hello frame =>
    let (node, h) := h.handleHello ws frame
    h.onSocket ws fun s =>
      { s with
        node
        helloTimer := s.helloTimer && node.isNone
        hellos := if node.isSome then (frame.node, frame.token) :: s.hellos else s.hellos }
  | frame =>
    match authenticated with
    | none => h
    | some node => h.run (ingestFrame node frame)

/-- `ws.on("message")`; `raw` is what `JSON.parse` made of it. -/
def message (h : Hub) (ws : Nat) (raw : Option Json) : Hub :=
  match h.sockets[ws]? with
  | none => h
  | some socket =>
    if socket.readyState = .closed then h
    else
      let now := h.controller.now
      let h := h.onSocket ws fun s => s.refill now
      if (socket.refill now).tokens < 1 then h.close ws
      else
        let h := h.onSocket ws fun s => { s with tokens := s.tokens - 1 }
        match raw.bind parseInboundFrame with
        | none => h
        | some frame => h.receive ws socket.node frame

/-! ## Events -/

/-- The handler of `close` and `error`. -/
def gone (h : Hub) (ws : Nat) : Hub :=
  match (h.sockets[ws]?).bind Socket.node with
  | some node => (h.onSocket ws fun s => { s with helloTimer := false }).deregisterNode node
  | none => h.onSocket ws fun s => { s with helloTimer := false }

/-- The liveness sweep: terminate the connections that missed the last ping, ping the rest. -/
def sweep (h : Hub) : Hub :=
  let dead := h.connections.filter fun c => !c.isAlive
  let h := dead.foldl (fun h c => h.close c.ws) h
  { h with connections := h.connections.map fun c => { c with isAlive := false } }

end Hub

/-- An act that does not come from the hub itself. -/
def Act.outside : Act → Bool
  | .frame .. | .registerNode .. | .deregisterNode .. | .drainNode .. => false
  | _ => true

/-- What happens next. -/
inductive Stimulus where
  /-- A socket opens. -/
  | connection
  | message (ws : Nat) (raw : Option Json)
  /-- A socket has closed. -/
  | closed (ws : Nat)
  | error (ws : Nat)
  | pong (ws : Nat)
  | helloTimeout (ws : Nat)
  | liveness
  /-- An interval fires; the list says which of its sends return. -/
  | tick (consumer : Nat) (sends : List Bool)
  | offlineAlert (node : String)
  /-- The claims on these jobs expire: they are handed out again. -/
  | redeliver (node : String) (jobs : List Nat)
  /-- The controller process starts anew; its sockets are gone. -/
  | restart
  /-- Everything that happens outside the hub. -/
  | outside (a : Act) (h : a.outside = true)

/-- One event of the event loop. -/
def Hub.step (h : Hub) : Stimulus → Hub
  | .connection =>
    { h with sockets := h.sockets ++ [{ tokens := msgBurst, lastRefill := h.controller.now }] }
  | .message ws raw => h.message ws raw
  | .closed ws =>
    if h.readyState ws = .closed then h
    else (h.onSocket ws fun s => { s with readyState := .closed }).gone ws
  | .error ws => if h.readyState ws = .closed then h else (h.close ws).gone ws
  | .pong ws =>
    { h with
      connections := h.connections.map fun c => if c.ws = ws then { c with isAlive := true } else c }
  | .helloTimeout ws =>
    match h.sockets[ws]? with
    | none => h
    | some socket =>
      if !socket.helloTimer then h
      else
        let h := h.onSocket ws fun s => { s with helloTimer := false }
        if socket.node.isNone then h.close ws else h
  | .liveness => h.sweep
  | .tick consumer sends =>
    match h.consumers.find? fun c => c.id == consumer with
    | none => h
    | some c => h.drainNode c.node c.ws sends
  | .offlineAlert node =>
    if h.pendingOfflineAlerts.contains node then h.fireOfflineAlert node else h
  | .redeliver node jobs => h.run (writeQueue node fun q => q.expire fun j => jobs.contains j.id)
  | .restart =>
    { controller := { h.controller with threads := [], alertState := [], gpuMailState := [] }
      sockets := h.sockets.map fun s => { s with readyState := .closed }
      sent := h.sent }
  | .outside a _ => { h with controller := MassDeployment.step h.controller a }

/-- The hub of a controller at rest: no node counts as online. -/
structure Controller.Resting (s : Controller) : Prop where
  offline : ∀ r ∈ s.db.nodes.rows, r.online = false

/-- The hub before its first event. -/
def Hub.start (s : Controller) : Hub := { controller := s }

/-- The hello of an agent. -/
def helloOf (node token : String) : Json :=
  .obj [("type", .str "hello"), ("v", .num (.fin 2)), ("node", .str node), ("token", .str token)]

end MassDeployment
