import MassDeployment.Controller.Sockets
import MassDeployment.Controller.Results
import MassDeployment.Controller.Steady

set_option autoImplicit false

/-! # The connection table of the hub

What the operations of the hub do to the table of connections, the consumers and the sockets.
The proofs about the hub look at the operations through these lemmas only.
-/

namespace MassDeployment

open Js Prog

namespace Hub

/-! ## Looking up and changing the table -/

theorem connection_eq_some {h : Hub} {node : String} {conn : NodeConn}
    (hc : h.connection node = some conn) : conn ∈ h.connections ∧ conn.node = node :=
  ⟨List.mem_of_find?_eq_some hc, by simpa using List.find?_some hc⟩

theorem connection_eq_none {h : Hub} {node : String} (hc : h.connection node = none) :
    ∀ c ∈ h.connections, c.node ≠ node := by
  intro c hmem hne
  simpa [hne] using List.find?_eq_none.mp hc c hmem

theorem mem_setConnection {h : Hub} {conn c : NodeConn} :
    c ∈ (h.setConnection conn).connections ↔
      (c ∈ h.connections ∧ c.node ≠ conn.node) ∨ c = conn := by
  simp [setConnection]

/-- The entry of the node is gone, the others are left. -/
theorem mem_dropConnection {h : Hub} {node : String} {c : NodeConn} :
    c ∈ (h.dropConnection node).connections ↔ c ∈ h.connections ∧ c.node ≠ node := by
  unfold dropConnection
  cases hc : h.connection node with
  | some conn => simp [deleteConnection, clearInterval]
  | none => exact ⟨fun hmem => ⟨hmem, connection_eq_none hc c hmem⟩, And.left⟩

/-- An offline alert goes to the admins, or nothing happens but to its timer. -/
theorem fireOfflineAlert_eq (h : Hub) (node : String) :
    ∃ s pending, h.fireOfflineAlert node =
      { h with controller := s, pendingOfflineAlerts := pending } ∧
      (s = h.controller ∨ ∃ label, s = (alertNodeOffline node label).after h.controller) := by
  have same : ∃ s pending, h.cancelOfflineAlert node =
      { h with controller := s, pendingOfflineAlerts := pending } ∧
      (s = h.controller ∨ ∃ label, s = (alertNodeOffline node label).after h.controller) :=
    ⟨_, _, rfl, .inl rfl⟩
  simp only [fireOfflineAlert]
  split
  · exact same
  · split
    · exact same
    · split
      · exact same
      · exact ⟨_, _, rfl, .inr ⟨_, rfl⟩⟩

theorem dropConnection_controller (h : Hub) (node : String) :
    (h.dropConnection node).controller = h.controller := by
  unfold dropConnection
  cases h.connection node <;> rfl

/-- What deregistering a node leaves: its entry is dropped, its row says offline, and the
admins may have been alerted. -/
theorem deregisterNode_eq (h : Hub) (node : String) :
    ∃ s pending, h.deregisterNode node =
      { h.dropConnection node with controller := s, pendingOfflineAlerts := pending } ∧
      (s = (markNodeOffline node).after h.controller ∨
        ∃ label, s = (alertNodeOffline node label).after
          ((markNodeOffline node).after h.controller)) := by
  simp only [deregisterNode]
  split
  · obtain ⟨s, pending, he, hs⟩ := fireOfflineAlert_eq
      (((h.dropConnection node).run (markNodeOffline node)).cancelOfflineAlert node) node
    refine ⟨s, pending, he, ?_⟩
    simpa only [cancelOfflineAlert, run, dropConnection_controller] using hs
  · exact ⟨_, _, rfl, .inl (by simp only [cancelOfflineAlert, run, dropConnection_controller])⟩

/-! ## Sockets -/

/-- The hellos accepted on a socket. -/
def hellos (h : Hub) (ws : Nat) : List (String × String) :=
  match h.sockets[ws]? with
  | some socket => socket.hellos
  | none => []

theorem socket_onSocket (h : Hub) (ws w : Nat) (f : Socket → Socket) :
    (h.onSocket ws f).sockets[w]? =
      if ws = w then (h.sockets[w]?).map f else h.sockets[w]? := by
  simp only [onSocket, List.getElem?_modify]
  split <;> simp

theorem readyState_onSocket (h : Hub) (ws w : Nat) {f : Socket → Socket}
    (hf : ∀ s, (f s).readyState = s.readyState) :
    (h.onSocket ws f).readyState w = h.readyState w := by
  unfold readyState
  rw [socket_onSocket]
  by_cases hw : ws = w
  · rw [if_pos hw]
    cases h.sockets[w]? with
    | none => rfl
    | some s => exact hf s
  · rw [if_neg hw]

/-- A write that keeps the hellos of the socket keeps all hellos. -/
theorem hellos_onSocket (h : Hub) (ws w : Nat) (f : Socket → Socket)
    (hf : ∀ s, (f s).hellos = s.hellos) : (h.onSocket ws f).hellos w = h.hellos w := by
  simp only [hellos, socket_onSocket]
  by_cases hw : ws = w
  · rw [if_pos hw]
    cases h.sockets[w]? with
    | none => rfl
    | some s => exact hf s
  · rw [if_neg hw]

theorem hellos_close (h : Hub) (ws w : Nat) : (h.close ws).hellos w = h.hellos w :=
  hellos_onSocket h ws w _ fun _ => rfl

/-! ## Hellos -/

theorem verifyNodeAuth_eq_ok {s : Controller} {name token tokenHash : String}
    (h : verifyNodeAuth s name token = .ok tokenHash) :
    ∃ row, s.db.node name = some row ∧ row.allowed = true ∧ row.tokenHash = some tokenHash ∧
      s.host.nodeTokenHash name token = tokenHash := by
  unfold verifyNodeAuth at h
  split at h
  · cases h
  · split at h
    · cases h
    · split at h
      · cases h
      · rename_i row hrow
        split at h
        · cases h
        · rename_i hallowed
          split at h
          · cases h
          · rename_i hash hhash
            split at h
            · cases h
            · split at h
              · cases h
              · rename_i hsame
                cases h
                exact ⟨row, hrow, by simpa using hallowed, hhash, by simpa using hsame⟩

/-- The hub as `handleHello` leaves it in front of `connect`: an entry of a socket that is no
longer open was taken over. -/
def takeOver (h : Hub) (node : String) : Hub :=
  match h.connection node with
  | some existing =>
    ((h.clearInterval existing.consumer).close existing.ws).onSocket existing.ws
      fun s => { s with superseded := true }
  | none => h

/-- Either a hello is refused and its socket closed, or the socket is connected; an entry in
the way belonged to a socket that is not open. -/
theorem handleHello_cases (h : Hub) (ws : Nat) (frame : HelloFrame) :
    (h.handleHello ws frame = (none, h.close ws) ∧
      (helloAllowed h.controller frame = true → ∃ existing,
        h.connection frame.node = some existing ∧ h.readyState existing.ws = .opened)) ∨
    ∃ tokenHash, verifyNodeAuth h.controller frame.node frame.token = .ok tokenHash ∧
      helloAllowed h.controller frame = true ∧
      h.handleHello ws frame =
        (some frame.node, (h.takeOver frame.node).connect ws frame tokenHash) ∧
      ∀ existing, h.connection frame.node = some existing →
        h.readyState existing.ws ≠ .opened := by
  unfold handleHello helloAllowed takeOver
  cases hauth : verifyNodeAuth h.controller frame.node frame.token with
  | error e => exact .inl ⟨rfl, fun h => by simp [Except.toOption] at h⟩
  | ok tokenHash =>
      cases hcomp : isProtocolCompatible frame.v with
      | false => exact .inl ⟨rfl, fun h => by simp at h⟩
      | true =>
          cases hconn : h.connection frame.node with
          | none => exact .inr ⟨tokenHash, rfl, rfl, rfl, fun _ h => by cases h⟩
          | some existing =>
              by_cases hopen : h.readyState existing.ws = .opened
              · exact .inl ⟨by simp [hopen], fun _ => ⟨existing, rfl, hopen⟩⟩
              · refine .inr ⟨tokenHash, rfl, rfl, by simp [hopen], fun e he => ?_⟩
                cases he
                exact hopen

theorem takeOver_controller (h : Hub) (node : String) :
    (h.takeOver node).controller = h.controller := by
  unfold takeOver
  cases h.connection node <;> rfl

theorem takeOver_connections (h : Hub) (node : String) :
    (h.takeOver node).connections = h.connections := by
  unfold takeOver
  cases h.connection node <;> rfl

theorem takeOver_sent (h : Hub) (node : String) : (h.takeOver node).sent = h.sent := by
  unfold takeOver
  cases h.connection node <;> rfl

theorem hellos_takeOver (h : Hub) (node : String) (w : Nat) :
    (h.takeOver node).hellos w = h.hellos w := by
  unfold takeOver
  cases h.connection node with
  | none => rfl
  | some existing =>
      refine (hellos_onSocket _ _ _ _ ?_).trans (hellos_close _ _ _)
      exact fun _ => rfl

theorem mem_connect {h : Hub} {ws : Nat} {frame : HelloFrame} {tokenHash : String} {c : NodeConn} :
    c ∈ (h.connect ws frame tokenHash).connections ↔
      (c ∈ h.connections ∧ c.node ≠ frame.node) ∨
        c = { ws, node := frame.node, consumer := h.nextConsumer, tokenHash, isAlive := true } :=
  mem_setConnection

/-! ## Deregistration -/

/-- An alert leaves the database as it was. -/
theorem alertNodeOffline_db (node : String) (label : Option String) (s : Controller) :
    ((alertNodeOffline node label).after s).db = s.db := (muted_alertAdmins _ _ _ _).1

/-! ## Sweeps and ticks -/

theorem sweep_closes (h : Hub) (dead : List NodeConn) :
    ∃ sockets, dead.foldl (fun h c => h.close c.ws) h = { h with sockets := sockets } := by
  induction dead generalizing h with
  | nil => exact ⟨_, rfl⟩
  | cons c rest ih =>
      obtain ⟨sockets, he⟩ := ih (h.close c.ws)
      exact ⟨sockets, he⟩

end Hub

end MassDeployment
