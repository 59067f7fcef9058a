import MassDeployment.Controller.Delivery
import MassDeployment.Controller.Tokens

set_option autoImplicit false

/-! # The table of connections and the sockets

A socket that is open and authenticated is meant to be the one its node's entry refers to, an
entry goes with its socket, and a node counts as online while it has an entry. The handlers keep
the entry of a node by the name they captured and do not ask whose entry it is: a socket that goes
takes the entry of its successor along, and a second hello on one socket loses track of the entry
of the first. This file shows that nothing else breaks the table.
-/

namespace MassDeployment

open Js Prog

/-! ## The online flag -/

/-- Whether a node counts as online. -/
def Db.online (d : Db) (name : String) : Bool := (d.node name).any NodeRow.online

/-- The same nodes count as online. -/
def SameOnline (s s' : Controller) : Prop := ∀ name, s'.db.online name = s.db.online name

instance : IsPreorder Controller SameOnline where
  refl _ _ := rfl
  trans _ _ _ h h' name := (h' name).trans (h name)

theorem SameOnline.of_nodes {s s' : Controller} (h : s'.db.nodes = s.db.nodes) : SameOnline s s' := by
  intro name
  rw [Db.online, Db.online, Db.node, Db.node, h]

theorem SameStanding.online {s s' : Controller} (h : SameStanding s s') : SameOnline s s' := by
  have key : ∀ row : Option NodeRow,
      row.any NodeRow.online = (row.map NodeRow.standing).any fun x => x.2.2.2.2.1 := by
    intro row
    cases row <;> rfl
  intro name
  rw [Db.online, Db.online, key, key, h.node]

theorem online_update (p : NodeRow → Bool) (f : NodeRow → NodeRow) (h : Row.Keeps p f)
    (hname : ∀ r, (f r).name = r.name) (s : Controller) (name : String) :
    ((Slot.nodes.update p f h).after s).db.online name =
      (s.db.node name).any fun r => if p r then (f r).online else r.online := by
  rw [Db.online, node_update p f h hname]
  cases s.db.node name with
  | none => rfl
  | some r =>
      show (if p r then f r else r).online = if p r then (f r).online else r.online
      split <;> rfl

/-- Updates that do not write the flag. -/
theorem sameOnline_update (p : NodeRow → Bool) (f : NodeRow → NodeRow) (h : Row.Keeps p f)
    (hf : ∀ r, (f r).name = r.name ∧ (f r).online = r.online) :
    Respects SameOnline (Slot.nodes.update p f h) := by
  intro s name
  show ((Slot.nodes.update p f h).after s).db.online name = _
  rw [online_update p f h (fun r => (hf r).1), Db.online]
  cases s.db.node name with
  | none => rfl
  | some r =>
      show (if p r then (f r).online else r.online) = r.online
      rw [(hf r).2, ite_self]

/-- An update of one node's row that sets the flag. -/
theorem online_updateNode (name : String) (f : NodeRow → NodeRow) (h) {online : Bool}
    (hf : ∀ r, (f r).online = online) (s : Controller) (n : String) :
    ((updateNode name f h).after s).db.online n =
      if n = name then (s.db.node name).isSome && online else s.db.online n := by
  rw [updateNode, online_update _ f _ fun r => (h r).2]
  by_cases hn : n = name
  · subst hn
    rw [if_pos rfl]
    cases hrow : s.db.node n with
    | none => rfl
    | some r =>
        show (if r.name == n then (f r).online else r.online) = online
        rw [if_pos (Table.find_some hrow).2, hf]
  · rw [if_neg hn, Db.online]
    cases hrow : s.db.node n with
    | none => rfl
    | some r =>
        have hrn : r.name = n := by simpa using (Table.find_some hrow).2
        show (if r.name == name then (f r).online else r.online) = r.online
        rw [if_neg (by simpa [hrn] using hn)]

/-- A connected node counts as online, the others as before. -/
theorem online_registerNode (name : String) (capabilities : Json) {s : Controller}
    (hrow : (s.db.node name).isSome = true) (n : String) :
    ((registerNode name capabilities).after s).db.online n =
      if n = name then true else s.db.online n := by
  unfold registerNode
  rw [Prog.after, run_read_bind]
  dsimp only [id]
  cases hr : s.db.node name with
  | none => rw [hr] at hrow; cases hrow
  | some r =>
      have h := online_updateNode name
        (fun n => { n with
          lastSeen := some s.now, online := true, capabilities := .text capabilities })
        (fun _ => ⟨rfl, rfl⟩) (fun _ => rfl) s n
      rw [hrow, Bool.true_and] at h
      exact h

theorem online_markNodeOffline (name : String) (s : Controller) (n : String) :
    ((markNodeOffline name).after s).db.online n = if n = name then false else s.db.online n := by
  have h := online_updateNode name
    (fun n => { n with online := false, lastSeen := some s.now }) (fun _ => ⟨rfl, rfl⟩)
    (fun _ => rfl) s n
  rw [Bool.and_false] at h
  exact h

/-! ## The registry -/

theorem sameOnline_audit (actor : Option String) (action : String) (target detail : Option String) :
    Respects SameOnline (audit actor action target detail) :=
  .bind (.read _) fun _ _ => .of_nodes rfl

/-- A new node is offline. -/
theorem sameOnline_insertNode {mk : Nat → NodeRow} {hmk : ∀ i, (mk i).id = i}
    (hoff : ∀ i, (mk i).online = false) : Respects SameOnline (Slot.nodes.insert mk hmk) := by
  intro s
  refine (wp_after (P := fun s' => SameOnline s s') (x := Slot.nodes.insert mk hmk)).mp ?_
  refine wp_mono wp_insertNode ?_ ?_
  · rintro i s' ⟨-, hnode⟩ name
    rw [Db.online, Db.online, hnode]
    cases s.db.node name with
    | some r => rfl
    | none =>
        rw [Option.none_or]
        split
        · exact hoff i
        · rfl
  · rintro _ _ rfl
    exact refl_of SameOnline _

theorem sameOnline_provisionNode (name : String) (actor : Option String) :
    Respects SameOnline (provisionNode name actor) := by
  refine .ite (fun _ => ?_) fun _ => respects_failWith _
  refine .bind (fun _ => .of_nodes rfl) fun token => .bind (.read _) fun s => ?_
  dsimp only
  split
  · refine .bind (sameOnline_update _ _ _ fun _ => ⟨rfl, rfl⟩) fun _ => ?_
    exact .bind (sameOnline_audit _ _ _ _) fun _ => .pure _
  · refine .bind (sameOnline_insertNode fun _ => rfl) fun _ => ?_
    exact .bind (sameOnline_audit _ _ _ _) fun _ => .pure _

theorem sameOnline_setNodeColdStorage (name : String) (backend : ColdBackend)
    (ownerName actor : Option String) :
    Respects SameOnline (setNodeColdStorage name backend ownerName actor) := by
  refine .bind (.read _) fun row => ?_
  dsimp only
  split
  · exact respects_failWith _
  · refine .bind (.read _) fun _ => .ite (fun _ => respects_failWith _) fun _ =>
      .bind (respects_coldOwner _ _ _ _) fun ownerId => .bind ?_ fun _ => sameOnline_audit _ _ _ _
    exact sameOnline_update _ _ _ fun _ => ⟨rfl, rfl⟩

/-- The row of an offline node is deleted. -/
theorem wp_deleteOffline {name : String} {r : NodeRow} {s : Controller}
    (hrow : s.db.node name = some r) :
    wp (deleteNodeRow r.id) (fun _ s' => s.db.online name = false → SameOnline s s')
      (fun _ _ => True) s := by
  unfold deleteNodeRow
  rw [wp_bind, wp_query, wp_ite]
  split
  · trivial
  · intro hoff n
    show ((s.db.nodes.rows.filter _).find? _).any _ = _
    rw [find_deleteNode hrow]
    split
    · subst n
      exact hoff.symm
    · rfl

/-- Deleting a node that is not online takes nobody's flag, nor does a deletion that is refused. -/
theorem wp_deleteNode_online (name : String) (actor : Option String) (force : Bool)
    (s : Controller) :
    wp (deleteNode name actor force) (fun _ s' => s.db.online name = false → SameOnline s s')
      (fun _ s' => SameOnline s s') s := by
  have same := refl_of SameOnline s
  unfold deleteNode
  rw [wp_bind, wp_query]
  cases hrow : s.db.node name with
  | none => exact same
  | some r =>
      refine wp_ite .. |>.mpr ?_
      split
      · exact same
      · rw [wp_bind, wp_query, wp_bind, wp_query]
        refine wp_ite .. |>.mpr ?_
        split
        · exact same
        · refine wp_ite .. |>.mpr ?_
          split
          · exact same
          · rw [wp_bind, wp_atomically]
            refine wp_mono (Q := fun _ s' => s.db.online name = false → SameOnline s s')
              (E := fun _ _ => True) ?_ (fun _ s' h => ?_) fun _ _ _ => same
            · have rest : ∀ r' s', s'.db.node name = some r' → r'.id = r.id → SameOnline s s' →
                  wp (do
                    deleteTasks fun t => t.node == name
                    Op.writeLists fun d =>
                      { d with gpuSnapshot := d.gpuSnapshot.filter fun g => g.node != name }
                    deleteNodeRow r.id)
                  (fun _ s'' => s.db.online name = false → SameOnline s s'') (fun _ _ => True) s' := by
                intro r' s' hr' hid hs'
                rw [← hid]
                refine wp_mono (wp_deleteOffline hr') (fun _ s'' h hoff => ?_) fun _ _ _ => trivial
                exact trans_of SameOnline hs' (h ((hs' name).trans hoff))
              cases force with
              | false => exact rest r s hrow rfl same
              | true =>
                  obtain ⟨-, hkept⟩ := sameCredentials_detach r.id s
                  obtain ⟨r', hr', hid⟩ := hkept name r hrow
                  refine rest r' _ hr' hid ?_
                  exact trans_of SameOnline (.of_nodes rfl)
                    (sameOnline_update (fun n => n.coldOwnerNodeId == some r.id)
                      (fun n => { n with coldOwnerNodeId := none, coldReady := false })
                      (keeps_node _ _ fun _ => ⟨rfl, rfl⟩) (fun _ => ⟨rfl, rfl⟩)
                      ((deletePlacements fun p => p.nodeId == r.id).after s))
            · show s.db.online name = false → SameOnline s ((audit _ _ _ _).after s')
              exact fun hoff => trans_of SameOnline (h hoff) (sameOnline_audit _ _ _ _ s')

theorem sameOnline_deleteNode {name : String} {actor : Option String} {force : Bool}
    {s : Controller} (h : s.db.online name = false ∨
      ∃ e, ((deleteNode name actor force).run s).1 = .error e) :
    SameOnline s ((deleteNode name actor force).after s) := by
  have hwp := wp_deleteNode_online name actor force s
  unfold wp at hwp
  unfold Prog.after
  cases hrun : (deleteNode name actor force).run s with
  | mk out s' =>
      rw [hrun] at hwp h
      cases out with
      | error e => exact hwp
      | ok u =>
          rcases h with hoff | ⟨e, he⟩
          · exact hwp hoff
          · cases he

/-- Outside the hub only the deletion of a node changes who counts as online. -/
theorem sameOnline_outside {s : Controller} {a : Act} (ha : a.outside = true)
    (hdelete : ∀ name actor force, a = .deleteNode name actor force → s.db.online name = false ∨
      ∃ e, ((deleteNode name actor force).run s).1 = .error e) :
    SameOnline s (step s a) := by
  cases a with
  | provisionNode name actor =>
      have h : Respects SameOnline (discard (provisionNode name actor)) :=
        .bind (sameOnline_provisionNode name actor) fun _ => .pure _
      exact h s
  | rotateNodeToken name actor =>
      have h : Respects SameOnline (discard (rotateNodeToken name actor)) := by
        refine .bind (.bind (.read _) fun row => ?_) fun _ => .pure _
        cases row with
        | none => exact respects_failWith _
        | some _ => exact sameOnline_provisionNode name actor
      exact h s
  | revokeNode name actor =>
      have h : Respects SameOnline (revokeNode name actor) :=
        .bind (sameOnline_update _ _ _ fun _ => ⟨rfl, rfl⟩) fun _ => sameOnline_audit _ _ _ _
      exact h s
  | setNodeColdStorage name backend ownerName actor =>
      exact sameOnline_setNodeColdStorage name backend ownerName actor s
  | deleteNode name actor force => exact sameOnline_deleteNode (hdelete _ _ _ rfl)
  | registerNode node capabilities => cases ha
  | deregisterNode node => cases ha
  | _ => exact SameStanding.online (standing_step id)

/-! ## The table as a map -/

namespace Hub

/-- Looking a node up where the entries of one node were taken out. -/
theorem find_others (connections : List NodeConn) (node n : String) :
    (connections.filter fun c => c.node != node).find? (fun c => c.node == n) =
      if n = node then none else connections.find? fun c => c.node == n := by
  rw [List.find?_filter]
  by_cases hn : n = node
  · rw [hn, if_pos rfl]
    exact List.find?_eq_none.mpr fun c _ => by simp
  · rw [if_neg hn]
    refine List.find?_congr fun c _ => ?_
    by_cases hc : c.node = n
    · simp [hc, hn]
    · simp [hc]

theorem connection_setConnection (h : Hub) (conn : NodeConn) (node : String) :
    (h.setConnection conn).connection node =
      if node = conn.node then some conn else h.connection node := by
  unfold connection setConnection
  rw [List.find?_append, find_others]
  by_cases hn : node = conn.node
  · simp [hn]
  · simp [hn, Ne.symm hn]

theorem connection_dropConnection (h : Hub) (node n : String) :
    (h.dropConnection node).connection n = if n = node then none else h.connection n := by
  unfold dropConnection
  cases hc : h.connection node with
  | none =>
      by_cases hn : n = node
      · rw [hn, if_pos rfl]
        exact hc
      · rw [if_neg hn]
  | some conn => exact find_others h.connections node n

theorem dropConnection_onSocket (h : Hub) (ws : Nat) (f : Socket → Socket) (node : String) :
    (h.onSocket ws f).dropConnection node = (h.dropConnection node).onSocket ws f := by
  have hsame : (h.onSocket ws f).connection node = h.connection node := rfl
  unfold dropConnection
  rw [hsame]
  cases h.connection node <;> rfl

/-- Entries that are rewritten stay under their names. -/
theorem connection_map (h : Hub) (g : NodeConn → NodeConn) (hg : ∀ c, (g c).node = c.node)
    (node : String) : ({ h with connections := h.connections.map g } : Hub).connection node =
      (h.connection node).map g := by
  unfold connection
  rw [List.find?_map]
  have hsame : ((fun c : NodeConn => c.node == node) ∘ g) = fun c => c.node == node := by
    funext c
    rw [Function.comp_apply, hg]
  rw [hsame]

theorem connection_deregisterNode (h : Hub) (node n : String) :
    (h.deregisterNode node).connection n = if n = node then none else h.connection n := by
  obtain ⟨s, pending, he, -⟩ := deregisterNode_eq h node
  rw [he]
  exact connection_dropConnection h node n

theorem online_deregisterNode (h : Hub) (node n : String) :
    (h.deregisterNode node).controller.db.online n =
      if n = node then false else h.controller.db.online n := by
  obtain ⟨s, pending, he, hs⟩ := deregisterNode_eq h node
  rw [he]
  rcases hs with rfl | ⟨label, rfl⟩
  · exact online_markNodeOffline node h.controller n
  · show ((alertNodeOffline node label).after _).db.online n = _
    rw [alertNodeOffline_db]
    exact online_markNodeOffline node h.controller n

/-- A socket after a write to one of them. -/
theorem socket_of_onSocket {h : Hub} {ws w : Nat} {f : Socket → Socket} {socket : Socket}
    (hs : (h.onSocket ws f).sockets[w]? = some socket) :
    ∃ before, h.sockets[w]? = some before ∧ socket = if ws = w then f before else before := by
  rw [socket_onSocket] at hs
  split at hs
  · obtain ⟨before, hb, rfl⟩ := Option.map_eq_some_iff.mp hs
    exact ⟨before, hb, (if_pos ‹_›).symm⟩
  · exact ⟨socket, hs, (if_neg ‹_›).symm⟩

/-- A write that closes no socket. -/
theorem onSocket_unclosed {h : Hub} {w : Nat} {socket : Socket} (ws : Nat) {f : Socket → Socket}
    (hf : ∀ s, (f s).readyState = .closed → s.readyState = .closed)
    (hs : h.sockets[w]? = some socket) (hstate : socket.readyState ≠ .closed) :
    ∃ after, (h.onSocket ws f).sockets[w]? = some after ∧ after.readyState ≠ .closed := by
  rw [socket_onSocket, hs]
  split
  · exact ⟨f socket, rfl, fun hc => hstate (hf socket hc)⟩
  · exact ⟨socket, rfl, hstate⟩

/-- `ws.close()` opens and closes nothing. -/
theorem closing_state (s : Socket) :
    (if s.readyState = .opened then ReadyState.closing else s.readyState) ≠ .opened ∧
      ((if s.readyState = .opened then ReadyState.closing else s.readyState) = .closed →
        s.readyState = .closed) := by
  cases s.readyState with
  | opened => exact ⟨nofun, nofun⟩
  | closing => exact ⟨nofun, nofun⟩
  | closed => exact ⟨nofun, fun _ => rfl⟩

/-- A socket that is open while another one closes. -/
theorem readyState_close {h : Hub} {ws w : Nat} (hopen : (h.close ws).readyState w = .opened) :
    w ≠ ws ∧ h.readyState w = .opened := by
  unfold Hub.close at hopen
  unfold readyState at hopen ⊢
  rw [socket_onSocket] at hopen
  by_cases hw : ws = w
  · rw [if_pos hw] at hopen
    cases hs : h.sockets[w]? with
    | none =>
        rw [hs] at hopen
        cases hopen
    | some s =>
        rw [hs] at hopen
        exact absurd hopen (closing_state s).1
  · rw [if_neg hw] at hopen
    exact ⟨Ne.symm hw, hopen⟩

/-- A write that closes the socket, behind `ws.close()`. -/
theorem onSocket_close (h : Hub) (ws : Nat) {f : Socket → Socket}
    (hf : ∀ s, f { s with
      readyState := if s.readyState = .opened then .closing else s.readyState } = f s) :
    h.onSocket ws f = (h.close ws).onSocket ws f := by
  have hsame : (f ∘ fun s => { s with
      readyState := if s.readyState = .opened then .closing else s.readyState }) = f := by
    funext s
    exact hf s
  unfold Hub.close onSocket
  rw [List.modify_modify_eq, hsame]

/-! ## What the table is meant to say -/

/-- The table matches the sockets and the online flags. -/
structure Matched (h : Hub) : Prop where
  /-- An open socket that speaks for a node is the one of its entry, and is fed. -/
  entered : ∀ ws socket node, h.sockets[ws]? = some socket → socket.readyState = .opened →
    socket.node = some node → socket.superseded = false → socket.revoked = false →
    ∃ conn, h.connection node = some conn ∧ conn.ws = ws ∧ ⟨conn.consumer, node, ws⟩ ∈ h.consumers
  /-- No entry refers to a socket that has closed. -/
  gone : ∀ node conn, h.connection node = some conn → h.readyState conn.ws ≠ .closed
  online : ∀ node, h.controller.db.online node = (h.connection node).isSome

/-- Sockets, entries and consumers belong together. -/
structure Tied (h : Hub) : Prop where
  live : ∀ node conn, h.connection node = some conn → ∃ socket, h.sockets[conn.ws]? = some socket ∧
    socket.node = some node ∧ socket.readyState ≠ .closed
  fed : ∀ node conn, h.connection node = some conn → ⟨conn.consumer, node, conn.ws⟩ ∈ h.consumers
  entered : ∀ ws socket node, h.sockets[ws]? = some socket → socket.readyState = .opened →
    socket.node = some node → ∃ conn, h.connection node = some conn ∧ conn.ws = ws
  ids : ∀ k ∈ h.consumers, ∀ k' ∈ h.consumers, k.id = k'.id → k = k'
  next : ∀ k ∈ h.consumers, k.id < h.nextConsumer

/-- A node counts as online while it has an entry. -/
def Flagged (h : Hub) : Prop := ∀ node, h.controller.db.online node = (h.connection node).isSome

theorem Tied.matched {h : Hub} (ht : h.Tied) (hf : h.Flagged) : h.Matched where
  entered ws socket node hs hopen hnode _ _ := by
    obtain ⟨conn, hconn, rfl⟩ := ht.entered ws socket node hs hopen hnode
    exact ⟨conn, hconn, rfl, ht.fed node conn hconn⟩
  gone node conn hconn := by
    obtain ⟨socket, hs, -, hstate⟩ := ht.live node conn hconn
    rw [readyState, hs]
    exact hstate
  online := hf

namespace Tied

variable {h : Hub}

theorem of_parts (ht : h.Tied) {h' : Hub} (hsockets : h'.sockets = h.sockets)
    (hconnections : h'.connections = h.connections) (hconsumers : h'.consumers = h.consumers)
    (hnext : h'.nextConsumer = h.nextConsumer) : h'.Tied where
  live := by
    simp only [connection, hconnections, hsockets]
    exact ht.live
  fed := by
    simp only [connection, hconnections, hconsumers]
    exact ht.fed
  entered := by
    simp only [connection, hconnections, hsockets]
    exact ht.entered
  ids := by
    rw [hconsumers]
    exact ht.ids
  next := by
    rw [hconsumers, hnext]
    exact ht.next

/-- A write to a socket that neither opens nor closes it, nor changes whom it speaks for. -/
theorem onSocket (ht : h.Tied) (ws : Nat) {f : Socket → Socket} (hnode : ∀ s, (f s).node = s.node)
    (hopen : ∀ s, (f s).readyState = .opened → s.readyState = .opened)
    (hclosed : ∀ s, (f s).readyState = .closed → s.readyState = .closed) :
    (h.onSocket ws f).Tied where
  live node conn hconn := by
    obtain ⟨socket, hs, hn, hstate⟩ := ht.live node conn hconn
    rw [socket_onSocket, hs]
    split
    · exact ⟨f socket, rfl, (hnode socket).trans hn, fun hc => hstate (hclosed socket hc)⟩
    · exact ⟨socket, rfl, hn, hstate⟩
  fed := ht.fed
  entered w socket node hs hstate hn := by
    obtain ⟨before, hb, rfl⟩ := socket_of_onSocket hs
    split at hstate
    · rw [if_pos ‹_›, hnode] at hn
      exact ht.entered w before node hb (hopen before hstate) hn
    · rw [if_neg ‹_›] at hn
      exact ht.entered w before node hb hstate hn
  ids := ht.ids
  next := ht.next

theorem close (ht : h.Tied) (ws : Nat) : (h.close ws).Tied :=
  ht.onSocket ws (fun _ => rfl) (fun s hs => absurd hs (closing_state s).1)
    fun s => (closing_state s).2

/-- A write to a socket without an entry, after which it does not need one. -/
theorem release (ht : h.Tied) {ws : Nat} (hfree : ∀ node conn, h.connection node = some conn →
    conn.ws ≠ ws) {f : Socket → Socket}
    (hidle : ∀ s, (f s).node = none ∨ (f s).readyState ≠ .opened) : (h.onSocket ws f).Tied where
  live node conn hconn := by
    obtain ⟨socket, hs, hrest⟩ := ht.live node conn hconn
    have hne : ws ≠ conn.ws := (hfree node conn hconn).symm
    rw [socket_onSocket, if_neg hne]
    exact ⟨socket, hs, hrest⟩
  fed := ht.fed
  entered w socket node hs hstate hn := by
    obtain ⟨before, hb, rfl⟩ := socket_of_onSocket hs
    split at hstate
    · rw [if_pos ‹_›] at hn
      rcases hidle before with hnone | hclosed
      · rw [hnone] at hn
        cases hn
      · exact absurd hstate hclosed
    · rw [if_neg ‹_›] at hn
      exact ht.entered w before node hb hstate hn
  ids := ht.ids
  next := ht.next

/-- The entry of a node goes, unless its socket is open. -/
theorem drop (ht : h.Tied) {node : String}
    (hdead : ∀ conn, h.connection node = some conn → h.readyState conn.ws ≠ .opened) :
    (h.dropConnection node).Tied := by
  cases hc : h.connection node with
  | none =>
      have hsame : h.dropConnection node = h := by
        unfold dropConnection
        rw [hc]
      rw [hsame]
      exact ht
  | some conn =>
      have hdrop : h.dropConnection node = (h.clearInterval conn.consumer).deleteConnection node := by
        unfold dropConnection
        rw [hc]
      have hsockets : (h.dropConnection node).sockets = h.sockets := by
        rw [hdrop]
        rfl
      have hnext : (h.dropConnection node).nextConsumer = h.nextConsumer := by
        rw [hdrop]
        rfl
      have hconsumers : ∀ k, k ∈ (h.dropConnection node).consumers ↔
          k ∈ h.consumers ∧ k.id ≠ conn.consumer := by
        intro k
        rw [hdrop]
        simp [clearInterval, deleteConnection]
      have hentry : ∀ n c, (h.dropConnection node).connection n = some c →
          n ≠ node ∧ h.connection n = some c := by
        intro n c hn
        rw [connection_dropConnection] at hn
        split at hn
        · cases hn
        · exact ⟨‹_›, hn⟩
      constructor
      · intro n c hn
        rw [hsockets]
        exact ht.live n c (hentry n c hn).2
      · intro n c hn
        obtain ⟨hne, hold⟩ := hentry n c hn
        refine (hconsumers _).mpr ⟨ht.fed n c hold, fun hid => hne ?_⟩
        -- two entries with one consumer are one entry
        have hsame := ht.ids _ (ht.fed n c hold) _ (ht.fed node conn hc) hid
        exact congrArg Consumer.node hsame
      · intro ws socket n hs hopen hn
        rw [hsockets] at hs
        obtain ⟨c, hcn, hws⟩ := ht.entered ws socket n hs hopen hn
        refine ⟨c, ?_, hws⟩
        rw [connection_dropConnection, if_neg, hcn]
        rintro rfl
        refine hdead c hcn ?_
        rw [hws, readyState, hs]
        exact hopen
      · intro k hk k' hk'
        exact ht.ids k ((hconsumers k).mp hk).1 k' ((hconsumers k').mp hk').1
      · intro k hk
        rw [hnext]
        exact ht.next k ((hconsumers k).mp hk).1

theorem deregister (ht : h.Tied) {node : String}
    (hdead : ∀ conn, h.connection node = some conn → h.readyState conn.ws ≠ .opened) :
    (h.deregisterNode node).Tied := by
  obtain ⟨s, pending, he, -⟩ := deregisterNode_eq h node
  rw [he]
  exact (ht.drop hdead).of_parts rfl rfl rfl rfl

/-- Entries that are rewritten keep their sockets. -/
theorem remark (ht : h.Tied) {g : NodeConn → NodeConn}
    (hg : ∀ c, (g c).node = c.node ∧ (g c).ws = c.ws ∧ (g c).consumer = c.consumer) :
    ({ h with connections := h.connections.map g } : Hub).Tied := by
  have hentry : ∀ node c, ({ h with connections := h.connections.map g } : Hub).connection node =
      some c → ∃ b, h.connection node = some b ∧ c = g b := by
    intro node c hc
    rw [connection_map h g fun c => (hg c).1] at hc
    obtain ⟨b, hb, rfl⟩ := Option.map_eq_some_iff.mp hc
    exact ⟨b, hb, rfl⟩
  constructor
  · intro node c hc
    obtain ⟨b, hb, rfl⟩ := hentry node c hc
    rw [(hg b).2.1]
    exact ht.live node b hb
  · intro node c hc
    obtain ⟨b, hb, rfl⟩ := hentry node c hc
    rw [(hg b).2.1, (hg b).2.2]
    exact ht.fed node b hb
  · intro ws socket node hs hopen hn
    obtain ⟨b, hb, hws⟩ := ht.entered ws socket node hs hopen hn
    refine ⟨g b, ?_, (hg b).2.1.trans hws⟩
    rw [connection_map h g fun c => (hg c).1, hb]
    rfl
  · exact ht.ids
  · exact ht.next

/-- A socket without an entry is connected to a node without one. -/
theorem connect (ht : h.Tied) {ws : Nat} {frame : HelloFrame} (tokenHash : String)
    {socket : Socket} (hsocket : h.sockets[ws]? = some socket) (hstate : socket.readyState ≠ .closed)
    (hnone : h.connection frame.node = none)
    (hfree : ∀ node conn, h.connection node = some conn → conn.ws ≠ ws) {f : Socket → Socket}
    (hf : ∀ s, (f s).node = some frame.node ∧ (f s).readyState = s.readyState) :
    ((h.connect ws frame tokenHash).onSocket ws f).Tied := by
  have hentry : ∀ node, ((h.connect ws frame tokenHash).onSocket ws f).connection node =
      if node = frame.node then
        some { ws, node := frame.node, consumer := h.nextConsumer, tokenHash, isAlive := true }
      else h.connection node := connection_setConnection _ _
  have hconsumers : ((h.connect ws frame tokenHash).onSocket ws f).consumers =
      h.consumers ++ [{ id := h.nextConsumer, node := frame.node, ws }] := rfl
  have hsock : ∀ w, ((h.connect ws frame tokenHash).onSocket ws f).sockets[w]? =
      if ws = w then (h.sockets[w]?).map f else h.sockets[w]? := fun w => socket_onSocket _ ws w f
  constructor
  · intro node conn hconn
    rw [hentry] at hconn
    split at hconn
    · obtain rfl := Option.some.inj hconn
      rw [hsock, if_pos rfl, hsocket]
      exact ⟨f socket, rfl, by rw [(hf socket).1, ‹node = _›], by rw [(hf socket).2]; exact hstate⟩
    · have hne : ws ≠ conn.ws := (hfree node conn hconn).symm
      rw [hsock, if_neg hne]
      exact ht.live node conn hconn
  · intro node conn hconn
    rw [hentry] at hconn
    rw [hconsumers]
    split at hconn
    · obtain rfl := Option.some.inj hconn
      rw [‹node = _›]
      exact List.mem_append_right _ (List.mem_singleton_self _)
    · exact List.mem_append_left _ (ht.fed node conn hconn)
  · intro w s node hs hopen hn
    obtain ⟨before, hb, rfl⟩ := socket_of_onSocket hs
    rw [hentry]
    split at hopen
    · rw [if_pos ‹_›, (hf before).1] at hn
      rw [if_pos (Option.some.inj hn).symm]
      exact ⟨_, rfl, ‹ws = w›⟩
    · rw [if_neg ‹_›] at hn
      obtain ⟨conn, hconn, hws⟩ := ht.entered w before node hb hopen hn
      rw [if_neg]
      · exact ⟨conn, hconn, hws⟩
      · rintro rfl
        rw [hnone] at hconn
        cases hconn
  · -- the new consumer has a number of its own
    have hnew : ∀ k ∈ h.consumers, k.id ≠ h.nextConsumer := fun k hk => (ht.next k hk).ne
    intro k hk k' hk' hid
    rw [hconsumers] at hk hk'
    rcases List.mem_append.mp hk with hk | hk <;> rcases List.mem_append.mp hk' with hk' | hk'
    · exact ht.ids k hk k' hk' hid
    · rw [List.mem_singleton.mp hk'] at hid
      exact absurd hid (hnew k hk)
    · rw [List.mem_singleton.mp hk] at hid
      exact absurd hid.symm (hnew k' hk')
    · rw [List.mem_singleton.mp hk, List.mem_singleton.mp hk']
  · intro k hk
    show k.id < h.nextConsumer + 1
    rw [hconsumers] at hk
    rcases List.mem_append.mp hk with hk | hk
    · exact (ht.next k hk).trans (Nat.lt_succ_self _)
    · rw [List.mem_singleton.mp hk]
      exact Nat.lt_succ_self _

end Tied

/-! ## When the table is kept -/

/-- A hello comes on a socket without an entry, or for the node of the entry once the socket is
closing; a socket that goes leaves no open successor behind; the deletion of a connected node is
refused; and the process restarts while no node is connected. -/
def Orderly (h : Hub) : Stimulus → Prop
  | .message ws raw => ∀ socket node conn frame, h.sockets[ws]? = some socket →
      socket.node = some node → h.connection node = some conn → conn.ws = ws →
      raw.bind parseInboundFrame = some (.hello frame) →
      1 ≤ (socket.refill h.controller.now).tokens →
        frame.node = node ∧ socket.readyState ≠ .opened ∧ helloAllowed h.controller frame = true
  | .closed ws | .error ws => ∀ socket node conn, h.sockets[ws]? = some socket →
      socket.readyState ≠ .closed → socket.node = some node → h.connection node = some conn →
      conn.ws ≠ ws → h.readyState conn.ws ≠ .opened
  | .restart => h.connections = []
  | .outside (.deleteNode name actor force) _ => h.connection name = none ∨
      ∃ e, ((deleteNode name actor force).run h.controller).1 = .error e
  | _ => True

namespace Tied

variable {h : Hub}

/-- The entry whose socket it is, is the one of the node the socket speaks for. -/
theorem entry_node (ht : h.Tied) {node : String} {conn : NodeConn} {socket : Socket}
    (hconn : h.connection node = some conn) (hs : h.sockets[conn.ws]? = some socket) :
    socket.node = some node := by
  obtain ⟨socket', hs', hn, -⟩ := ht.live node conn hconn
  rw [Option.some.inj (hs.symm.trans hs')]
  exact hn

/-- A hello for a node whose entry, if any, is one of a socket that is not open. -/
theorem hello (ht : h.Tied) {ws : Nat} {socket : Socket} (hs : h.sockets[ws]? = some socket)
    (hstate : socket.readyState ≠ .closed) (frame : HelloFrame) (known : Option String)
    (hown : ∀ node conn, h.connection node = some conn → conn.ws = ws →
      frame.node = node ∧ socket.readyState ≠ .opened ∧ helloAllowed h.controller frame = true) :
    (h.receive ws known (.hello frame)).Tied := by
  rcases handleHello_cases h ws frame with ⟨he, hrefused⟩ | ⟨tokenHash, -, -, he, hdead⟩
  · -- refused: the socket speaks for nobody any more, and had no entry
    simp only [receive, he]
    refine (ht.close ws).release (fun node conn hconn hws => ?_) fun _ => .inl rfl
    obtain ⟨rfl, hclosing, hallowed⟩ := hown node conn hconn hws
    obtain ⟨existing, hexisting, hopen⟩ := hrefused hallowed
    rw [Option.some.inj (hconn.symm.trans hexisting)] at hws
    rw [hws, readyState, hs] at hopen
    exact hclosing hopen
  · -- accepted: the entry in the way is dropped first
    simp only [receive, he]
    have hdrop := ht.drop hdead
    have hnone : (h.dropConnection frame.node).connection frame.node = none := by
      rw [connection_dropConnection, if_pos rfl]
    have hfree : ∀ node conn, (h.dropConnection frame.node).connection node = some conn →
        conn.ws ≠ ws := by
      intro node conn hconn hws
      rw [connection_dropConnection] at hconn
      split at hconn
      · cases hconn
      · exact ‹node ≠ _› (hown node conn hconn hws).1.symm
    have hf : ∀ s : Socket, ({ s with
        node := some frame.node
        helloTimer := s.helloTimer && (some frame.node).isNone
        hellos := if (some frame.node).isSome then (frame.node, frame.token) :: s.hellos
          else s.hellos } : Socket).node = some frame.node ∧ _ = s.readyState :=
      fun _ => ⟨rfl, rfl⟩
    cases hc : h.connection frame.node with
    | none =>
        have hsame : h.dropConnection frame.node = h := by
          unfold dropConnection
          rw [hc]
        have htake : h.takeOver frame.node = h := by
          unfold takeOver
          rw [hc]
        rw [hsame] at hdrop hnone hfree
        rw [htake]
        exact hdrop.connect tokenHash hs hstate hnone hfree hf
    | some existing =>
        have hentry : h.dropConnection frame.node =
            (h.clearInterval existing.consumer).deleteConnection frame.node := by
          unfold dropConnection
          rw [hc]
        have htake : h.takeOver frame.node =
            ((h.clearInterval existing.consumer).close existing.ws).onSocket existing.ws
              fun s => { s with superseded := true } := by
          unfold takeOver
          rw [hc]
        have hmarked := (hdrop.close existing.ws).onSocket existing.ws
          (f := fun s => { s with superseded := true }) (fun _ => rfl) (fun _ => id) fun _ => id
        obtain ⟨closing, hclosing, hclosingState⟩ := onSocket_unclosed
          (h := h.dropConnection frame.node)
          (f := fun s => { s with
            readyState := if s.readyState = .opened then .closing else s.readyState })
          existing.ws (fun s => (closing_state s).2)
          (by rw [hentry]; exact hs) hstate
        obtain ⟨marked, hmarkedSocket, hmarkedState⟩ := onSocket_unclosed existing.ws
          (f := fun s => { s with superseded := true }) (fun _ => id) hclosing hclosingState
        refine (hmarked.connect tokenHash hmarkedSocket hmarkedState hnone hfree
          hf).of_parts ?_ ?_ ?_ ?_
        · rw [htake, hentry]
          rfl
        · -- the new entry takes the place of the old one
          rw [htake, hentry]
          show h.connections.filter (fun c => c.node != frame.node) ++ _ =
            (h.connections.filter fun c => c.node != frame.node).filter
              (fun c => c.node != frame.node) ++ _
          rw [List.filter_filter]
          simp only [Bool.and_self]
          rfl
        · rw [htake, hentry]
          rfl
        · rw [htake, hentry]
          rfl

/-- A closing socket that goes takes the entry of its node along, which is not an open one's. -/
theorem closing_gone (ht : h.Tied) {ws : Nat} {socket : Socket}
    (hs : h.sockets[ws]? = some socket)
    (hdead : ∀ node conn, socket.node = some node → h.connection node = some conn →
      h.readyState conn.ws ≠ .opened) {f : Socket → Socket}
    (hf : ∀ s, (f s).node = s.node ∧ (f s).readyState ≠ .opened) :
    ((h.onSocket ws f).gone ws).Tied := by
  have hgone : ((h.onSocket ws f).sockets[ws]?).bind Socket.node = socket.node := by
    rw [socket_onSocket, if_pos rfl, hs]
    exact (hf socket).1
  unfold Hub.gone
  cases hn : socket.node with
  | none =>
      rw [hgone, hn]
      refine (ht.release (fun node conn hconn hws => ?_) fun s => .inr (hf s).2).onSocket ws
        (fun _ => rfl) (fun _ => id) fun _ => id
      rw [ht.entry_node hconn (hws ▸ hs)] at hn
      cases hn
  | some node =>
      rw [hgone, hn]
      have hdrop := ht.drop (hdead node · hn)
      have hfree : ∀ n conn, (h.dropConnection node).connection n = some conn → conn.ws ≠ ws := by
        intro n conn hconn hws
        rw [connection_dropConnection] at hconn
        split at hconn
        · cases hconn
        · rw [ht.entry_node hconn (hws ▸ hs)] at hn
          exact ‹n ≠ node› (Option.some.inj hn)
      have hleft := (hdrop.release hfree fun s => .inr (hf s).2).onSocket ws
        (f := fun s => { s with helloTimer := false }) (fun _ => rfl) (fun _ => id) fun _ => id
      obtain ⟨s, pending, he, -⟩ := deregisterNode_eq ((h.onSocket ws f).onSocket ws
        fun s => { s with helloTimer := false }) node
      simp only [he, dropConnection_onSocket]
      exact hleft.of_parts rfl rfl rfl rfl

/-- A socket that goes takes the entry of its node along, which is no open successor's. -/
theorem gone (ht : h.Tied) {ws : Nat} (hstate : h.readyState ws ≠ .closed)
    (he : ∀ socket node conn, h.sockets[ws]? = some socket → socket.readyState ≠ .closed →
      socket.node = some node → h.connection node = some conn → conn.ws ≠ ws →
      h.readyState conn.ws ≠ .opened) {f : Socket → Socket}
    (hf : ∀ s, (f s).node = s.node ∧ (f s).readyState ≠ .opened)
    (hclose : ∀ s, f { s with
      readyState := if s.readyState = .opened then .closing else s.readyState } = f s) :
    ((h.onSocket ws f).gone ws).Tied := by
  unfold readyState at hstate
  cases hs : h.sockets[ws]? with
  | none =>
      rw [hs] at hstate
      exact absurd rfl hstate
  | some socket =>
      rw [hs] at hstate
      rw [onSocket_close h ws hclose]
      have hclosing : (h.close ws).sockets[ws]? = some { socket with
          readyState := if socket.readyState = .opened then .closing else socket.readyState } := by
        rw [Hub.close, socket_onSocket, if_pos rfl, hs]
        rfl
      refine (ht.close ws).closing_gone hclosing (fun node conn hn hconn hopen => ?_) hf
      obtain ⟨hne, hopen⟩ := readyState_close hopen
      exact he socket node conn hs hstate hn hconn hne hopen

/-- **Every event keeps sockets, entries and consumers together**, if it is orderly. -/
theorem step (ht : h.Tied) {e : Stimulus} (he : h.Orderly e) : (h.step e).Tied := by
  cases e with
  | connection =>
      refine ⟨fun node conn hconn => ?_, ht.fed, fun ws socket node hs hopen hn => ?_, ht.ids, ht.next⟩
      · obtain ⟨socket, hs, hrest⟩ := ht.live node conn hconn
        refine ⟨socket, ?_, hrest⟩
        exact (List.getElem?_append_left (List.getElem?_eq_some_iff.mp hs).1).trans hs
      · by_cases hlt : ws < h.sockets.length
        · exact ht.entered ws socket node ((List.getElem?_append_left hlt).symm.trans hs) hopen hn
        · -- the new socket speaks for nobody
          have hnew := (List.getElem?_append_right (Nat.le_of_not_lt hlt)).symm.trans hs
          rw [List.mem_singleton.mp (List.mem_of_getElem? hnew)] at hn
          cases hn
  | message ws raw =>
      simp only [Hub.step, message]
      cases hs : h.sockets[ws]? with
      | none => exact ht
      | some socket =>
          dsimp only
          split
          · exact ht
          · rename_i hstate
            have hfill := ht.onSocket ws (f := fun s => s.refill h.controller.now) (fun _ => rfl)
              (fun _ => id) fun _ => id
            split
            · exact hfill.close ws
            · rename_i htokens
              have hpaid := hfill.onSocket ws (f := fun s => { s with tokens := s.tokens - 1 })
                (fun _ => rfl) (fun _ => id) fun _ => id
              cases hraw : raw.bind parseInboundFrame with
              | none => exact hpaid
              | some frame =>
                  cases frame with
                  | hello frame =>
                      have hrefilled : ((h.onSocket ws fun s => s.refill h.controller.now).onSocket ws
                          fun s => { s with tokens := s.tokens - 1 }).sockets[ws]? =
                            some { socket.refill h.controller.now with
                              tokens := (socket.refill h.controller.now).tokens - 1 } := by
                        simp [socket_onSocket, hs]
                      refine hpaid.hello hrefilled hstate frame _ fun node conn hconn hws => ?_
                      have hn := ht.entry_node hconn (hws ▸ hs)
                      exact he socket node conn frame hs hn hconn hws hraw (not_lt.mp htokens)
                  | _ =>
                      cases socket.node with
                      | none => exact hpaid
                      | some node => exact hpaid.of_parts rfl rfl rfl rfl
  | closed ws =>
      simp only [Hub.step]
      split
      · exact ht
      · exact ht.gone ‹_› he (fun _ => ⟨rfl, ReadyState.noConfusion⟩) fun _ => rfl
  | error ws =>
      simp only [Hub.step]
      split
      · exact ht
      · refine ht.gone ‹_› he (fun s => ⟨rfl, (closing_state s).1⟩) fun s => ?_
        cases s.readyState <;> simp
  | pong ws =>
      refine ht.remark fun c => ?_
      split <;> exact ⟨rfl, rfl, rfl⟩
  | helloTimeout ws =>
      simp only [Hub.step]
      cases h.sockets[ws]? with
      | none => exact ht
      | some socket =>
          dsimp only
          split
          · exact ht
          · have htimer := ht.onSocket ws (f := fun s => { s with helloTimer := false }) (fun _ => rfl)
              (fun _ => id) fun _ => id
            split
            · exact htimer.close ws
            · exact htimer
  | liveness =>
      have hdead : ∀ (dead : List NodeConn) (h : Hub), h.Tied →
          (dead.foldl (fun h c => h.close c.ws) h).Tied := by
        intro dead
        induction dead with
        | nil => exact fun _ ht => ht
        | cons c rest ih => exact fun h ht => ih _ (ht.close c.ws)
      obtain ⟨sockets, hclose⟩ := sweep_closes h (h.connections.filter fun c => !c.isAlive)
      have hclosed := hdead (h.connections.filter fun c => !c.isAlive) h ht
      rw [hclose] at hclosed
      simp only [Hub.step, sweep, hclose]
      exact hclosed.remark fun _ => ⟨rfl, rfl, rfl⟩
  | tick consumer sends =>
      simp only [Hub.step]
      cases h.consumers.find? fun c => c.id == consumer with
      | none => exact ht
      | some c =>
          dsimp only
          rcases drainNode_cases h c.node c.ws sends with hd | ⟨⟨conn, hconn, hws⟩, hd⟩ | ⟨new, hd, -⟩
          · rwa [hd]
          · rw [hd]
            refine ((ht.close c.ws).onSocket c.ws (f := fun s => { s with revoked := true })
              (fun _ => rfl) (fun _ => id) fun _ => id).deregister fun conn' hconn' hopen => ?_
            rw [readyState_onSocket _ c.ws conn'.ws (f := fun s => { s with revoked := true })
              fun _ => rfl] at hopen
            rw [← Option.some.inj (hconn.symm.trans hconn')] at hopen
            exact (readyState_close hopen).1 hws
          · rw [hd]
            exact ht.of_parts rfl rfl rfl rfl
  | offlineAlert node =>
      simp only [Hub.step]
      split
      · obtain ⟨s, pending, hd, -⟩ := fireOfflineAlert_eq h node
        rw [hd]
        exact ht.of_parts rfl rfl rfl rfl
      · exact ht
  | redeliver node jobs => exact ht.of_parts rfl rfl rfl rfl
  | restart =>
      have hnone (node : String) : (h.step .restart).connection node = none := rfl
      refine ⟨fun node conn hconn => ?_, fun node conn hconn => ?_, fun ws socket node hs hopen _ => ?_,
        fun k hk => absurd hk List.not_mem_nil, fun k hk => absurd hk List.not_mem_nil⟩
      · cases (hnone node).symm.trans hconn
      · cases (hnone node).symm.trans hconn
      · simp only [Hub.step, List.getElem?_map] at hs
        obtain ⟨before, -, rfl⟩ := Option.map_eq_some_iff.mp hs
        cases hopen
  | outside a ha => exact ht.of_parts rfl rfl rfl rfl

end Tied

/-! ## The flags -/

namespace Flagged

variable {h : Hub}

/-- The table stays, and so does who counts as online. -/
theorem same (hf : h.Flagged) {h' : Hub} (honline : SameOnline h.controller h'.controller)
    (hconnections : h'.connections = h.connections) : h'.Flagged := by
  intro node
  rw [honline node, hf node, connection, connection, hconnections]

theorem deregisterNode (hf : h.Flagged) (node : String) : (h.deregisterNode node).Flagged := by
  intro n
  rw [online_deregisterNode, connection_deregisterNode]
  split
  · rfl
  · exact hf n

theorem gone (hf : h.Flagged) (ws : Nat) : (h.gone ws).Flagged := by
  have hsame : (h.onSocket ws fun s => { s with helloTimer := false }).Flagged := hf
  unfold Hub.gone
  split
  · exact hsame.deregisterNode _
  · exact hsame

theorem ingest (hf : h.Flagged) (node : String) (frame : InboundFrame) :
    (h.run (ingestFrame node frame)).Flagged := by
  have hstanding : SameStanding h.controller ((ingestFrame node frame).after h.controller) :=
    standing_step (a := .frame node frame) id
  exact hf.same hstanding.online rfl

/-- An accepted hello makes an entry and sets the flag. -/
theorem hello (hf : h.Flagged) (ws : Nat) (frame : HelloFrame) (known : Option String) :
    (h.receive ws known (.hello frame)).Flagged := by
  rcases handleHello_cases h ws frame with ⟨he, -⟩ | ⟨tokenHash, hauth, -, he, -⟩
  · simp only [receive, he]
    exact hf
  · obtain ⟨row, hrow, -⟩ := verifyNodeAuth_eq_ok hauth
    simp only [receive, he]
    intro node
    have hconn : ((h.takeOver frame.node).connect ws frame tokenHash).connection node =
        if node = frame.node then
          some { ws, node := frame.node, consumer := (h.takeOver frame.node).nextConsumer,
                 tokenHash, isAlive := true }
        else (h.takeOver frame.node).connection node := connection_setConnection _ _ _
    have honline : ((h.takeOver frame.node).connect ws frame tokenHash).controller.db.online node =
        if node = frame.node then true else h.controller.db.online node := by
      have hreg := online_registerNode frame.node (frame.capabilities.getD (.obj []))
        (s := h.controller) (by rw [hrow]; rfl) node
      rw [← takeOver_controller h frame.node] at hreg ⊢
      exact hreg
    show ((h.takeOver frame.node).connect ws frame tokenHash).controller.db.online node =
      (((h.takeOver frame.node).connect ws frame tokenHash).connection node).isSome
    rw [hconn, honline]
    split
    · rfl
    · rw [hf node, connection, connection, takeOver_connections]

/-- **Every orderly event keeps the flags in step with the table.** -/
theorem step (hf : h.Flagged) {e : Stimulus} (he : h.Orderly e) : (h.step e).Flagged := by
  have quiet : ∀ h' : Hub, h'.controller = h.controller → h'.connections = h.connections →
      h'.Flagged := fun h' hc hconn =>
    hf.same (by rw [hc]; exact refl_of SameOnline _) hconn
  cases e with
  | connection => exact quiet _ rfl rfl
  | message ws raw =>
      simp only [Hub.step, message]
      cases h.sockets[ws]? with
      | none => exact hf
      | some socket =>
          dsimp only
          split
          · exact hf
          · split
            · exact quiet _ rfl rfl
            · cases raw.bind parseInboundFrame with
              | none => exact quiet _ rfl rfl
              | some frame =>
                  have hpaid : ((h.onSocket ws fun s => s.refill h.controller.now).onSocket ws
                    fun s => { s with tokens := s.tokens - 1 }).Flagged := quiet _ rfl rfl
                  cases frame with
                  | hello frame => exact hpaid.hello ws frame _
                  | _ =>
                      cases socket.node with
                      | none => exact hpaid
                      | some node => exact hpaid.ingest node _
  | closed ws =>
      simp only [Hub.step]
      split
      · exact hf
      · exact (quiet (h.onSocket ws fun s => { s with readyState := .closed }) rfl rfl).gone ws
  | error ws =>
      simp only [Hub.step]
      split
      · exact hf
      · exact (quiet (h.close ws) rfl rfl).gone ws
  | pong ws =>
      intro node
      rw [Hub.step, connection_map _ _ fun c => by split <;> rfl, Option.isSome_map]
      exact hf node
  | helloTimeout ws =>
      simp only [Hub.step]
      cases h.sockets[ws]? with
      | none => exact hf
      | some socket =>
          dsimp only
          split
          · exact hf
          · split <;> exact quiet _ rfl rfl
  | liveness =>
      obtain ⟨sockets, hclose⟩ := sweep_closes h (h.connections.filter fun c => !c.isAlive)
      intro node
      simp only [Hub.step, sweep, hclose]
      rw [connection_map { h with sockets := sockets } (fun c => { c with isAlive := false })
        fun _ => rfl, Option.isSome_map]
      exact hf node
  | tick consumer sends =>
      simp only [Hub.step]
      cases h.consumers.find? fun c => c.id == consumer with
      | none => exact hf
      | some c =>
          dsimp only
          rcases drainNode_cases h c.node c.ws sends with hd | ⟨-, hd⟩ | ⟨new, hd, -⟩
          · rwa [hd]
          · rw [hd]
            exact (quiet ((h.close c.ws).onSocket c.ws fun s => { s with revoked := true }) rfl
              rfl).deregisterNode c.node
          · rw [hd]
            have hstanding : SameStanding h.controller
                (MassDeployment.step h.controller (.drainNode c.node sends)) := standing_step id
            exact hf.same hstanding.online rfl
  | offlineAlert node =>
      simp only [Hub.step]
      split
      · obtain ⟨s, pending, hd, hs⟩ := fireOfflineAlert_eq h node
        rw [hd]
        refine hf.same ?_ rfl
        rcases hs with rfl | ⟨label, rfl⟩
        · exact refl_of SameOnline _
        · exact .of_nodes (congrArg Db.nodes (alertNodeOffline_db node label h.controller))
      · exact hf
  | redeliver node jobs => exact hf.same (.of_nodes rfl) rfl
  | restart =>
      intro node
      have hnone : h.connection node = none := by
        rw [connection, show h.connections = [] from he]
        rfl
      show h.controller.db.online node = _
      rw [hf node, hnone]
      rfl
  | outside a ha =>
      refine hf.same (sameOnline_outside ha ?_) rfl
      rintro name actor force rfl
      rcases he with hnone | hrefused
      · left
        rw [hf name, hnone]
        rfl
      · exact .inr hrefused

end Flagged

end Hub

/-- **The table of connections matches the sockets** in every run whose events are orderly, from a
start at which no node counts as online. -/
theorem connections_match_of_orderly {s : Controller} (hs : s.Resting) {es : List Stimulus}
    (he : Run.Along Hub.step Hub.Orderly (.start s) es) :
    (Run.run Hub.step (.start s) es).Matched := by
  have hstart : (Hub.start s).Tied ∧ (Hub.start s).Flagged := by
    refine ⟨⟨nofun, nofun, nofun, nofun, nofun⟩, fun node => ?_⟩
    show s.db.online node = false
    rw [Db.online]
    cases hrow : s.db.node node with
    | none => rfl
    | some r => exact hs.offline r (Table.find_some hrow).1
  have hboth := Run.invariant (I := fun h : Hub => h.Tied ∧ h.Flagged)
    (fun _ _ h horderly => ⟨h.1.step horderly, h.2.step horderly⟩) hstart he
  exact hboth.1.matched hboth.2

/-- A node is provisioned and its agent connects, until it no longer answers to pings. -/
def lostAgent : List Stimulus :=
  [.outside (.provisionNode "n" none) rfl, .outside (.rotateNodeToken "n" none) rfl, .connection,
   .message 0 (some (helloOf "n" "t")), .liveness, .liveness]

/-- The agent reconnects once its first socket is gone. -/
theorem connections_match_reconnected :
    (Run.run Hub.step (.start (.init .plain)) (lostAgent ++ [.closed 0, .connection,
      .message 1 (some (helloOf "n" "t"))])).Matched := by
  have hfirst : ∀ (h : Hub) ws, (h.sockets[ws]?).bind Socket.node = none →
      ∀ raw, h.Orderly (.message ws raw) := by
    intro h ws hnone raw socket node conn frame hs hn
    rw [hs] at hnone
    cases hn.symm.trans hnone
  have hown : ∀ conn ∈ (Run.run Hub.step (.start (.init .plain)) lostAgent).connections,
      conn.ws = 0 := by decide +kernel
  refine connections_match_of_orderly ⟨fun r hr => absurd hr List.not_mem_nil⟩ ?_
  refine ⟨trivial, trivial, trivial, hfirst _ 0 (by decide +kernel) _, trivial,
    trivial, ?_, trivial, hfirst _ 1 (by decide +kernel) _, trivial⟩
  intro socket node conn hs hstate hn hconn hne
  exact absurd (hown conn (Hub.connection_eq_some hconn).1) hne

/-- The agent reconnects, and the `close` event of its first socket takes the new entry along. -/
theorem connection_lost :
    ¬ (Run.run Hub.step (.start (.init .plain)) (lostAgent ++ [.connection,
      .message 1 (some (helloOf "n" "t")), .closed 0])).Matched := by
  intro h
  have hnone : (Run.run Hub.step (.start (.init .plain)) (lostAgent ++ [.connection,
      .message 1 (some (helloOf "n" "t")), .closed 0])).connection "n" = none := by decide +kernel
  have hsocket : ((Run.run Hub.step (.start (.init .plain)) (lostAgent ++ [.connection,
      .message 1 (some (helloOf "n" "t")), .closed 0])).sockets[1]?).any (fun s =>
        s.readyState == .opened && s.node == some "n" && !s.superseded && !s.revoked) = true := by
    decide +kernel
  obtain ⟨socket, hs, hsocket⟩ := (Option.any_eq_true _ _).mp hsocket
  simp only [Bool.and_eq_true, beq_iff_eq, Bool.not_eq_true'] at hsocket
  obtain ⟨⟨⟨hopen, hn⟩, hsuperseded⟩, hrevoked⟩ := hsocket
  obtain ⟨conn, hconn, -⟩ := h.entered 1 socket "n" hs hopen hn hsuperseded hrevoked
  rw [hnone] at hconn
  cases hconn

end MassDeployment
