import MassDeployment.Controller.Connections

set_option autoImplicit false

/-! # Who receives the tasks of a node

A consumer tick sends to the one socket in the node's entry of `connections`, after it has
compared the token hash the entry was made with and the stored one. Entries are made by
accepted hellos only, so the socket authenticated with a token of that very hash.
-/

namespace MassDeployment

open Js Prog

namespace Hub

/-! ## What a tick sends -/

/-- `drainOne` forgets which frame was pushed. -/
theorem drainOne_eq (node : String) (sent : Bool) :
    drainOne node sent = pushOne node sent >>= fun r => pure r.isSome := by
  unfold drainOne pushOne
  rw [bind_assoc]
  congr 1
  funext claimed
  rcases claimed with _ | ⟨jobId, frame⟩
  · rfl
  · cases sent <;> simp

/-- A claimed frame was in the queue. -/
theorem claimTask_eq {node workerId : String} {s s' : Controller} {jobId : Nat} {frame : TaskFrame}
    (h : (claimTask node workerId).run s = (.ok (some (jobId, frame)), s')) :
    Payload.sealed frame ∈ (s.queues node).payloads := by
  unfold claimTask at h
  rw [run_read_bind] at h
  cases hc : (s.queues node).claimOne s.now workerId with
  | none => simp [hc] at h
  | some claimed =>
      obtain ⟨job, queue⟩ := claimed
      have hjob : job ∈ (s.queues node).rows := (DurableQueue.claimOne_eq_some hc).1
      simp only [hc, writeQueue, run_write_bind] at h
      cases hp : job.payload with
      | unreadable message =>
          rw [hp, decodeFrame, run_bind, lift_run] at h
          simp at h
      | «sealed» f =>
          rw [hp, decodeFrame, run_bind, lift_run] at h
          simp only [andThen_ok, run_pure, Prod.mk.injEq, Except.ok.injEq, Option.some.injEq] at h
          rw [← h.1.2, ← hp]
          exact List.mem_map.mpr ⟨job, hjob, rfl⟩

/-- A frame is pushed only if it was claimed from the queue. -/
theorem pushOne_eq {node : String} {sent : Bool} {s s' : Controller} {frame : TaskFrame}
    (h : (pushOne node sent).run s = (.ok (some frame), s')) :
    Payload.sealed frame ∈ (s.queues node).payloads := by
  unfold pushOne at h
  rw [run_bind] at h
  rcases hc : (claimTask node (hubWorker node)).run s with ⟨e | claimed, s₁⟩
  · simp [hc] at h
  · rcases claimed with _ | ⟨jobId, f⟩
    · simp [hc] at h
    · have hmem := claimTask_eq hc
      rw [hc, andThen_ok] at h
      cases sent with
      | false =>
          simp only [Bool.false_eq_true, if_false, retryTask, Op.now, writeQueue, bind_assoc,
            run_read_bind, run_write_bind, run_pure] at h
          cases h
      | true =>
          simp only [if_true, ackTask, writeQueue, markTaskState, Op.now, Op.query, updateTasks,
            bumpAttempts, bind_assoc, run_write_bind, run_read_bind, pure_bind, run_pure,
            Prod.mk.injEq, Except.ok.injEq, Option.some.injEq] at h
          exact h.1 ▸ hmem

/-- **What a batch does**: the controller moves as by a consumer tick, and what was sent came
out of the queue, to this socket, with the node of the same standing as before. -/
theorem push_spec (node : String) (ws : Nat) (sends : List Bool) (h : Hub) :
    ∃ new, h.push node ws sends =
        { h with controller := (drainBatch node sends).after h.controller, sent := new ++ h.sent } ∧
      ∀ x ∈ new, x.ws = ws ∧ x.node = node ∧ ∃ s, SameStanding h.controller s ∧
        Supplied h.controller s ∧ x.row = s.db.node node ∧
        Payload.sealed x.frame ∈ (s.queues node).payloads := by
  induction sends generalizing h with
  | nil => exact ⟨[], rfl, by simp⟩
  | cons sent rest ih =>
      have hstand : SameStanding h.controller ((pushOne node sent).after h.controller) := by
        have hd := walk_drainOne standingWalk.enrols.toWalk node sent h.controller
        rw [drainOne_eq, run_bind] at hd
        rcases hp : (pushOne node sent).run h.controller with ⟨_ | _, s⟩ <;>
          simpa [Prog.after, hp] using hd
      have hsup : Supplied h.controller ((pushOne node sent).after h.controller) := by
        have hd := walk_drainOne supplyWalk.enrols.toWalk node sent h.controller
        rw [drainOne_eq, run_bind] at hd
        rcases hp : (pushOne node sent).run h.controller with ⟨_ | _, s⟩ <;>
          simpa [Prog.after, hp] using hd
      simp only [push, drainBatch, Prog.after, drainOne_eq, run_bind] at hstand hsup ⊢
      rcases hp : (pushOne node sent).run h.controller with ⟨e | _ | frame, s⟩
      · exact ⟨[], by simp, by simp⟩
      · exact ⟨[], by simp, by simp⟩
      · rw [hp] at hstand hsup
        obtain ⟨new, he, hnew⟩ := ih
          { h with
            controller := s
            sent := ⟨ws, node, frame, h.controller.db.node node⟩ :: h.sent }
        refine ⟨new ++ [⟨ws, node, frame, h.controller.db.node node⟩], ?_, fun x hx => ?_⟩
        · dsimp only
          rw [he]
          simp [Prog.after]
        · rcases List.mem_append.mp hx with hx | hx
          · obtain ⟨h1, h2, s', hs', hs'', h3, h4⟩ := hnew x hx
            exact ⟨h1, h2, s', trans_of SameStanding hstand hs', hsup.trans hs'', h3, h4⟩
          · rw [List.mem_singleton.mp hx]
            exact ⟨rfl, rfl, h.controller, rfl, .refl _, rfl, pushOne_eq hp⟩

/-! ## Authentication -/

end Hub

/-- The frame went to a socket that authenticated with a token whose hash was the stored one,
of an allowed node, when the frame was sent. -/
def Sent.Authorised (x : Sent) (h : Hub) : Prop :=
  ∃ row token, x.row = some row ∧ row.allowed = true ∧
    row.tokenHash = some (h.controller.host.nodeTokenHash x.node token) ∧
    (x.node, token) ∈ h.hellos x.ws

namespace Hub

/-- Every entry was made by a hello accepted on its socket, and every frame went where it was
authorised to go. -/
structure Authentic (h : Hub) : Prop where
  connections : ∀ c ∈ h.connections, ∃ token, (c.node, token) ∈ h.hellos c.ws ∧
    h.controller.host.nodeTokenHash c.node token = c.tokenHash
  sent : ∀ x ∈ h.sent, x.Authorised h

/-- Hellos are not forgotten, entries do not come out of nothing, and nothing is sent. -/
theorem Authentic.mono {h h' : Hub} (ha : h.Authentic)
    (hhost : h'.controller.host = h.controller.host)
    (hhellos : ∀ w, ∀ x ∈ h.hellos w, x ∈ h'.hellos w)
    (hconn : ∀ c' ∈ h'.connections, ∃ c ∈ h.connections,
      c.node = c'.node ∧ c.ws = c'.ws ∧ c.tokenHash = c'.tokenHash)
    (hsent : h'.sent = h.sent) : h'.Authentic where
  connections c' hc' := by
    obtain ⟨c, hc, h1, h2, h3⟩ := hconn c' hc'
    obtain ⟨token, hmem, hhash⟩ := ha.connections c hc
    refine ⟨token, ?_, ?_⟩
    · rw [← h1, ← h2]
      exact hhellos _ _ hmem
    · rw [hhost, ← h1, ← h3]
      exact hhash
  sent x hx := by
    obtain ⟨row, token, h1, h2, h3, h4⟩ := ha.sent x (hsent ▸ hx)
    exact ⟨row, token, h1, h2, hhost ▸ h3, hhellos _ _ h4⟩

namespace Authentic

variable {h : Hub}

/-- Writes to sockets that keep their hellos. -/
theorem onSocket (ha : h.Authentic) (ws : Nat) (f : Socket → Socket)
    (hf : ∀ s, (f s).hellos = s.hellos) : (h.onSocket ws f).Authentic :=
  ha.mono rfl (fun w x hx => by rwa [hellos_onSocket h ws w f hf]) (fun c hc => ⟨c, hc, rfl, rfl, rfl⟩)
    rfl

theorem close (ha : h.Authentic) (ws : Nat) : (h.close ws).Authentic :=
  ha.onSocket ws _ fun _ => rfl

/-- Writes to the controller. -/
theorem controller (ha : h.Authentic) {s : Controller} (hs : s.host = h.controller.host) :
    ({ h with controller := s } : Hub).Authentic :=
  ha.mono hs (fun _ _ => id) (fun c hc => ⟨c, hc, rfl, rfl, rfl⟩) rfl

theorem run (ha : h.Authentic) {α : Type} (x : Op α) : (h.run x).Authentic :=
  ha.controller (x.keeps h.controller).host

theorem dropConnection (ha : h.Authentic) (node : String) : (h.dropConnection node).Authentic := by
  refine ha.mono ?_ (fun w x hx => ?_) (fun c hc => ⟨c, (mem_dropConnection.mp hc).1, rfl, rfl, rfl⟩)
    ?_
  · rw [dropConnection_controller]
  · have : (h.dropConnection node).hellos w = h.hellos w := by
      unfold Hub.dropConnection
      cases h.connection node <;> rfl
    rwa [this]
  · unfold Hub.dropConnection
    cases h.connection node <;> rfl

theorem fireOfflineAlert (ha : h.Authentic) (node : String) : (h.fireOfflineAlert node).Authentic := by
  obtain ⟨s, pending, he, hs⟩ := fireOfflineAlert_eq h node
  have hhost : s.host = h.controller.host := by
    rcases hs with rfl | ⟨label, rfl⟩
    · rfl
    · exact ((alertNodeOffline node label).keeps h.controller).host
  rw [he]
  exact ha.mono hhost (fun _ _ => id) (fun c hc => ⟨c, hc, rfl, rfl, rfl⟩) rfl

theorem deregisterNode (ha : h.Authentic) (node : String) : (h.deregisterNode node).Authentic := by
  obtain ⟨s, pending, he, hs⟩ := deregisterNode_eq h node
  have hoff := (Prog.keeps (markNodeOffline node) h.controller).host
  have hhost : s.host = h.controller.host := by
    rcases hs with rfl | ⟨label, rfl⟩
    · exact hoff
    · exact (Prog.keeps (alertNodeOffline node label) _).host.trans hoff
  rw [he]
  exact (ha.dropConnection node).mono (by rw [dropConnection_controller]; exact hhost) (fun _ _ => id)
    (fun c hc => ⟨c, hc, rfl, rfl, rfl⟩) rfl

theorem gone (ha : h.Authentic) (ws : Nat) : (h.gone ws).Authentic := by
  have hsock := ha.onSocket ws (fun s => { s with helloTimer := false }) fun _ => rfl
  unfold Hub.gone
  split
  · exact hsock.deregisterNode _
  · exact hsock

/-- An accepted hello enters the socket with the hash of its token; a refused one closes it. -/
theorem hello (ha : h.Authentic) (ws : Nat) (socket : Socket) (hs : h.sockets[ws]? = some socket)
    (frame : HelloFrame) (known : Option String) : (h.receive ws known (.hello frame)).Authentic := by
  rcases handleHello_cases h ws frame with ⟨he, _⟩ | ⟨tokenHash, hauth, _, he, _⟩
  · simp only [receive, he]
    exact (ha.close ws).onSocket _ _ fun _ => rfl
  · obtain ⟨_, _, _, _, hhash⟩ := verifyNodeAuth_eq_ok hauth
    simp only [receive, he, Option.isSome_some, if_true]
    set h₁ := (h.takeOver frame.node).connect ws frame tokenHash with hh₁
    have hhost : h₁.controller.host = h.controller.host :=
      (Prog.keeps (MassDeployment.registerNode frame.node (frame.capabilities.getD (.obj [])))
        (h.takeOver frame.node).controller).host.trans (by rw [takeOver_controller])
    have hsock : h₁.sockets = (h.takeOver frame.node).sockets := rfl
    have hhellos : ∀ w, h₁.hellos w = h.hellos w := fun w => hellos_takeOver h frame.node w
    obtain ⟨socket₁, hs₁⟩ : ∃ socket₁, h₁.sockets[ws]? = some socket₁ := by
      have hlen : (h.takeOver frame.node).sockets.length = h.sockets.length := by
        unfold takeOver
        cases h.connection frame.node <;> simp [Hub.onSocket, Hub.close, clearInterval]
      have hlt : ws < h₁.sockets.length := by
        rw [hsock, hlen]
        exact (List.getElem?_eq_some_iff.mp hs).1
      exact ⟨_, List.getElem?_eq_getElem hlt⟩
    -- the hello is remembered, and no other is forgotten
    have hnew : ∀ w, ∀ x, x ∈ h.hellos w ∨ (w = ws ∧ x = (frame.node, frame.token)) →
        x ∈ (h₁.onSocket ws fun s =>
          { s with
            node := some frame.node
            helloTimer := s.helloTimer && (some frame.node).isNone
            hellos := (frame.node, frame.token) :: s.hellos }).hellos w := by
      intro w x hx
      rw [← hhellos w] at hx
      simp only [hellos, socket_onSocket] at hx ⊢
      by_cases hw : ws = w
      · subst hw
        rw [hs₁] at hx ⊢
        simpa [or_comm] using hx
      · rw [if_neg hw]
        rcases hx with hx | ⟨rfl, _⟩
        · exact hx
        · exact absurd rfl hw
    constructor
    · intro c hc
      rcases mem_connect.mp hc with ⟨hc, _⟩ | rfl
      · rw [takeOver_connections] at hc
        obtain ⟨token, hmem, hh⟩ := ha.connections c hc
        exact ⟨token, hnew _ _ (.inl hmem), by rw [← hh, ← hhost]; rfl⟩
      · exact ⟨frame.token, hnew _ _ (.inr ⟨rfl, rfl⟩), by rw [← hhash, ← hhost]; rfl⟩
    · intro x hx
      have hx : x ∈ h.sent := by rw [← takeOver_sent h frame.node]; exact hx
      obtain ⟨row, token, h1, h2, h3, h4⟩ := ha.sent x hx
      exact ⟨row, token, h1, h2, by rw [h3, ← hhost]; rfl, hnew _ _ (.inl h4)⟩

end Authentic

/-! ## Which events send -/

theorem deregisterNode_sent (h : Hub) (node : String) : (h.deregisterNode node).sent = h.sent := by
  obtain ⟨s, pending, he, _⟩ := deregisterNode_eq h node
  rw [he]
  show (h.dropConnection node).sent = h.sent
  unfold dropConnection
  cases h.connection node <;> rfl

theorem gone_sent (h : Hub) (ws : Nat) : (h.gone ws).sent = h.sent := by
  unfold gone
  split
  · exact deregisterNode_sent _ _
  · rfl

theorem receive_sent (h : Hub) (ws : Nat) (known : Option String) (frame : InboundFrame) :
    (h.receive ws known frame).sent = h.sent := by
  cases frame with
  | hello frame =>
      rcases handleHello_cases h ws frame with ⟨he, _⟩ | ⟨tokenHash, _, _, he, _⟩
      · simp only [receive, he]
        rfl
      · simp only [receive, he]
        exact takeOver_sent h frame.node
  | _ => cases known <;> rfl

/-- What it takes to send a frame: an entry of the socket for the node, whose token hash is the
stored one. -/
structure Vetted (h : Hub) (x : Sent) : Prop where
  entry : ∃ conn, h.connection x.node = some conn ∧ conn.ws = x.ws ∧
    h.controller.db.nodeStillAuthorized x.node conn.tokenHash = true
  row : ∃ s, SameStanding h.controller s ∧ Supplied h.controller s ∧ x.row = s.db.node x.node ∧
    Payload.sealed x.frame ∈ (s.queues x.node).payloads

/-- The socket of a node that is no longer authorised is closed, and the node deregistered. -/
def revoke (h : Hub) (node : String) (ws : Nat) : Hub :=
  ((h.close ws).onSocket ws fun s => { s with revoked := true }).deregisterNode node

/-- A consumer tick does nothing, drops the socket, or sends a batch of vetted frames. -/
theorem drainNode_cases (h : Hub) (node : String) (ws : Nat) (sends : List Bool) :
    h.drainNode node ws sends = h ∨
    ((∃ conn, h.connection node = some conn ∧ conn.ws = ws) ∧
      h.drainNode node ws sends = h.revoke node ws) ∨
    ∃ new, h.drainNode node ws sends =
        { h with
          controller := MassDeployment.step h.controller (.drainNode node sends)
          sent := new ++ h.sent } ∧ ∀ x ∈ new, h.Vetted x := by
  unfold drainNode
  split
  · exact .inl rfl
  · cases hconn : h.connection node with
    | none => exact .inl rfl
    | some conn =>
        dsimp only
        split
        · exact .inl rfl
        · rename_i hws
          have hws := not_not.mp hws
          split
          · exact .inr (.inl ⟨⟨conn, rfl, hws⟩, rfl⟩)
          · rename_i hauth
            obtain ⟨new, he, hnew⟩ := push_spec node ws (sends.take 20) h
            refine .inr (.inr ⟨new, he, fun x hx => ?_⟩)
            obtain ⟨h1, h2, hrest⟩ := hnew x hx
            subst h2
            exact ⟨⟨conn, hconn, hws.trans h1.symm, by simpa using hauth⟩, hrest⟩

/-- **Only a consumer tick sends, and only what is vetted.** -/
theorem step_sent (h : Hub) (e : Stimulus) :
    ∃ new, (h.step e).sent = new ++ h.sent ∧ ∀ x ∈ new, h.Vetted x := by
  have none_sent : ∀ h' : Hub, h'.sent = h.sent →
      ∃ new, h'.sent = new ++ h.sent ∧ ∀ x ∈ new, h.Vetted x := fun h' hs =>
    ⟨[], hs, by simp⟩
  cases e with
  | connection => exact none_sent _ rfl
  | message ws raw =>
      refine none_sent _ ?_
      simp only [step, message]
      cases h.sockets[ws]? with
      | none => rfl
      | some socket =>
          dsimp only
          split
          · rfl
          · split
            · rfl
            · cases raw.bind parseInboundFrame with
              | none => rfl
              | some frame => exact receive_sent _ _ _ _
  | closed ws =>
      refine none_sent _ ?_
      simp only [step]
      split
      · rfl
      · exact gone_sent _ _
  | error ws =>
      refine none_sent _ ?_
      simp only [step]
      split
      · rfl
      · exact gone_sent _ _
  | pong ws => exact none_sent _ rfl
  | helloTimeout ws =>
      refine none_sent _ ?_
      simp only [step]
      cases h.sockets[ws]? with
      | none => rfl
      | some socket =>
          dsimp only
          split
          · rfl
          · split <;> rfl
  | liveness =>
      refine none_sent _ ?_
      obtain ⟨sockets, he⟩ := sweep_closes h (h.connections.filter fun c => !c.isAlive)
      simp only [step, sweep, he]
  | tick consumer sends =>
      simp only [step]
      cases h.consumers.find? fun c => c.id == consumer with
      | none => exact none_sent _ rfl
      | some c =>
          dsimp only
          rcases drainNode_cases h c.node c.ws sends with he | ⟨_, he⟩ | ⟨new, he, hnew⟩
          · exact none_sent _ (by rw [he])
          · exact none_sent _ (by rw [he]; exact deregisterNode_sent _ _)
          · exact ⟨new, by rw [he], hnew⟩
  | offlineAlert node =>
      refine none_sent _ ?_
      simp only [step]
      split
      · obtain ⟨s, pending, he, _⟩ := fireOfflineAlert_eq h node
        rw [he]
      · rfl
  | redeliver node jobs => exact none_sent _ rfl
  | restart => exact none_sent _ rfl
  | outside a ha => exact none_sent _ rfl

theorem Vetted.authorised {h : Hub} {x : Sent} (hx : h.Vetted x) (ha : h.Authentic) :
    x.Authorised h := by
  obtain ⟨conn, hconn, hws, hauth⟩ := hx.entry
  obtain ⟨s, hstand, _, hrow, _⟩ := hx.row
  obtain ⟨hmem, hnode⟩ := connection_eq_some hconn
  obtain ⟨token, hhello, hhash⟩ := ha.connections conn hmem
  have hlook := hstand.node x.node
  unfold Db.nodeStillAuthorized at hauth
  cases hr : h.controller.db.node x.node with
  | none => simp [hr] at hauth
  | some r =>
      cases hr' : s.db.node x.node with
      | none => simp [hr, hr'] at hlook
      | some row =>
          simp only [hr, hr', Option.map_some, Option.some.injEq, NodeRow.standing,
            Prod.mk.injEq] at hlook
          simp only [hr, Bool.and_eq_true, beq_iff_eq] at hauth
          refine ⟨row, token, hrow.trans hr', hlook.2.2.1.trans hauth.1, ?_, ?_⟩
          · rw [hlook.2.2.2.1, hauth.2, ← hhash, hnode]
          · rw [← hnode, ← hws]
            exact hhello

/-- What was sent stays sent, so it is enough to look at the tables of an event that sends
nothing new. -/
theorem Authentic.step {h : Hub} (ha : h.Authentic) (e : Stimulus) : (h.step e).Authentic := by
  cases e with
  | connection =>
      refine ha.mono rfl (fun w x hx => ?_) (fun c hc => ⟨c, hc, rfl, rfl, rfl⟩) rfl
      simp only [hellos, Hub.step] at hx ⊢
      cases hs : h.sockets[w]? with
      | none => simp [hs] at hx
      | some socket =>
          rw [List.getElem?_append_left (List.getElem?_eq_some_iff.mp hs).1, hs]
          simpa [hs] using hx
  | message ws raw =>
      simp only [Hub.step, message]
      cases hs : h.sockets[ws]? with
      | none => exact ha
      | some socket =>
          dsimp only
          split
          · exact ha
          · have hfill := ha.onSocket ws (fun s => s.refill h.controller.now) fun _ => rfl
            split
            · exact hfill.close ws
            · have hpaid := hfill.onSocket ws (fun s => { s with tokens := s.tokens - 1 }) fun _ => rfl
              cases raw.bind parseInboundFrame with
              | none => exact hpaid
              | some frame =>
                  cases frame with
                  | hello frame => exact hpaid.hello ws _ (by simp [socket_onSocket, hs]; rfl) frame _
                  | _ =>
                      cases socket.node with
                      | none => exact hpaid
                      | some node => exact hpaid.run _
  | closed ws =>
      simp only [Hub.step]
      split
      · exact ha
      · exact (ha.onSocket ws (fun s => { s with readyState := .closed }) fun _ => rfl).gone ws
  | error ws =>
      simp only [Hub.step]
      split
      · exact ha
      · exact (ha.close ws).gone ws
  | pong ws =>
      refine ha.mono rfl (fun _ _ => id) (fun c' hc' => ?_) rfl
      obtain ⟨c, hc, rfl⟩ := List.mem_map.mp hc'
      refine ⟨c, hc, ?_⟩
      split <;> exact ⟨rfl, rfl, rfl⟩
  | helloTimeout ws =>
      simp only [Hub.step]
      cases h.sockets[ws]? with
      | none => exact ha
      | some socket =>
          dsimp only
          split
          · exact ha
          · have htimer := ha.onSocket ws (fun s => { s with helloTimer := false }) fun _ => rfl
            split
            · exact htimer.close ws
            · exact htimer
  | liveness =>
      have hdead : ∀ (dead : List NodeConn) (h : Hub), h.Authentic →
          (dead.foldl (fun h c => h.close c.ws) h).Authentic := by
        intro dead
        induction dead with
        | nil => exact fun _ ha => ha
        | cons c rest ih => exact fun h ha => ih _ (ha.close c.ws)
      obtain ⟨sockets, he⟩ := sweep_closes h (h.connections.filter fun c => !c.isAlive)
      have hclosed := hdead (h.connections.filter fun c => !c.isAlive) h ha
      rw [he] at hclosed
      simp only [Hub.step, sweep, he]
      refine hclosed.mono rfl (fun _ _ => id) (fun c' hc' => ?_) rfl
      obtain ⟨c, hc, rfl⟩ := List.mem_map.mp hc'
      exact ⟨c, hc, rfl, rfl, rfl⟩
  | tick consumer sends =>
      simp only [Hub.step]
      cases h.consumers.find? fun c => c.id == consumer with
      | none => exact ha
      | some c =>
          dsimp only
          rcases drainNode_cases h c.node c.ws sends with he | ⟨_, he⟩ | ⟨new, he, hnew⟩
          · rwa [he]
          · rw [he]
            exact ((ha.close c.ws).onSocket c.ws (fun s => { s with revoked := true })
              fun _ => rfl).deregisterNode c.node
          · have hhost := (step_evolves h.controller (.drainNode c.node sends)).host
            have hmoved := ha.controller hhost
            rw [he]
            refine ⟨hmoved.connections, fun x hx => ?_⟩
            rcases List.mem_append.mp hx with hx | hx
            · obtain ⟨row, token, h1, h2, h3, h4⟩ := (hnew x hx).authorised ha
              exact ⟨row, token, h1, h2, hhost.symm ▸ h3, h4⟩
            · exact hmoved.sent x hx
  | offlineAlert node =>
      simp only [Hub.step]
      split
      · exact ha.fireOfflineAlert node
      · exact ha
  | redeliver node jobs => exact ha.run _
  | restart =>
      refine ha.mono rfl (fun w x hx => ?_) (fun c hc => by simp [Hub.step] at hc) rfl
      simp only [hellos, Hub.step, List.getElem?_map] at hx ⊢
      cases hs : h.sockets[w]? with
      | none => simp [hs] at hx
      | some socket => simpa [hs] using hx
  | outside a hout => exact ha.controller (step_evolves h.controller a).host

/-- Some event sends a task of `node` to the socket. -/
def Receives (h : Hub) (node : String) (ws : Nat) : Prop :=
  ∃ e new, (h.step e).sent = new ++ h.sent ∧ ∃ x ∈ new, x.node = node ∧ x.ws = ws

end Hub

/-- **Tasks go only to an authorised socket, and to one socket at a time.** -/
theorem tasks_only_to_authorised (s : Controller) (es : List Stimulus) :
    (∀ x ∈ (Run.run Hub.step (.start s) es).sent,
      x.Authorised (Run.run Hub.step (.start s) es)) ∧
    ∀ node w w', (Run.run Hub.step (.start s) es).Receives node w →
      (Run.run Hub.step (.start s) es).Receives node w' → w = w' := by
  have hstart : (Hub.start s).Authentic := ⟨by simp [Hub.start], by simp [Hub.start]⟩
  have ha : (Run.run Hub.step (.start s) es).Authentic :=
    Run.invariant_all (I := Hub.Authentic) (fun _ e h => h.step e) hstart
  refine ⟨ha.sent, fun node w w' hw hw' => ?_⟩
  generalize Run.run Hub.step (.start s) es = h at hw hw'
  -- whoever receives is the socket of the node's entry
  have entry : ∀ w, h.Receives node w → ∃ conn, h.connection node = some conn ∧ conn.ws = w := by
    rintro w ⟨e, new, hnew, x, hx, rfl, rfl⟩
    obtain ⟨new', hnew', hvet⟩ := Hub.step_sent h e
    obtain rfl : new = new' := List.append_cancel_right (hnew.symm.trans hnew')
    obtain ⟨conn, hconn, hws, _⟩ := (hvet x hx).entry
    exact ⟨conn, hconn, hws⟩
  obtain ⟨conn, hconn, rfl⟩ := entry w hw
  obtain ⟨conn', hconn', rfl⟩ := entry w' hw'
  rw [Option.some.inj (hconn.symm.trans hconn')]

/-! ## How the controller moves -/

/-- A relation between controllers that every call of the hub moves along. -/
structure HubWalk (Q : Controller → Controller → Prop) : Prop where
  act : ∀ s a, Q s (step s a)
  alert : ∀ node label, Respects Q (alertNodeOffline node label)
  redeliver : ∀ node p, Respects Q (writeQueue node fun q => q.expire p)
  restart : ∀ s : Controller, Q s { s with threads := [], alertState := [], gpuMailState := [] }

namespace HubWalk

variable {Q : Controller → Controller → Prop} [IsPreorder Controller Q] (w : HubWalk Q)

include w

theorem deregisterNode (h : Hub) (node : String) :
    Q h.controller (h.deregisterNode node).controller := by
  obtain ⟨s, pending, he, hs⟩ := Hub.deregisterNode_eq h node
  have hoff : Q h.controller ((markNodeOffline node).after h.controller) :=
    w.act h.controller (.deregisterNode node)
  rw [he]
  rcases hs with rfl | ⟨label, rfl⟩
  · exact hoff
  · exact trans_of Q hoff (w.alert node label _)

theorem gone (h : Hub) (ws : Nat) : Q h.controller (h.gone ws).controller := by
  unfold Hub.gone
  split
  · exact w.deregisterNode (h.onSocket ws fun s => { s with helloTimer := false }) _
  · exact refl_of Q _

theorem receive (h : Hub) (ws : Nat) (known : Option String) (frame : InboundFrame) :
    Q h.controller (h.receive ws known frame).controller := by
  have ingest : ∀ node f, Q h.controller ((ingestFrame node f).after h.controller) := fun node f =>
    w.act h.controller (.frame node f)
  cases frame with
  | hello frame =>
      rcases Hub.handleHello_cases h ws frame with ⟨he, _⟩ | ⟨tokenHash, _, _, he, _⟩
      · simp only [Hub.receive, he]
        exact refl_of Q _
      · simp only [Hub.receive, he]
        have hreg := w.act h.controller
          (.registerNode frame.node (frame.capabilities.getD (.obj [])))
        rw [← Hub.takeOver_controller h frame.node] at hreg ⊢
        exact hreg
  | _ =>
      cases known with
      | none => exact refl_of Q _
      | some node => exact ingest node _

/-- **Every event of the hub moves the controller along `Q`.** -/
theorem step (h : Hub) (e : Stimulus) : Q h.controller (h.step e).controller := by
  cases e with
  | connection => exact refl_of Q _
  | message ws raw =>
      simp only [Hub.step, Hub.message]
      cases h.sockets[ws]? with
      | none => exact refl_of Q _
      | some socket =>
          dsimp only
          split
          · exact refl_of Q _
          · split
            · exact refl_of Q _
            · cases raw.bind parseInboundFrame with
              | none => exact refl_of Q _
              | some frame =>
                  exact w.receive ((h.onSocket ws fun s => s.refill h.controller.now).onSocket ws
                    fun s => { s with tokens := s.tokens - 1 }) _ _ _
  | closed ws =>
      simp only [Hub.step]
      split
      · exact refl_of Q _
      · exact w.gone (h.onSocket ws fun s => { s with readyState := .closed }) ws
  | error ws =>
      simp only [Hub.step]
      split
      · exact refl_of Q _
      · exact w.gone (h.close ws) ws
  | pong ws => exact refl_of Q _
  | helloTimeout ws =>
      simp only [Hub.step]
      cases h.sockets[ws]? with
      | none => exact refl_of Q _
      | some socket =>
          dsimp only
          split
          · exact refl_of Q _
          · split <;> exact refl_of Q _
  | liveness =>
      obtain ⟨sockets, he⟩ := Hub.sweep_closes h (h.connections.filter fun c => !c.isAlive)
      simp only [Hub.step, Hub.sweep, he]
      exact refl_of Q _
  | tick consumer sends =>
      simp only [Hub.step]
      cases h.consumers.find? fun c => c.id == consumer with
      | none => exact refl_of Q _
      | some c =>
          dsimp only
          rcases Hub.drainNode_cases h c.node c.ws sends with he | ⟨_, he⟩ | ⟨new, he, _⟩
          · rw [he]
            exact refl_of Q _
          · rw [he]
            exact w.deregisterNode ((h.close c.ws).onSocket c.ws fun s => { s with revoked := true }) _
          · rw [he]
            exact w.act _ _
  | offlineAlert node =>
      simp only [Hub.step]
      split
      · obtain ⟨s, pending, he, hs⟩ := Hub.fireOfflineAlert_eq h node
        rw [he]
        rcases hs with rfl | ⟨label, rfl⟩
        · exact refl_of Q _
        · exact w.alert node label _
      · exact refl_of Q _
  | redeliver node jobs => exact w.redeliver node _ _
  | restart => exact w.restart _
  | outside a ha => exact w.act _ _

end HubWalk

end MassDeployment
