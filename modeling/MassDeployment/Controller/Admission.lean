import Mathlib
import MassDeployment.Controller.Delivery
import MassDeployment.Lib.TokenBucket

set_option autoImplicit false

/-! # What a socket may do (`hub.ts`)

A socket of the hub pays a token for each message, and speaks for the node of the last hello that
was accepted on it. What it does to the controller is bounded by the one and done in the name of
the other, whatever it sends.
-/

namespace MassDeployment

open Js Prog

/-! ## The clock -/

/-- The clock does not go back. -/
structure Later (s s' : Controller) : Prop where
  now : s.now ≤ s'.now

instance : IsPreorder Controller Later where
  refl _ := ⟨le_rfl⟩
  trans _ _ _ h h' := ⟨h.now.trans h'.now⟩

theorem Later.same {s s' : Controller} (h : s'.now = s.now) : Later s s' := ⟨h.ge⟩

theorem laterWalk : FreeWalk Later where
  anyLists _ _ _ := .same rfl
  emit _ _ := .same rfl
  alertState _ _ _ := .same rfl
  gpuMailState _ _ _ := .same rfl
  draw _ _ := .same rfl
  spawn _ _ := .same rfl
  takeThread _ _ := .same rfl
  clock f h hf s := by
    obtain ⟨now, settings, hnow, he⟩ := hf s
    show Later s (f s)
    rw [he]
    exact ⟨hnow⟩
  claimTask _ _ := .bind (.read _) fun _ => by
    split
    · exact .pure _
    · exact .bind (fun _ => .same rfl) fun _ => .bind (respects_lift _) fun _ => .pure _
  ackTask _ _ _ _ := .same rfl
  retryTask _ _ _ := .bind (.read _) fun _ _ => .same rfl
  updateTasks _ _ _ _ := .same rfl
  enqueueTask node action params requestedBy s := by
    simp only [enqueueTask]
    split <;> exact .same rfl
  updateNode _ _ _ _ _ := .same rfl
  labs _ _ := .same rfl
  students _ _ := .same rfl
  labMembers _ _ := .same rfl
  labPlacements _ _ := .same rfl
  placementMembers _ _ := .same rfl

theorem later_step (s : Controller) (a : Act) : Later s (step s a) :=
  laterWalk.anyAct (a := a) (fun _ _ => .same rfl) (fun _ _ _ _ _ => .same rfl) s

namespace Hub

/-- What a frame that is no hello comes to. -/
def heard (h : Hub) (known : Option String) (frame : InboundFrame) : Hub :=
  match known with
  | none => h
  | some node => h.run (ingestFrame node frame)

theorem receive_eq (h : Hub) (ws : Nat) (known : Option String) (frame : InboundFrame) :
    (∃ hello, frame = .hello hello) ∨ h.receive ws known frame = h.heard known frame := by
  cases frame with
  | hello frame => exact .inl ⟨frame, rfl⟩
  | result frame => exact .inr rfl
  | receipt taskUuid => exact .inr rfl
  | log frame => exact .inr rfl
  | event frame => exact .inr rfl
  | telemetry payload => exact .inr rfl

theorem later_alert (node : String) (label : Option String) (s : Controller) :
    Later s ((alertNodeOffline node label).after s) :=
  respects_alertAdmins (fun e _ => laterWalk.emit e) laterWalk.alertState _ _ _ s

theorem later_deregisterNode {h : Hub} {s : Controller} (hs : h.controller = s) (node : String) :
    Later s (h.deregisterNode node).controller := by
  subst hs
  have hmark : Later h.controller ((markNodeOffline node).after h.controller) :=
    later_step h.controller (.deregisterNode node)
  obtain ⟨s, pending, he, hs⟩ := deregisterNode_eq h node
  rw [he]
  rcases hs with rfl | ⟨label, rfl⟩
  · exact hmark
  · exact trans_of Later hmark (later_alert _ _ _)

theorem later_gone {h : Hub} {s : Controller} (hs : h.controller = s) (ws : Nat) :
    Later s (h.gone ws).controller := by
  subst hs
  unfold gone
  split
  · refine later_deregisterNode ?_ _
    rfl
  · exact .same rfl

theorem later_receive {h : Hub} {s : Controller} (hs : h.controller = s) (ws : Nat)
    (known : Option String) (frame : InboundFrame) :
    Later s (h.receive ws known frame).controller := by
  subst hs
  rcases receive_eq h ws known frame with ⟨hello, rfl⟩ | he
  · rcases handleHello_cases h ws hello with ⟨he, -⟩ | ⟨tokenHash, -, -, he, -⟩
    · simp only [receive, he]
      exact .same rfl
    · simp only [receive, he]
      have hregister : Later (h.takeOver hello.node).controller
          ((h.takeOver hello.node).connect ws hello tokenHash).controller :=
        later_step _ (.registerNode hello.node (hello.capabilities.getD (.obj [])))
      rwa [takeOver_controller] at hregister
  · rw [he]
    cases known with
    | none => exact .same rfl
    | some node => exact later_step h.controller (.frame node frame)

/-- **The clock of the hub does not go back.** -/
theorem later_step (h : Hub) (e : Stimulus) : Later h.controller (h.step e).controller := by
  cases e with
  | connection => exact .same rfl
  | message ws raw =>
      simp only [step, message]
      cases h.sockets[ws]? with
      | none => exact .same rfl
      | some socket =>
          dsimp only
          split
          · exact .same rfl
          · split
            · exact .same rfl
            · cases raw.bind parseInboundFrame with
              | none => exact .same rfl
              | some frame =>
                  refine later_receive ?_ _ _ _
                  rfl
  | closed ws =>
      simp only [step]
      split
      · exact .same rfl
      · refine later_gone ?_ _
        rfl
  | error ws =>
      simp only [step]
      split
      · exact .same rfl
      · refine later_gone ?_ _
        rfl
  | pong ws => exact .same rfl
  | helloTimeout ws =>
      simp only [step]
      cases h.sockets[ws]? with
      | none => exact .same rfl
      | some socket =>
          dsimp only
          split
          · exact .same rfl
          · split <;> exact .same rfl
  | liveness =>
      obtain ⟨sockets, he⟩ := sweep_closes h (h.connections.filter fun c => !c.isAlive)
      simp only [step, sweep, he]
      exact .same rfl
  | tick consumer sends =>
      simp only [step]
      cases h.consumers.find? fun c => c.id == consumer with
      | none => exact .same rfl
      | some c =>
          dsimp only
          rcases drainNode_cases h c.node c.ws sends with he | ⟨-, he⟩ | ⟨new, he, -⟩
          · rw [he]
            exact .same rfl
          · rw [he]
            refine later_deregisterNode ?_ _
            rfl
          · rw [he]
            exact MassDeployment.later_step _ _
  | offlineAlert node =>
      simp only [step]
      split
      · obtain ⟨s, pending, he, hs⟩ := fireOfflineAlert_eq h node
        rw [he]
        rcases hs with rfl | ⟨label, rfl⟩
        · exact .same rfl
        · exact later_alert _ _ _
      · exact .same rfl
  | redeliver node jobs => exact .same rfl
  | restart => exact .same rfl
  | outside a ha => exact MassDeployment.later_step _ _

/-! ## What a socket keeps -/

end Hub

/-- The bucket of a socket, the node it speaks for and the hellos that were accepted on it. -/
def Socket.standing (s : Socket) : TokenBucket ℚ × Option String × List (String × String) :=
  (⟨s.tokens, s.lastRefill⟩, s.node, s.hellos)

namespace Hub

def standing (h : Hub) (ws : Nat) :
    Option (TokenBucket ℚ × Option String × List (String × String)) :=
  (h.sockets[ws]?).map Socket.standing

/-- No socket is heard or answered differently. -/
def SameSockets (h h' : Hub) : Prop := ∀ ws, h'.standing ws = h.standing ws

theorem SameSockets.of_sockets {h h' : Hub} (he : h'.sockets = h.sockets) : SameSockets h h' :=
  fun ws => by rw [standing, he, standing]

theorem SameSockets.trans {h h' h'' : Hub} (h₁ : SameSockets h h') (h₂ : SameSockets h' h'') :
    SameSockets h h'' := fun ws => (h₂ ws).trans (h₁ ws)

theorem standing_onSocket (h : Hub) (ws w : Nat) (f : Socket → Socket) :
    (h.onSocket ws f).standing w =
      if ws = w then (h.sockets[w]?).map (Socket.standing ∘ f) else h.standing w := by
  rw [standing, socket_onSocket]
  split
  · rw [Option.map_map]
  · rfl

theorem sameSockets_onSocket (h : Hub) (ws : Nat) {f : Socket → Socket}
    (hf : ∀ s, (f s).standing = s.standing) : SameSockets h (h.onSocket ws f) := by
  intro w
  rw [standing_onSocket]
  split
  · rw [standing]
    congr 1
    exact funext hf
  · rfl

theorem sameSockets_close (h : Hub) (ws : Nat) : SameSockets h (h.close ws) :=
  sameSockets_onSocket h ws fun _ => rfl

theorem deregisterNode_sockets (h : Hub) (node : String) :
    (h.deregisterNode node).sockets = h.sockets := by
  obtain ⟨s, pending, he, -⟩ := deregisterNode_eq h node
  rw [he]
  show (h.dropConnection node).sockets = h.sockets
  unfold dropConnection
  cases h.connection node <;> rfl

theorem sameSockets_gone (h : Hub) (ws : Nat) : SameSockets h (h.gone ws) := by
  have htimer : SameSockets h (h.onSocket ws fun s => { s with helloTimer := false }) :=
    sameSockets_onSocket h ws fun _ => rfl
  unfold gone
  split
  · exact htimer.trans (.of_sockets (deregisterNode_sockets _ _))
  · exact htimer

theorem sameSockets_takeOver (h : Hub) (node : String) : SameSockets h (h.takeOver node) := by
  unfold takeOver
  cases h.connection node with
  | none => exact .of_sockets rfl
  | some existing =>
      have hclosed : SameSockets h ((h.clearInterval existing.consumer).close existing.ws) :=
        sameSockets_close (h.clearInterval existing.consumer) existing.ws
      exact hclosed.trans (sameSockets_onSocket _ _ fun _ => rfl)

/-! ## Messages -/

/-- What a socket is refilled by in a millisecond. -/
def msgRate : ℚ := msgRatePerSec / 1000

theorem refill_eq (s : Socket) (now : Nat) : (s.refill now).standing =
    (⟨(TokenBucket.mk s.tokens s.lastRefill).level msgRate msgBurst now, now⟩, s.node,
      s.hellos) := by
  have hrate : s.tokens + ((now : ℚ) - s.lastRefill) / 1000 * msgRatePerSec =
      s.tokens + msgRate * (now - s.lastRefill) := by
    unfold msgRate
    ring
  simp only [Socket.refill, Socket.standing, TokenBucket.level, hrate]

theorem refill_tokens (s : Socket) (now : Nat) : (s.refill now).tokens =
    (TokenBucket.mk s.tokens s.lastRefill).level msgRate msgBurst (now : ℚ) :=
  congrArg (fun x => x.1.tokens) (refill_eq s now)

/-- The hub takes the message up. -/
def admits (ws : Nat) (h : Hub) : Stimulus → Bool
  | .message w _ => w == ws && (h.sockets[w]?).any fun s =>
      s.readyState != .closed && !decide ((s.refill h.controller.now).tokens < 1)
  | _ => false

/-- The hub in front of a message that was paid for. -/
def paid (h : Hub) (ws : Nat) : Hub :=
  (h.onSocket ws fun s => s.refill h.controller.now).onSocket ws fun s =>
    { s with tokens := s.tokens - 1 }

/-- A message is not heard, or not admitted, or nothing to the hub, or received. -/
theorem message_cases (h : Hub) (ws : Nat) (raw : Option Json) :
    (h.admits ws (.message ws raw) = false ∧ (h.message ws raw = h ∨
      ∃ socket, h.sockets[ws]? = some socket ∧ (socket.refill h.controller.now).tokens < 1 ∧
        h.message ws raw = (h.onSocket ws fun s => s.refill h.controller.now).close ws)) ∨
    ∃ socket, h.sockets[ws]? = some socket ∧ h.admits ws (.message ws raw) = true ∧
      ¬ (socket.refill h.controller.now).tokens < 1 ∧
      h.message ws raw =
        match raw.bind parseInboundFrame with
        | none => h.paid ws
        | some frame => (h.paid ws).receive ws socket.node frame := by
  unfold message admits
  cases hs : h.sockets[ws]? with
  | none => exact .inl ⟨by simp [hs], .inl rfl⟩
  | some socket =>
      by_cases hclosed : socket.readyState = .closed
      · exact .inl ⟨by simp [hs, hclosed], .inl (if_pos hclosed)⟩
      · by_cases hpay : (socket.refill h.controller.now).tokens < 1
        · refine .inl ⟨by simp [hs, hpay], .inr ⟨socket, rfl, hpay, ?_⟩⟩
          simp only [if_neg hclosed, if_pos hpay]
        · refine .inr ⟨socket, rfl, by simp [hs, hclosed, hpay], hpay, ?_⟩
          simp only [if_neg hclosed, if_neg hpay]
          rfl

/-- A message that is not admitted does nothing to the controller. -/
theorem message_controller_of_not_admits {h : Hub} {ws : Nat} {raw : Option Json}
    (hno : h.admits ws (.message ws raw) = false) :
    (h.message ws raw).controller = h.controller := by
  rcases message_cases h ws raw with ⟨-, he | ⟨socket, -, -, he⟩⟩ | ⟨socket, -, hyes, -⟩
  · rw [he]
  · rw [he]
    rfl
  · rw [hyes] at hno
    cases hno

theorem take_of_lt {b : TokenBucket ℚ} {now : ℚ} (hlt : b.level msgRate msgBurst now < 1) :
    b.take msgRate msgBurst now = (⟨b.level msgRate msgBurst now, now⟩, false) := by
  unfold TokenBucket.take
  exact if_pos hlt

theorem take_of_not_lt {b : TokenBucket ℚ} {now : ℚ} (hlt : ¬ b.level msgRate msgBurst now < 1) :
    b.take msgRate msgBurst now = (⟨b.level msgRate msgBurst now - 1, now⟩, true) := by
  unfold TokenBucket.take
  exact if_neg hlt

/-- The node a socket speaks for and the hellos accepted on it, after a message. -/
def Answered (node : Option String) (hellos : List (String × String)) (node' : Option String)
    (hellos' : List (String × String)) : Prop :=
  (node' = node ∧ hellos' = hellos) ∨ (node' = none ∧ hellos' = hellos) ∨
    ∃ name token, node' = some name ∧ hellos' = (name, token) :: hellos

/-- A socket was heard, and whether it had a token to pay; no other socket was. -/
def Heard (h h' : Hub) (ws : Nat) (taken : Bool) : Prop :=
  (∀ w, w ≠ ws → h'.standing w = h.standing w) ∧ ∃ b node hellos node' hellos',
    h.standing ws = some (b, node, hellos) ∧
      (b.take msgRate msgBurst (h.controller.now : ℚ)).2 = taken ∧
      h'.standing ws =
        some ((b.take msgRate msgBurst (h.controller.now : ℚ)).1, node', hellos') ∧
      Answered node hellos node' hellos'

theorem standing_eq_some {h : Hub} {ws : Nat} {socket : Socket}
    (hs : h.sockets[ws]? = some socket) :
    h.standing ws = some socket.standing := by
  rw [standing, hs]
  rfl

theorem standing_onSocket_of_ne {h : Hub} {ws w : Nat} {f : Socket → Socket} (hw : w ≠ ws) :
    (h.onSocket ws f).standing w = h.standing w := by
  rw [standing_onSocket, if_neg fun he => hw he.symm]

/-- A socket that is written to. -/
theorem standing_onSocket_self {h : Hub} {ws : Nat} {f : Socket → Socket}
    {g : TokenBucket ℚ × Option String × List (String × String) →
      TokenBucket ℚ × Option String × List (String × String)}
    (hf : ∀ s, (f s).standing = g s.standing) :
    (h.onSocket ws f).standing ws = (h.standing ws).map g := by
  rw [standing_onSocket, if_pos rfl, standing, Option.map_map]
  congr 1
  exact funext hf

/-- A hello that is accepted, or is not, or another frame. -/
theorem receive_standing {h : Hub} {ws : Nat} (known : Option String) (frame : InboundFrame)
    {b : TokenBucket ℚ} {node : Option String} {hellos : List (String × String)}
    (hs : h.standing ws = some (b, node, hellos)) :
    (∀ w, w ≠ ws → (h.receive ws known frame).standing w = h.standing w) ∧
      ∃ node' hellos', (h.receive ws known frame).standing ws = some (b, node', hellos') ∧
        Answered node hellos node' hellos' := by
  rcases receive_eq h ws known frame with ⟨hello, rfl⟩ | he
  · rcases handleHello_cases h ws hello with ⟨he, -⟩ | ⟨tokenHash, -, -, he, -⟩
    · have hclose : SameSockets h (h.close ws) := sameSockets_close h ws
      simp only [receive, he]
      refine ⟨fun w hw => (standing_onSocket_of_ne hw).trans (hclose w), none, hellos, ?_,
        .inr (.inl ⟨rfl, rfl⟩)⟩
      rw [standing_onSocket_self (g := fun x => (x.1, none, x.2.2)) fun _ => rfl, hclose ws, hs]
      rfl
    · have hconnect : SameSockets h ((h.takeOver hello.node).connect ws hello tokenHash) :=
        (sameSockets_takeOver h hello.node).trans (.of_sockets rfl)
      simp only [receive, he]
      refine ⟨fun w hw => (standing_onSocket_of_ne hw).trans (hconnect w), some hello.node,
        (hello.node, hello.token) :: hellos, ?_, .inr (.inr ⟨_, _, rfl, rfl⟩)⟩
      rw [standing_onSocket_self
        (g := fun x => (x.1, some hello.node, (hello.node, hello.token) :: x.2.2)) fun _ => rfl,
        hconnect ws, hs]
      rfl
  · have hsame : SameSockets h (h.heard known frame) := .of_sockets (by cases known <;> rfl)
    rw [he]
    exact ⟨fun w _ => hsame w, node, hellos, (hsame ws).trans hs, .inl ⟨rfl, rfl⟩⟩

theorem message_heard (h : Hub) (ws : Nat) (raw : Option Json) :
    SameSockets h (h.message ws raw) ∧ h.admits ws (.message ws raw) = false ∨
      h.Heard (h.message ws raw) ws (h.admits ws (.message ws raw)) := by
  rcases message_cases h ws raw with ⟨hno, he | ⟨socket, hs, hlt, he⟩⟩ |
    ⟨socket, hs, hyes, hlt, he⟩
  · rw [he]
    exact .inl ⟨fun _ => rfl, hno⟩
  · right
    have hlevel : (TokenBucket.mk socket.tokens socket.lastRefill).level msgRate msgBurst
        (h.controller.now : ℚ) < 1 := by
      rwa [refill_tokens] at hlt
    rw [he, hno]
    refine ⟨fun w hw => (sameSockets_close _ ws w).trans (standing_onSocket_of_ne hw),
      _, _, _, _, _, standing_eq_some hs, ?_, ?_, .inl ⟨rfl, rfl⟩⟩
    · exact congrArg Prod.snd (take_of_lt hlevel)
    · rw [take_of_lt hlevel, sameSockets_close _ ws ws, standing_onSocket, if_pos rfl, hs]
      exact congrArg some (refill_eq socket h.controller.now)
  · right
    rw [refill_tokens] at hlt
    have hpaid : (h.paid ws).standing ws = some
        (((TokenBucket.mk socket.tokens socket.lastRefill).take msgRate msgBurst
          (h.controller.now : ℚ)).1, socket.node, socket.hellos) := by
      rw [take_of_not_lt hlt, paid,
        standing_onSocket_self (g := fun x => (⟨x.1.tokens - 1, x.1.last⟩, x.2)) fun _ => rfl,
        standing_onSocket, if_pos rfl, hs, Option.map_some, Option.map_some, Function.comp_apply,
        refill_eq]
    have hothers (w : Nat) (hw : w ≠ ws) : (h.paid ws).standing w = h.standing w :=
      (standing_onSocket_of_ne hw).trans (standing_onSocket_of_ne hw)
    have htaken := congrArg Prod.snd (take_of_not_lt hlt)
    rw [hyes, he]
    cases raw.bind parseInboundFrame with
    | none => exact ⟨hothers, _, _, _, _, _, standing_eq_some hs, htaken, hpaid, .inl ⟨rfl, rfl⟩⟩
    | some frame =>
        obtain ⟨hrest, node', hellos', hstanding, hanswered⟩ :=
          receive_standing socket.node frame hpaid
        exact ⟨fun w hw => (hrest w hw).trans (hothers w hw), _, _, _, node', hellos',
          standing_eq_some hs, htaken, hstanding, hanswered⟩

/-! ## Steps -/

theorem sameSockets_fold (h : Hub) (dead : List NodeConn) :
    SameSockets h (dead.foldl (fun h c => h.close c.ws) h) := by
  induction dead generalizing h with
  | nil => exact fun _ => rfl
  | cons c dead ih => exact (sameSockets_close h c.ws).trans (ih _)

/-- **What an event does to the sockets**: it opens one, or one is heard, or none. -/
theorem step_standing (h : Hub) (e : Stimulus) :
    (SameSockets h (h.step e) ∧ ∀ ws, h.admits ws e = false) ∨
      (∃ ws, h.standing ws = none ∧
        (h.step e).standing ws = some (.full msgBurst h.controller.now, none, []) ∧
        (∀ w, w ≠ ws → (h.step e).standing w = h.standing w) ∧ ∀ w, h.admits w e = false) ∨
      ∃ ws, h.Heard (h.step e) ws (h.admits ws e) ∧ ∀ w, w ≠ ws → h.admits w e = false := by
  cases e with
  | connection =>
      refine .inr (.inl ⟨h.sockets.length, ?_, ?_, fun w hw => ?_, fun _ => rfl⟩)
      · simp [standing]
      · simp [standing, step, Socket.standing, TokenBucket.full]
      · simp only [standing, step]
        congr 1
        rcases Nat.lt_or_gt_of_ne hw with hlt | hlt
        · exact List.getElem?_append_left hlt
        · have hold : h.sockets.length ≤ w := hlt.le
          have hnew : (h.sockets ++
              [({ tokens := msgBurst, lastRefill := h.controller.now } : Socket)]).length ≤ w := by
            simp only [List.length_append, List.length_singleton]
            omega
          rw [List.getElem?_eq_none hold, List.getElem?_eq_none hnew]
  | message ws raw =>
      have hother (w : Nat) (hw : w ≠ ws) : h.admits w (.message ws raw) = false := by
        have hne : ¬ ws = w := fun he => hw he.symm
        simp [admits, hne]
      rcases message_heard h ws raw with ⟨hsame, hno⟩ | hheard
      · refine .inl ⟨hsame, fun w => ?_⟩
        by_cases hw : w = ws
        · rw [hw]
          exact hno
        · exact hother w hw
      · exact .inr (.inr ⟨ws, hheard, hother⟩)
  | closed ws =>
      refine .inl ⟨?_, fun _ => rfl⟩
      simp only [step]
      split
      · exact fun _ => rfl
      · have hclosed : SameSockets h (h.onSocket ws fun s => { s with readyState := .closed }) :=
          sameSockets_onSocket h ws fun _ => rfl
        exact hclosed.trans (sameSockets_gone _ ws)
  | error ws =>
      refine .inl ⟨?_, fun _ => rfl⟩
      simp only [step]
      split
      · exact fun _ => rfl
      · exact (sameSockets_close h ws).trans (sameSockets_gone _ ws)
  | pong ws => exact .inl ⟨.of_sockets rfl, fun _ => rfl⟩
  | helloTimeout ws =>
      refine .inl ⟨?_, fun _ => rfl⟩
      have htimer : SameSockets h (h.onSocket ws fun s => { s with helloTimer := false }) :=
        sameSockets_onSocket h ws fun _ => rfl
      simp only [step]
      cases h.sockets[ws]? with
      | none => exact fun _ => rfl
      | some socket =>
          dsimp only
          split
          · exact fun _ => rfl
          · split
            · exact htimer.trans (sameSockets_close _ ws)
            · exact htimer
  | liveness => exact .inl ⟨sameSockets_fold h _, fun _ => rfl⟩
  | tick consumer sends =>
      refine .inl ⟨?_, fun _ => rfl⟩
      simp only [step]
      cases h.consumers.find? fun c => c.id == consumer with
      | none => exact fun _ => rfl
      | some c =>
          dsimp only
          rcases drainNode_cases h c.node c.ws sends with he | ⟨-, he⟩ | ⟨new, he, -⟩
          · rw [he]
            exact fun _ => rfl
          · rw [he]
            have hrevoked : SameSockets (h.close c.ws)
                ((h.close c.ws).onSocket c.ws fun s => { s with revoked := true }) :=
              sameSockets_onSocket _ c.ws fun _ => rfl
            exact ((sameSockets_close h c.ws).trans hrevoked).trans
              (.of_sockets (deregisterNode_sockets _ c.node))
          · rw [he]
            exact .of_sockets rfl
  | offlineAlert node =>
      refine .inl ⟨?_, fun _ => rfl⟩
      simp only [step]
      split
      · obtain ⟨s, pending, he, -⟩ := fireOfflineAlert_eq h node
        rw [he]
        exact .of_sockets rfl
      · exact fun _ => rfl
  | redeliver node jobs => exact .inl ⟨.of_sockets rfl, fun _ => rfl⟩
  | restart =>
      refine .inl ⟨fun ws => ?_, fun _ => rfl⟩
      simp only [standing, step, List.getElem?_map, Option.map_map]
      rfl
  | outside a ha => exact .inl ⟨.of_sockets rfl, fun _ => rfl⟩

/-- What a socket has to pay with; one that is still to open has everything. -/
def bucket (ws : Nat) (h : Hub) : TokenBucket ℚ :=
  match h.standing ws with
  | some (b, _) => b
  | none => .full msgBurst 0

theorem bucket_of_standing {h : Hub} {ws : Nat} {b : TokenBucket ℚ}
    {x : Option String × List (String × String)} (hs : h.standing ws = some (b, x)) :
    h.bucket ws = b := by
  rw [bucket, hs]

theorem bucket_congr {h h' : Hub} {ws : Nat} (hs : h'.standing ws = h.standing ws) :
    bucket ws h' = bucket ws h := by
  rw [bucket, hs, bucket]

theorem msgRate_nonneg : 0 ≤ msgRate := by
  unfold msgRate msgRatePerSec
  norm_num

theorem msgBurst_nonneg : 0 ≤ msgBurst := by
  unfold msgBurst
  norm_num

/-- **An event pays** for the message it is, and nobody else's. -/
theorem step_pays (ws : Nat) (h : Hub) (e : Stimulus)
    (hsound : (bucket ws h).Sound (h.controller.now : ℚ)) :
    (h.controller.now : ℚ) ≤ (h.step e).controller.now ∧
      (bucket ws (h.step e)).Sound (h.controller.now : ℚ) ∧
      (bucket ws (h.step e)).level msgRate msgBurst h.controller.now +
        (if h.admits ws e = true then 1 else 0) ≤
      (bucket ws h).level msgRate msgBurst h.controller.now := by
  refine ⟨by exact_mod_cast (later_step h e).now, ?_⟩
  -- an event that does not concern the socket
  have hquiet (hs : (h.step e).standing ws = h.standing ws) (hno : h.admits ws e = false) :
      (bucket ws (h.step e)).Sound (h.controller.now : ℚ) ∧
        (bucket ws (h.step e)).level msgRate msgBurst h.controller.now +
          (if h.admits ws e = true then 1 else 0) ≤
        (bucket ws h).level msgRate msgBurst h.controller.now := by
    rw [bucket_congr hs, hno, if_neg (by decide), add_zero]
    exact ⟨hsound, le_rfl⟩
  rcases step_standing h e with ⟨hsame, hno⟩ | ⟨w, hnone, hopened, hothers, hno⟩ |
    ⟨w, hheard, hno⟩
  · exact hquiet (hsame ws) (hno ws)
  · by_cases hw : ws = w
    · subst hw
      have hfull : bucket ws h = .full msgBurst 0 := by rw [bucket, hnone]
      have hnew := bucket_of_standing hopened
      have hlevel : msgBurst ≤ (bucket ws h).level msgRate msgBurst (h.controller.now : ℚ) := by
        rw [hfull]
        refine le_min le_rfl (le_add_of_nonneg_right ?_)
        exact mul_nonneg msgRate_nonneg (by simp [TokenBucket.full])
      rw [hnew, hno, if_neg (by decide), add_zero, TokenBucket.level_full]
      exact ⟨⟨msgBurst_nonneg, le_rfl⟩, hlevel⟩
    · exact hquiet (hothers ws hw) (hno ws)
  · by_cases hw : ws = w
    · subst hw
      obtain ⟨-, b, node, hellos, node', hellos', hs, htaken, hs', -⟩ := hheard
      have hpay := TokenBucket.level_take msgRate msgBurst b (h.controller.now : ℚ)
      rw [bucket_of_standing hs] at hsound
      rw [bucket_of_standing hs', bucket_of_standing hs, ← htaken]
      exact ⟨hsound.take msgRate_nonneg msgBurst_nonneg, hpay.le⟩
    · exact hquiet (hheard.1 ws hw) (hno ws hw)

/-! ## Runs -/

/-- What holds of the sockets of every hub: none owes a token, and each speaks for a node it had a
hello accepted for. -/
structure Admitted (h : Hub) : Prop where
  sound : ∀ ws, (bucket ws h).Sound (h.controller.now : ℚ)
  speaks : ∀ ws b node hellos, h.standing ws = some (b, some node, hellos) →
    ∃ token, (node, token) ∈ hellos

theorem Admitted.step {h : Hub} (ha : h.Admitted) (e : Stimulus) : (h.step e).Admitted where
  sound ws := by
    obtain ⟨hlater, hsound, -⟩ := step_pays ws h e (ha.sound ws)
    exact hsound.later hlater
  speaks ws b node hellos hs := by
    rcases step_standing h e with ⟨hsame, -⟩ | ⟨w, -, hopened, hothers, -⟩ | ⟨w, hheard, -⟩
    · exact ha.speaks ws b node hellos ((hsame ws).symm.trans hs)
    · by_cases hw : ws = w
      · rw [hw, hopened] at hs
        cases hs
      · exact ha.speaks ws b node hellos ((hothers ws hw).symm.trans hs)
    · by_cases hw : ws = w
      · obtain ⟨-, b₀, node₀, hellos₀, node', hellos', hs₀, -, hs', hanswered⟩ := hheard
        rw [hw, hs'] at hs
        cases hs
        rcases hanswered with ⟨rfl, rfl⟩ | ⟨hnone, -⟩ | ⟨name, token, hname, rfl⟩
        · exact ha.speaks w b₀ node hellos hs₀
        · cases hnone
        · cases hname
          exact ⟨token, List.mem_cons_self⟩
      · exact ha.speaks ws b node hellos ((hheard.1 ws hw).symm.trans hs)

theorem admitted_start (s : Controller) : (start s).Admitted where
  sound ws := ⟨msgBurst_nonneg, by simp [bucket, standing, start, TokenBucket.full]⟩
  speaks ws b node hellos hs := by
    simp [standing, start] at hs

/-! ## What a message does to the controller -/

/-- A hello passes every check of `handleHello`: those of its own data, and that no open socket
holds the connection of the node. -/
structure Accepts (h : Hub) (hello : HelloFrame) : Prop where
  allowed : helloAllowed h.controller hello = true
  free : ∀ existing, h.connection hello.node = some existing → h.readyState existing.ws ≠ .opened

/-- A hello is answered with the node exactly where it passes. -/
theorem accepts_iff {h : Hub} {ws : Nat} {hello : HelloFrame} :
    h.Accepts hello ↔ (h.handleHello ws hello).1 = some hello.node := by
  rcases handleHello_cases h ws hello with ⟨he, htaken⟩ | ⟨tokenHash, -, hallowed, he, hfree⟩
  · rw [he]
    constructor
    · intro haccepts
      obtain ⟨existing, hconn, hopen⟩ := htaken haccepts.allowed
      exact absurd hopen (haccepts.free existing hconn)
    · intro hnode
      cases hnode
  · rw [he]
    exact ⟨fun _ => rfl, fun _ => ⟨hallowed, hfree⟩⟩

/-- To pay for a message neither opens nor closes a socket, nor does it move a connection. -/
theorem Accepts.of_paid {h : Hub} {ws : Nat} {hello : HelloFrame}
    (haccepts : (h.paid ws).Accepts hello) : h.Accepts hello where
  allowed := haccepts.allowed
  free existing hconn := by
    have hstate : (h.paid ws).readyState existing.ws = h.readyState existing.ws := by
      rw [paid, readyState_onSocket _ _ _ (f := fun s => { s with tokens := s.tokens - 1 })
        fun _ => rfl]
      exact readyState_onSocket _ _ _ fun _ => rfl
    rw [← hstate]
    exact haccepts.free existing hconn

/-- A frame that changes the controller: a hello that passes the checks, or one that is ingested. -/
theorem receive_changes {h : Hub} {ws : Nat} {known : Option String} {frame : InboundFrame}
    (hne : (h.receive ws known frame).controller ≠ h.controller) :
    (∃ hello, frame = .hello hello ∧ h.Accepts hello) ∨
      ∃ node, known = some node ∧
        (h.receive ws known frame).controller = (ingestFrame node frame).after h.controller := by
  rcases receive_eq h ws known frame with ⟨hello, rfl⟩ | he
  · left
    rcases handleHello_cases h ws hello with ⟨he, -⟩ | ⟨tokenHash, -, -, he, -⟩
    · simp only [receive, he] at hne
      exact absurd rfl hne
    · exact ⟨hello, rfl, accepts_iff.mpr (congrArg Prod.fst he)⟩
  · right
    rw [he] at hne ⊢
    cases known with
    | none => exact absurd rfl hne
    | some node => exact ⟨node, rfl, rfl⟩

end Hub

/-- **What a socket may do.** In every run of the hub, over every stretch of it, the messages of a
socket that are taken up are at most a hundred, and fifty more for each second of the stretch. A
message that changes the controller is one of these: a hello that passes every check, or a frame
that is ingested for a node the socket had a hello accepted for. -/
theorem socket_admission (s : Controller) (before es : List Stimulus) (ws : Nat) :
    let h := Run.run Hub.step (.start s) before
    (Run.countAlong Hub.step (fun h e => h.admits ws e = true) h es : ℚ) ≤
        100 + 50 * ((Run.run Hub.step h es).controller.now - h.controller.now) / 1000 ∧
      ∀ raw, (h.step (.message ws raw)).controller ≠ h.controller →
        h.admits ws (.message ws raw) = true ∧ ∃ frame, raw.bind parseInboundFrame = some frame ∧
          ((∃ hello, frame = .hello hello ∧ h.Accepts hello) ∨
            ∃ node token, (node, token) ∈ h.hellos ws ∧
              (h.step (.message ws raw)).controller =
                (ingestFrame node frame).after h.controller) := by
  intro h
  have ha : h.Admitted := Run.invariant_all (fun _ e ha => ha.step e) (Hub.admitted_start s)
  refine ⟨?_, fun raw hne => ?_⟩
  · have hbound := TokenBucket.countAlong_le (C := fun h e => Hub.admits ws h e = true)
      Hub.msgRate_nonneg Hub.msgBurst_nonneg (Hub.step_pays ws) (ha.sound ws) es
    refine hbound.trans (le_of_eq ?_)
    unfold Hub.msgRate msgRatePerSec msgBurst
    ring
  · have hyes : h.admits ws (.message ws raw) = true := by
      by_contra hno
      exact hne (Hub.message_controller_of_not_admits (Bool.eq_false_iff.mpr hno))
    refine ⟨hyes, ?_⟩
    rcases Hub.message_cases h ws raw with ⟨hno, -⟩ | ⟨socket, hs, -, -, he⟩
    · rw [hyes] at hno
      cases hno
    · replace he : h.step (.message ws raw) = _ := he
      rw [he] at hne ⊢
      cases hframe : raw.bind parseInboundFrame with
      | none =>
          rw [hframe] at hne
          exact absurd rfl hne
      | some frame =>
          rw [hframe] at hne
          refine ⟨frame, rfl, ?_⟩
          rcases Hub.receive_changes hne with hhello | ⟨node, hnode, hingest⟩
          · obtain ⟨hello, hframe, haccepts⟩ := hhello
            exact .inl ⟨hello, hframe, haccepts.of_paid⟩
          · have hstanding := Hub.standing_eq_some hs
            rw [Socket.standing, hnode] at hstanding
            obtain ⟨token, htoken⟩ := ha.speaks ws _ node _ hstanding
            refine .inr ⟨node, token, ?_, hingest⟩
            rw [Hub.hellos, hs]
            exact htoken

end MassDeployment
