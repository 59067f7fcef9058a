import MassDeployment.Controller.Delivery
import MassDeployment.Controller.Lifecycle

set_option autoImplicit false

/-! # What a deleted node leaves behind

`deleteNode` clears the rows of the log and leaves the queue of the node as it is, and the
queue is found by the name of the node. A job that is still there is sent to the next node
that connects under the name.
-/

namespace MassDeployment

open Js Prog

/-- A run of the hub of a controller with empty databases. -/
abbrev hubRun (host : Host) (es : List Stimulus) : Hub := Run.run Hub.step (.start (.init host)) es

theorem evolvesWalk : HubWalk Controller.Evolves where
  act := step_evolves
  alert node label := (alertNodeOffline node label).keeps
  redeliver node p := (writeQueue node fun q => q.expire p).keeps
  restart s := { Controller.Evolves.refl s with }

theorem suppliedWalk : HubWalk Supplied where
  act := supplied_step
  alert _ _ := walk_alertAdmins supplyWalk.enrols.toWalk _ _ _
  redeliver _ p _ := Supplied.writeQueue fun a ha => by rwa [DurableQueue.payloads_expire] at ha
  restart _ := .frame rfl le_rfl rfl

/-- The task ids of issued tasks were drawn. -/
def IdsDrawn (s : Controller) : Prop := ∀ y ∈ s.issued, ∃ d < s.draws, y.2.id = s.host.uuid d

theorem IdsDrawn.evolves {s s' : Controller} (hd : IdsDrawn s) (h : s.Evolves s') : IdsDrawn s' := by
  intro y hy
  obtain ⟨new, hnew, hdrawn, _⟩ := h.issued
  rw [hnew] at hy
  rcases List.mem_append.mp hy with hy | hy
  · obtain ⟨d, _, hlt, hid⟩ := hdrawn y hy
    exact ⟨d, hlt, by rw [hid, h.host]⟩
  · obtain ⟨d, hlt, hid⟩ := hd y hy
    exact ⟨d, hlt.trans_le h.draws, by rw [hid, h.host]⟩

theorem idsDrawn_hubRun (host : Host) (es : List Stimulus) : IdsDrawn (hubRun host es).controller :=
  Run.invariant_all (I := fun h => IdsDrawn h.controller)
    (fun h e hd => hd.evolves (evolvesWalk.step h e)) (by intro y hy; cases hy)

/-- Everything sent in a run came out of the queues of a state on the way. -/
theorem sent_supplied (h : Hub) (es : List Stimulus) :
    ∃ new, (Run.run Hub.step h es).sent = new ++ h.sent ∧ ∀ x ∈ new, ∃ s,
      Supplied h.controller s ∧ Payload.sealed x.frame ∈ (s.queues x.node).payloads := by
  induction es generalizing h with
  | nil => exact ⟨[], rfl, by simp⟩
  | cons e es ih =>
      obtain ⟨new, hnew, hvet⟩ := h.step_sent e
      obtain ⟨later, hlater, hsup⟩ := ih (h.step e)
      refine ⟨later ++ new, ?_, fun x hx => ?_⟩
      · rw [Run.run_cons, hlater, hnew, List.append_assoc]
      · rcases List.mem_append.mp hx with hx | hx
        · obtain ⟨s, hs, hmem⟩ := hsup x hx
          exact ⟨s, (suppliedWalk.step h e).trans hs, hmem⟩
        · obtain ⟨s, _, hs, _, hmem⟩ := (hvet x hx).row
          exact ⟨s, hs, hmem⟩

/-- Between `h` and `h'` no task was sent that had been enqueued for the node before `h`. -/
def NoneSentSince (name : String) (h h' : Hub) : Prop :=
  ∀ x ∈ h'.sent.take (h'.sent.length - h.sent.length), x.node = name →
    ∀ y ∈ h.controller.issued, y.1 = name → y.2.id ≠ x.frame.id

/-- The queue of the node holds no task. -/
def Unqueued (s : Controller) (name : String) : Prop :=
  ∀ frame, Payload.sealed frame ∉ (s.queues name).payloads

/-- **A node that is deleted with an empty queue leaves no work behind**, whoever connects
under its name. -/
theorem deleted_leaves_no_work (host : Host) (earlier later : List Stimulus) (name : String)
    (actor : Option String) (force : Bool)
    (hempty : Unqueued (hubRun host earlier).controller name) :
    NoneSentSince name (hubRun host earlier)
      (hubRun host (earlier ++ .outside (.deleteNode name actor force) rfl :: later)) := by
  have hdrawn := idsDrawn_hubRun host earlier
  generalize hafter : Stimulus.outside (.deleteNode name actor force) rfl :: later = rest
  have happend : hubRun host (earlier ++ rest) = Run.run Hub.step (hubRun host earlier) rest :=
    Run.run_append ..
  rw [happend]
  clear happend hafter
  generalize hubRun host earlier = h at hempty hdrawn
  obtain ⟨new, hnew, hsup⟩ := sent_supplied h rest
  intro x hx hnode y hy hyname hid
  have hx : x ∈ new := by
    rw [hnew] at hx
    simpa using hx
  -- the job was queued after the deletion, so its task id was drawn later
  obtain ⟨s, hs, hmem⟩ := hsup x hx
  rw [hnode] at hmem
  rcases hs.jobs name x.frame hmem with hmem | ⟨d, hle, _, hd⟩
  · exact hempty x.frame hmem
  · obtain ⟨d', hlt, hd'⟩ := hdrawn y hy
    have hsame : d' = d := h.controller.host.uuid_injective _ _ (by rw [← hd', hid, hd])
    omega

/-- A node connects and is told to reboot. -/
def rebooted : List Stimulus :=
  [.outside (.provisionNode "a" none) rfl, .outside (.provisionNode "b" none) rfl, .connection,
    .message 0 (some (helloOf "b" "t")), .outside (.maintain "b" .reboot none) rfl, .tick 0 [true]]

/-- Another machine connects under its name, and is told to check itself. -/
def replaced : List Stimulus :=
  [.closed 0, .outside (.provisionNode "b" none) rfl, .connection,
    .message 1 (some (helloOf "b" "ttt")), .outside (.maintain "b" .check none) rfl,
    .tick 1 [true]]

/-- The reboot was sent and acknowledged when the node is deleted: the machine that comes after it
gets the task of its own. -/
theorem deleted_leaves_no_work_replaced :
    ((hubRun .plain (rebooted ++ .outside (.deleteNode "b" none false) rfl :: replaced)).sent.map
      fun x => (x.ws, x.node, x.frame.action)) = [(1, "b", .nodeCheck), (0, "b", .nodeReboot)] ∧
    NoneSentSince "b" (hubRun .plain rebooted)
      (hubRun .plain (rebooted ++ .outside (.deleteNode "b" none false) rfl :: replaced)) := by
  have hempty : Unqueued (hubRun .plain rebooted).controller "b" := by
    intro frame hmem
    have hnil : ((hubRun .plain rebooted).controller.queues "b").payloads.length = 0 := by
      decide +kernel
    rw [List.length_eq_zero_iff.mp hnil] at hmem
    cases hmem
  refine ⟨by decide +kernel, ?_⟩
  exact deleted_leaves_no_work .plain rebooted replaced "b" none false hempty

/-- A reboot is queued for a node that never connects. The node is deleted, provisioned again
under its name, and the machine that connects is told to reboot. -/
theorem old_task_sent_to_new_node :
    ¬ NoneSentSince "n"
      (hubRun .plain
        [.outside (.provisionNode "n" none) rfl, .outside (.maintain "n" .reboot none) rfl])
      (hubRun .plain
        ([.outside (.provisionNode "n" none) rfl, .outside (.maintain "n" .reboot none) rfl] ++
          .outside (.deleteNode "n" none false) rfl ::
            [.outside (.provisionNode "n" none) rfl, .connection,
              .message 0 (some (helloOf "n" "tt")), .tick 0 [true]])) := by
  unfold NoneSentSince
  decide +kernel

end MassDeployment
