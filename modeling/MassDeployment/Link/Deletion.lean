import Mathlib
import MassDeployment.Controller.DataDeletion
import MassDeployment.Link.Verdicts

set_option autoImplicit false

/-! # Whose data an agent deletes

The handlers that delete what a student stored run on the agent, on the word of a frame that has
gone through two queues and a socket. Whatever order the two sides move in, whatever is lost, sent
twice or claimed twice, and whatever results come in over whatever socket: while such a handler runs,
an admin has asked for it.
-/

namespace MassDeployment

open Js Agent Prog

/-! ## What the agent reads -/

/-- `bool(value)`. -/
def Agent.PyValue.truthy : PyValue → Bool
  | .none => false
  | .bool b => b
  | .num q => q ≠ 0
  | .nonFinite => true
  | .str s => s ≠ ""
  | .list items => !items.isEmpty
  | .dict fields => !fields.isEmpty

/-- `params.get(key)`. -/
def Agent.Task.param (task : Task) (key : String) : Option PyValue :=
  match task.params with
  | .dict fields => fields.lookup key
  | _ => none

/-- The handler of the task deletes what a student stored: `remove_student` where `delete_data` is
set, and `delete_cold_student`. -/
def Agent.Task.Deletes (task : Task) : Prop :=
  task.action = "student.remove" ∧ (task.param "delete_data").any PyValue.truthy = true ∨
    task.action = "student.delete_cold"

instance (task : Task) : Decidable task.Deletes := inferInstanceAs (Decidable (_ ∨ _))

/-- The task whose handler has been called and has not returned. -/
def Agent.Phase.running : Phase → Option Task
  | .handling _ task => some task
  | _ => none

/-- The task whose handler runs was asked for. -/
theorem asked_of_running {asked : TaskFrame → Prop} {p : Phase} (h : p.Asked asked) {task : Task}
    (ht : task ∈ p.running) : ∃ frame, asked frame ∧ frame.Asks task := by
  cases p with
  | handling job task' =>
      obtain rfl : task' = task := Option.some.inj ht
      exact h
  | _ => cases ht

theorem lookup_loadedFields (key : String) (fields : List (String × Json)) :
    (loadedFields fields).lookup key = (fields.lookup key).map loaded := by
  induction fields with
  | nil => rfl
  | cons kv fields ih =>
      obtain ⟨k, v⟩ := kv
      rw [loadedFields, List.lookup_cons, List.lookup_cons, ih]
      cases key == k <;> rfl

/-- What the agent takes for a deletion was issued as one. -/
theorem deletes_of_asks {host : Host} {draws : Nat} {frame : TaskFrame} {task : Task}
    (hb : frame.Built host draws) (ha : frame.Asks task) (hdeletes : task.Deletes) :
    frame.Deletes := by
  have haction : task.action = frame.action.text := ha.action
  rcases hdeletes with ⟨hremove, hdata⟩ | hcold
  · have hact : frame.action = .studentRemove := by
      rw [haction] at hremove
      generalize frame.action = action at hremove
      cases action <;> first | rfl | exact absurd hremove (by decide)
    obtain ⟨p, username, deleteData, removal, hparams, -⟩ := hb.remove hact
    have hlookup : frame.params.lookup "delete_data" = some (.bool deleteData) := by
      rw [hparams]
      rfl
    have hparam : task.param "delete_data" = some (.bool deleteData) := by
      rw [Task.param, ha.params]
      show (loadedFields frame.params).lookup "delete_data" = _
      rw [lookup_loadedFields, hlookup]
      rfl
    rw [hparam] at hdata
    obtain rfl : deleteData = true := hdata
    exact .inl ⟨hact, hlookup⟩
  · refine .inr ?_
    rw [haction] at hcold
    generalize frame.action = action at hcold ⊢
    cases action <;> first | rfl | exact absurd hcold (by decide)

/-! ## The controller of a link -/

/-- The tables and the record of issued tasks are what they were. -/
structure SameRecord (s s' : Controller) : Prop where
  db : s'.db = s.db
  issued : s'.issued = s.issued
  host : s'.host = s.host
  draws : s'.draws = s.draws

theorem Deliberate.same {s s' : Controller} (h : Deliberate s) (hs : SameRecord s s')
    (he : s.Evolves s') : Deliberate s' where
  ordered := h.ordered.evolves he (hs.issued.trans (List.nil_append _).symm)
    (orderly_ordinary fun _ hx => absurd hx List.not_mem_nil)
  numbered := numbered_congr hs.host hs.draws.ge hs.issued h.numbered
  linked := hs.db ▸ h.linked
  derived := by
    rw [Derived, hs.issued]
    exact h.derived

namespace Link

/-- **What an event does to the controller**: it performs an act, its own or none that removes a
student, or it touches neither the tables nor the record of issued tasks. -/
theorem controller_step (l : Link) (e : LinkEvent) :
    (∃ a, (l.step e).controller = MassDeployment.step l.controller a ∧
      (e = .act a ∨ ∀ labId studentId deleteData actor,
        a ≠ .removeStudentFromLab labId studentId deleteData actor)) ∨
    SameRecord l.controller (l.step e).controller ∧
      l.controller.Evolves (l.step e).controller := by
  have stays {l' : Link} (h : l'.controller = l.controller) :
      SameRecord l.controller l'.controller ∧ l.controller.Evolves l'.controller := by
    rw [h]
    exact ⟨⟨rfl, rfl, rfl, rfl⟩, .refl _⟩
  cases e with
  | act a =>
      rw [step]
      split
      · exact .inr (stays rfl)
      · exact .inl ⟨a, rfl, .inl rfl⟩
  | tick sends =>
      exact .inl ⟨.drainNode l.node sends, push_controller _ _ _, .inr fun _ _ _ _ h => by cases h⟩
  | redeliver jobs => exact .inr ⟨⟨rfl, rfl, rfl, rfl⟩, Prog.keeps _ _⟩
  | restart => exact .inr ⟨⟨rfl, rfl, rfl, rfl⟩, { Controller.Evolves.refl l.controller with }⟩
  | deliver =>
      rw [step, Link.deliver]
      split <;> exact .inr (stays rfl)
  | arrive =>
      rw [step, Link.arrive]
      split
      · exact .inr (stays rfl)
      · split
        · exact .inr (stays rfl)
        · rename_i received _
          exact .inl ⟨.frame l.node received, rfl, .inr fun _ _ _ _ h => by cases h⟩
  | client e =>
      cases e with
      | claimOutbound =>
          rw [step, clientStep]
          split <;> exact .inr (stays rfl)
      | sendOutbound acked =>
          rw [step, clientStep]
          split <;> exact .inr (stays rfl)
      | _ => exact .inr (stays rfl)
  | _ => exact .inr (stays rfl)

theorem evolves_step (l : Link) (e : LinkEvent) :
    l.controller.Evolves (l.step e).controller := by
  rcases l.controller_step e with ⟨a, ha, -⟩ | ⟨-, he⟩
  · rw [ha]
    exact step_evolves _ _
  · exact he

/-! ## What is on its way down -/

/-- The queues of both sides, the socket and the worker hold tasks that were issued. -/
structure Genuine (l : Link) : Prop where
  deliberate : Deliberate l.controller
  stock : l.controller.InStock
  down : ∀ frame ∈ l.down, l.Asked frame
  client : l.client.Holds l.Asked

theorem genuine_start (host : Host) (reader : Doubles) (node workerId : String) (retainDays : Nat) :
    Genuine (.start host reader node workerId retainDays) where
  deliberate := deliberate_init host
  stock := (Traced.start host reader node workerId retainDays).stock
  down _ hf := absurd hf List.not_mem_nil
  client := ⟨fun _ hp => absurd hp List.not_mem_nil, trivial⟩

namespace Genuine

variable {l : Link}

/-- What was issued stays issued, so what holds it may move. -/
theorem moves (hl : Genuine l) {l' : Link} (hnode : l'.node = l.node)
    (hdeliberate : Deliberate l'.controller) (hstock : l'.controller.InStock)
    (hissued : l.controller.issued ⊆ l'.controller.issued)
    (hdown : ∀ frame ∈ l'.down, frame ∈ l.down ∨ l'.Asked frame)
    (hclient : l'.client.Holds l.Asked) : Genuine l' := by
  have hasked : ∀ frame, l.Asked frame → l'.Asked frame := by
    intro frame hframe
    rw [Asked, hnode]
    exact hissued hframe
  refine ⟨hdeliberate, hstock, fun frame hf => ?_, fun p hp => ?_, hclient.2.mono hasked⟩
  · exact (hdown frame hf).elim (fun hold => hasked _ (hl.down frame hold)) id
  · obtain ⟨frame, hframe, hp⟩ := hclient.1 p hp
    exact ⟨frame, hasked frame hframe, hp⟩

/-- A move of the agent and the socket alone keeps everything held genuine. -/
theorem agent (hl : Genuine l) {l' : Link} (hnode : l'.node = l.node)
    (hcontroller : l'.controller = l.controller) (hdown : ∀ frame ∈ l'.down, frame ∈ l.down)
    (hclient : l'.client.Holds l.Asked) : Genuine l' :=
  hl.moves hnode (hcontroller ▸ hl.deliberate) (hcontroller ▸ hl.stock)
    (hcontroller ▸ List.Subset.refl _) (fun frame hf => .inl (hdown frame hf)) hclient

theorem lose (hl : Genuine l) : Genuine l.lose :=
  hl.agent rfl rfl (fun _ hf => absurd hf List.not_mem_nil) ⟨hl.client.1, hl.client.2⟩

/-- **Step lemma**: an event of the link keeps everything held genuine. -/
theorem step (hl : Genuine l) (e : LinkEvent) : Genuine (l.step e) := by
  have hissued : l.controller.issued ⊆ (l.step e).controller.issued := by
    obtain ⟨new, hnew, -⟩ := (l.evolves_step e).issued
    rw [hnew]
    exact List.subset_append_right _ _
  have hdeliberate : Deliberate (l.step e).controller := by
    rcases l.controller_step e with ⟨a, ha, -⟩ | ⟨hs, he⟩
    · rw [ha]
      exact hl.deliberate.step a
    · exact hl.deliberate.same hs he
  cases e with
  | act a =>
      rw [Link.step]
      split
      · exact hl
      · rename_i hdrains
        have hstep : l.step (.act a) =
            { l with controller := MassDeployment.step l.controller a } := if_neg hdrains
        rw [hstep] at hissued hdeliberate
        exact hl.moves rfl hdeliberate (inStock_step _ _ hl.stock) hissued (fun _ hf => .inl hf)
          hl.client
  | tick sends =>
      refine hl.moves rfl hdeliberate ?_ hissued (fun frame hf => ?_) hl.client
      · show (push l.controller l.node sends).2.InStock
        rw [push_controller]
        exact inStock_step _ _ hl.stock
      · simp only [Link.step, Link.tick] at hf
        split at hf
        · exact (List.mem_append.mp hf).imp id fun hsent => issued_of_push hl.stock hsent
        · exact .inl hf
  | redeliver jobs =>
      have hstock : Keeping Controller.InStock l.controller
          (l.step (.redeliver jobs)).controller := by
        refine inStock_writeQueue (f := fun q => q.expire fun j => jobs.contains j.id) ?_
        rw [DurableQueue.payloads_expire]
      exact hl.moves rfl hdeliberate (hstock hl.stock) hissued (fun _ hf => .inl hf) hl.client
  | restart =>
      have hstock : Keeping Controller.InStock l.controller (l.step .restart).controller :=
        inStock_frame rfl le_rfl rfl rfl rfl
      exact hl.lose.moves rfl hdeliberate (hstock hl.stock) hissued (fun _ hf => .inl hf)
        hl.lose.client
  | deliver =>
      simp only [Link.step, Link.deliver]
      split
      · exact hl
      · rename_i frame rest hdown
        refine hl.agent rfl rfl (fun _ hf => hdown ▸ List.mem_cons_of_mem _ hf)
          ⟨fun p hp => ?_, hl.client.2⟩
        have hp : p ∈ (l.client.tasks.enqueue (some frame.wire)).payloads := hp
        rw [DurableQueue.payloads_enqueue] at hp
        rcases List.mem_append.mp hp with hp | hp
        · exact hl.client.1 p hp
        · exact ⟨frame, hl.down frame (hdown ▸ List.mem_cons_self), List.mem_singleton.mp hp⟩
  | arrive =>
      simp only [Link.step, Link.arrive] at hissued hdeliberate ⊢
      split
      · exact hl
      · rename_i frame rest hup
        split
        · exact hl.agent rfl rfl (fun _ hf => hf) hl.client
        · rename_i received hreceived
          simp only [hup, hreceived] at hissued hdeliberate
          exact hl.moves rfl hdeliberate (inStock_step _ (.frame l.node received) hl.stock) hissued
            (fun _ hf => .inl hf) hl.client
  | client e =>
      cases e with
      | receive raw => exact hl
      | claimOutbound =>
          simp only [Link.step, clientStep]
          split
          · exact hl.agent rfl rfl (fun _ hf => hf)
              (hl.client.step (e := .claimOutbound) fun _ he => by cases he)
          · exact hl
      | sendOutbound acked =>
          simp only [Link.step, clientStep]
          split
          · exact hl.agent rfl rfl (fun _ hf => hf)
              (hl.client.step (e := .sendOutbound acked) fun _ he => by cases he)
          · exact hl
      | restart workerId =>
          exact hl.agent rfl rfl (fun _ hf => absurd hf List.not_mem_nil)
            (hl.client.step (e := .restart workerId) fun _ he => by cases he)
      | _ => exact hl.agent rfl rfl (fun _ hf => hf) (hl.client.step fun _ he => by cases he)
  | dial => exact hl.lose.agent rfl rfl (fun _ hf => hf) hl.lose.client
  | lose => exact hl.lose
  | refuse => exact hl.agent rfl rfl (fun _ hf => hf) hl.client

end Genuine

theorem genuine_run (host : Host) (reader : Doubles) (node workerId : String) (retainDays : Nat)
    (es : List LinkEvent) :
    Genuine (Run.run Link.step (.start host reader node workerId retainDays) es) :=
  Run.invariant_all (I := Genuine) (fun _ e h => h.step e)
    (genuine_start host reader node workerId retainDays)

/-! ## Whole runs -/

/-- Every `student.remove` that was issued goes back to an event that performs the removal. -/
theorem removal_event (host : Host) (reader : Doubles) (node workerId : String) (retainDays : Nat)
    {es : List LinkEvent} {y : String × TaskFrame}
    (hy : y ∈ (Run.run Link.step (.start host reader node workerId retainDays)
      es).controller.issued) (ha : y.2.action = .studentRemove) :
    ∃ before e after, es = before ++ e :: after ∧ ∃ a, e = .act a ∧ Expelling y
      (Run.run Link.step (.start host reader node workerId retainDays) before).controller a := by
  refine Run.exists_origin (M := fun l : Link => y ∈ l.controller.issued)
    (C := fun l e => ∃ a, e = .act a ∧ Expelling y l.controller a) (fun es e hnow => ?_)
    (fun h => absurd h List.not_mem_nil) hy
  have hdrawn := (genuine_run host reader node workerId retainDays es).deliberate.ordered.recorded.drawn
  generalize Run.run Link.step (.start host reader node workerId retainDays) es = l at hnow hdrawn ⊢
  rcases l.controller_step e with ⟨a, hstep, hown⟩ | ⟨hsame, -⟩
  · rw [hstep] at hnow
    rcases expelling_step hdrawn ha hnow with hold | hexpelling
    · exact .inl hold
    · rcases hown with rfl | hnot
      · exact .inr ⟨a, rfl, hexpelling⟩
      · obtain ⟨labId, studentId, deleteData, actor, _, _, _, _, rfl, -⟩ := hexpelling
        exact absurd rfl (hnot labId studentId deleteData actor)
  · rw [hsame.issued] at hnow
    exact .inl hnow

end Link

/-- **An agent deletes what it was asked to delete.** In every run of the controller, the socket and
the agent, whenever the worker is in a handler that deletes what a student stored, an admin has
removed that student from that lab before and asked for the deletion, in the circumstances that
`Requested` tells. -/
theorem agent_deletes_on_request (host : Host) (reader : Doubles) (node workerId : String)
    (retainDays : Nat) (es : List LinkEvent) :
    let start := Link.start host reader node workerId retainDays
    let l := Run.run Link.step start es
    ∀ task ∈ l.client.phase.running, task.Deletes →
      ∃ before labId studentId actor after frame,
        es = before ++ .act (.removeStudentFromLab labId studentId true actor) :: after ∧
        frame.Asks task ∧ (l.node, frame) ∈ l.controller.issued ∧
        (Run.run Link.step start before).controller.Requested l.controller labId studentId
          (l.node, frame) := by
  intro start l task hrunning hdeletes
  have hl : l.Genuine := Link.genuine_run host reader node workerId retainDays es
  obtain ⟨frame, hissued, hasks⟩ := asked_of_running hl.client.2 hrunning
  have hframe : frame.Deletes :=
    deletes_of_asks (hl.deliberate.ordered.recorded.built _ hissued) hasks hdeletes
  have horigin : ∀ y ∈ l.controller.issued, y.2.action = .studentRemove → ∃ s a,
      (∃ before after, es = before ++ .act a :: after ∧
        s = (Run.run Link.step start before).controller) ∧
      Expelling y s a ∧ ∀ z ∈ (step s a).issued, z ∈ l.controller.issued := by
    intro y hy ha
    obtain ⟨before, _, after, hes, a, rfl, hexpelling⟩ :=
      Link.removal_event host reader node workerId retainDays hy ha
    refine ⟨_, a, ⟨before, after, hes, rfl⟩, hexpelling, fun z hz => ?_⟩
    -- a removal is no consumer tick
    have hstep : ((Run.run Link.step start before).step (.act a)).controller =
        step (Run.run Link.step start before).controller a := by
      obtain ⟨labId, studentId, deleteData, actor, _, _, _, _, rfl, -⟩ := hexpelling
      rfl
    have hev : ((Run.run Link.step start before).step (.act a)).controller.Evolves l.controller := by
      have hrun : l = Run.run Link.step ((Run.run Link.step start before).step (.act a)) after := by
        rw [← Run.run_cons, ← Run.run_append, ← hes]
      rw [hrun]
      exact Run.preorder (R := fun l l' : Link => l.controller.Evolves l'.controller)
        Link.evolves_step _ _
    obtain ⟨new, hnew, -⟩ := hev.issued
    rw [hnew, hstep]
    exact List.mem_append_right _ hz
  obtain ⟨_, labId, studentId, actor, ⟨before, after, hes, rfl⟩, hrequested⟩ :=
    hl.deliberate.requested horigin hissued hframe
  exact ⟨before, labId, studentId, actor, after, frame, hes, hasks, hissued, hrequested⟩

/-- The removal of `removed` reaches the agent, which calls its handler. -/
def deletes : List LinkEvent :=
  removed.map .act ++ [.tick [true, true], .dial, .tick [true], .deliver] ++ begins

theorem agent_deletes_on_request_deletes :
    ∃ before labId studentId actor after, deletes =
      before ++ .act (.removeStudentFromLab labId studentId true actor) :: after := by
  have hrunning : ∃ task ∈ (plainRun deletes).client.phase.running, task.Deletes := by
    decide +kernel
  obtain ⟨task, hrunning, hdeletes⟩ := hrunning
  obtain ⟨before, labId, studentId, actor, after, _, hes, -⟩ :=
    agent_deletes_on_request .plain .all "n" "agent-1" 7 deletes task hrunning hdeletes
  exact ⟨before, labId, studentId, actor, after, hes⟩

end MassDeployment
