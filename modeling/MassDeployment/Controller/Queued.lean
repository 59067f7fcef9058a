import MassDeployment.Controller.Mirror
import MassDeployment.Controller.Delivery

set_option autoImplicit false

/-! # A queue in the order of its tasks

The queue of a node holds its tasks in the order in which they were enqueued, whatever is claimed,
given back, handed out again or acknowledged in between. Every act of the controller, and every
event of the hub, leaves some of the old jobs and adds new ones behind them.
-/

namespace MassDeployment

open Js Prog

/-- The task of a job that can be read. -/
def Payload.taskId : Payload → Option String
  | .sealed frame => some frame.id
  | .unreadable _ => none

namespace Controller

/-- The tasks enqueued for a node, oldest first. -/
def enqueued (s : Controller) (node : String) : List String :=
  ((s.issued.filter fun x => x.1 == node).map fun x => x.2.id).reverse

/-- The tasks in the queue of a node, oldest first. -/
def queued (s : Controller) (node : String) : List String :=
  (s.queues node).payloads.filterMap Payload.taskId

/-- Every row of the log is that of an issued task, and these have ids of their own. -/
structure Accounted (s : Controller) : Prop where
  numbered : Numbered s
  logged : ∀ t ∈ s.db.taskLog.rows, ∃ x ∈ s.issued, x.2.id = t.taskUuid

/-- New tasks are behind the old ones, in the queue as in the order of enqueueing. -/
structure Lengthens (node : String) (s s' : Controller) : Prop where
  host : s'.host = s.host
  draws : s.draws ≤ s'.draws
  appended : ∃ new, s'.enqueued node = s.enqueued node ++ new ∧
    (s'.queued node).Sublist (s.queued node ++ new) ∧ ∀ id ∈ new, s.drewId s' id

namespace Lengthens

variable {node : String}

theorem refl (s : Controller) : Lengthens node s s :=
  ⟨rfl, le_rfl, [], by simp, by simp, by simp⟩

theorem trans {s s' s'' : Controller} (h : Lengthens node s s') (h' : Lengthens node s' s'') :
    Lengthens node s s'' := by
  obtain ⟨new, henq, hqueue, hdrawn⟩ := h.appended
  obtain ⟨new', henq', hqueue', hdrawn'⟩ := h'.appended
  refine ⟨h'.host.trans h.host, h.draws.trans h'.draws, new ++ new', ?_, ?_, ?_⟩
  · rw [henq', henq, List.append_assoc]
  · rw [← List.append_assoc]
    exact hqueue'.trans (hqueue.append_right new')
  · intro id hid
    rcases List.mem_append.mp hid with hid | hid
    · obtain ⟨d, h1, h2, h3⟩ := hdrawn id hid
      exact ⟨d, h1, h2.trans_le h'.draws, h3⟩
    · obtain ⟨d, h1, h2, h3⟩ := hdrawn' id hid
      exact ⟨d, h.draws.trans h1, h2, h.host ▸ h3⟩

end Lengthens

/-- An accounted controller stays one, and its queues lengthen. -/
def Appends (node : String) (s s' : Controller) : Prop :=
  s.Accounted → s'.Accounted ∧ Lengthens node s s'

instance (node : String) : IsPreorder Controller (Appends node) where
  refl s h := ⟨h, .refl s⟩
  trans _ _ _ h h' hs :=
    have ⟨hs', hl⟩ := h hs
    ⟨(h' hs').1, hl.trans (h' hs').2⟩

end Controller

open Controller

variable {node : String}

/-- Nothing was issued, the log only lost rows, and the queue only lost jobs. -/
theorem appends_congr {s s' : Controller} (hh : s'.host = s.host) (hd : s.draws ≤ s'.draws)
    (hi : s'.issued = s.issued)
    (ht : ∀ t' ∈ s'.db.taskLog.rows, ∃ t ∈ s.db.taskLog.rows, t.taskUuid = t'.taskUuid)
    (hq : (s'.queued node).Sublist (s.queued node)) : Appends node s s' := by
  intro hs
  have hnew : s'.enqueued node = s.enqueued node ++ [] := by
    rw [enqueued, hi, List.append_nil, enqueued]
  refine ⟨⟨numbered_congr hh hd hi hs.numbered, ?_⟩, hh, hd, [], hnew, ?_, by simp⟩
  · intro t' ht'
    obtain ⟨t, hmem, hid⟩ := ht t' ht'
    rw [hi, ← hid]
    exact hs.logged t hmem
  · rwa [List.append_nil]

/-- A step that leaves the log, the queues and what was issued alone. -/
theorem appends_frame {s s' : Controller} (hh : s'.host = s.host) (hd : s.draws ≤ s'.draws)
    (hi : s'.issued = s.issued) (ht : s'.db.taskLog = s.db.taskLog) (hq : s'.queues = s.queues) :
    Appends node s s' := by
  refine appends_congr hh hd hi ?_ ?_
  · rw [ht]
    exact fun t h => ⟨t, h, rfl⟩
  · rw [queued, hq, queued]

/-- A write to a queue that keeps the jobs it keeps in their order. -/
theorem appends_writeQueue {name : String} {f : DurableQueue Payload → DurableQueue Payload}
    {s : Controller} (h : (f (s.queues name)).payloads.Sublist (s.queues name).payloads) :
    Appends node s ((writeQueue name f).run s).2 := by
  refine appends_congr rfl le_rfl rfl (fun t ht => ⟨t, ht, rfl⟩) ?_
  show List.Sublist (List.filterMap Payload.taskId
    (if node = name then f (s.queues name) else s.queues node).payloads) _
  split
  · subst node
    exact h.filterMap _
  · rfl

/-- **The new task goes to the end of the queue.** Its id is new, so the log takes its row. -/
theorem appends_enqueueTask (name : String) (action : Action) (params : Params)
    (requestedBy : Option String) :
    Respects (Appends node) (enqueueTask name action params requestedBy) := by
  intro s hs
  obtain ⟨T, hT, hrows, -⟩ := @Table.insert_of_fresh _ _ s.db.taskLog
    ((s.nextFrame action params requestedBy).row name ((s.queues name).seq + 1) s.now)
    (fun _ => rfl) fun t ht hclash => by
      obtain ⟨x, hx, hid⟩ := hs.logged t ht
      obtain ⟨d, hlt, hd⟩ := hs.numbered.drawn x hx
      have hsame : s.host.uuid d = s.host.uuid s.draws := hd.symm.trans (hid.trans hclash)
      have := s.host.uuid_injective _ _ hsame
      omega
  have hnumbered := numbered_enqueueTask name action params requestedBy s hs.numbered
  have hrun : (enqueueTask name action params requestedBy).run s =
      (.ok (s.nextFrame action params requestedBy),
        { s.withJob name (s.nextFrame action params requestedBy) with
          db := { s.db with taskLog := T }
          issued := (name, s.nextFrame action params requestedBy) :: s.issued }) := by
    simp only [enqueueTask, hT]
  rw [hrun] at hnumbered ⊢
  refine ⟨⟨hnumbered, fun t ht => ?_⟩, rfl, Nat.le_succ _, ?_⟩
  · replace ht : t ∈ T.rows := ht
    rw [hrows] at ht
    rcases List.mem_append.mp ht with ht | ht
    · obtain ⟨x, hx, hid⟩ := hs.logged t ht
      exact ⟨x, List.mem_cons_of_mem _ hx, hid⟩
    · rw [List.mem_singleton.mp ht]
      exact ⟨_, List.mem_cons_self, rfl⟩
  · by_cases hnode : name = node
    · subst hnode
      refine ⟨[s.host.uuid s.draws], ?_, ?_, ?_⟩
      · simp [enqueued, Controller.nextFrame]
      · rw [queued, queued]
        simp only [Controller.withJob, if_true, DurableQueue.payloads_enqueue,
          List.filterMap_append]
        exact .refl _
      · intro id hid
        exact ⟨s.draws, le_rfl, Nat.lt_succ_self _, List.mem_singleton.mp hid⟩
    · refine ⟨[], ?_, ?_, by simp⟩
      · simp [enqueued, hnode]
      · rw [queued, queued]
        simp only [Controller.withJob, if_neg (Ne.symm hnode), List.append_nil]
        exact .refl _

theorem appends_claimTask (name workerId : String) :
    Respects (Appends node) (claimTask name workerId) := by
  intro s
  unfold claimTask
  rw [run_read_bind]
  cases hc : (s.queues name).claimOne s.now workerId with
  | none => exact refl_of (Appends node) s
  | some claimed =>
      obtain ⟨job, queue⟩ := claimed
      refine trans_of (Appends node) (@appends_writeQueue node name (fun _ => queue) s ?_) ?_
      · rw [DurableQueue.payloads_claimOne hc]
      · exact Respects.bind (respects_lift _) (fun _ => .pure _) _

/-- **Every function keeps the queues in the order of enqueueing.** -/
theorem appendWalk : FreeWalk (Appends node) where
  anyLists _ h s := appends_frame rfl le_rfl rfl (h s.db).2.2.2.2.2.2 rfl
  emit _ _ := appends_frame rfl le_rfl rfl rfl rfl
  alertState _ _ _ := appends_frame rfl le_rfl rfl rfl rfl
  gpuMailState _ _ _ := appends_frame rfl le_rfl rfl rfl rfl
  draw _ _ := appends_frame rfl (Nat.le_succ _) rfl rfl rfl
  spawn _ _ := appends_frame rfl le_rfl rfl rfl rfl
  takeThread _ _ := appends_frame rfl le_rfl rfl rfl rfl
  clock f h hf s := by
    obtain ⟨now, settings, -, he⟩ := hf s
    show Appends node s (f s)
    rw [he]
    exact appends_frame rfl le_rfl rfl rfl rfl
  claimTask := appends_claimTask
  ackTask name jobId workerId _ := appends_writeQueue (List.filter_sublist.map _)
  retryTask name jobId workerId := .bind (.read _) fun _ _ =>
    appends_writeQueue (by rw [DurableQueue.payloads_retry])
  updateTasks p f h s := by
    refine appends_congr rfl le_rfl rfl (fun t' ht' => ?_) (.refl _)
    obtain ⟨t, ht, rfl⟩ := List.mem_map.mp ht'
    refine ⟨t, ht, ?_⟩
    split
    · have hg : t.Grows (f t) := h.grows t ‹_›
      exact hg.taskUuid.symm
    · rfl
  enqueueTask := appends_enqueueTask
  updateNode _ _ _ _ _ := appends_frame rfl le_rfl rfl rfl rfl
  labs _ _ := appends_frame rfl le_rfl rfl rfl rfl
  students _ _ := appends_frame rfl le_rfl rfl rfl rfl
  labMembers _ _ := appends_frame rfl le_rfl rfl rfl rfl
  labPlacements _ _ := appends_frame rfl le_rfl rfl rfl rfl
  placementMembers _ _ := appends_frame rfl le_rfl rfl rfl rfl

/-- **Every act keeps the queues in the order of enqueueing.** -/
theorem appends_step (s : Controller) (a : Act) : Appends node s (step s a) := by
  refine appendWalk.anyAct (a := a) (fun _ _ => appends_frame rfl le_rfl rfl rfl rfl) ?_ s
  intro name actor force _ s
  exact appends_congr rfl le_rfl rfl (fun t ht => ⟨t, (Table.mem_delete.mp ht).1, rfl⟩)
    (.refl _)

theorem appendsWalk : HubWalk (Appends node) where
  act := appends_step
  alert _ _ := walk_alertAdmins appendWalk.enrols.toWalk _ _ _
  redeliver _ p _ := appends_writeQueue (by rw [DurableQueue.payloads_expire])
  restart _ := appends_frame rfl le_rfl rfl rfl rfl

/-- The tasks enqueued for a node are different tasks. -/
theorem Controller.Accounted.nodup {s : Controller} (hs : s.Accounted) (node : String) :
    (s.enqueued node).Nodup := by
  have hdistinct := hs.numbered.distinct.sublist (List.filter_sublist (p := fun x => x.1 == node))
  rw [enqueued, List.Nodup, List.pairwise_reverse, List.pairwise_map]
  exact hdistinct.imp Ne.symm

/-- A task that was enqueued is none that was drawn since. -/
theorem Controller.Accounted.not_drewId {s s' : Controller} (hs : s.Accounted) {node id : String}
    (hid : id ∈ s.enqueued node) : ¬ s.drewId s' id := by
  rintro ⟨d, hle, -, hd⟩
  obtain ⟨x, hx, rfl⟩ := List.mem_map.mp (List.mem_reverse.mp hid)
  obtain ⟨d', hlt, hd'⟩ := hs.numbered.drawn x (List.mem_filter.mp hx).1
  have := s.host.uuid_injective _ _ (hd'.symm.trans hd)
  omega

/-! ## What a push takes from the queue -/

/-- The controller with the queue of one node replaced. -/
def Controller.withQueue (s : Controller) (node : String) (queue : DurableQueue Payload) :
    Controller :=
  { s with queues := fun n => if n = node then queue else s.queues n }

theorem queues_withQueue (s : Controller) (node : String) (queue : DurableQueue Payload) :
    (s.withQueue node queue).queues node = queue := if_pos rfl

theorem claimTask_run_unreadable {node workerId message : String} {s : Controller}
    {job : Job Payload} {queue : DurableQueue Payload}
    (hc : (s.queues node).claimOne s.now workerId = some (job, queue))
    (hp : job.payload = .unreadable message) :
    (claimTask node workerId).run s = (.error (.error message), s.withQueue node queue) := by
  unfold claimTask
  rw [run_read_bind]
  simp only [hc, writeQueue, run_write_bind]
  rw [hp, decodeFrame, run_bind, lift_run]
  rfl

theorem claimTask_run_sealed {node workerId : String} {frame : TaskFrame} {s : Controller}
    {job : Job Payload} {queue : DurableQueue Payload}
    (hc : (s.queues node).claimOne s.now workerId = some (job, queue))
    (hp : job.payload = .sealed frame) :
    (claimTask node workerId).run s =
      (.ok (some (job.id, frame)), s.withQueue node queue) := by
  unfold claimTask
  rw [run_read_bind]
  simp only [hc, writeQueue, run_write_bind]
  rw [hp, decodeFrame, run_bind, lift_run]
  rfl

/-- A push sends nothing and leaves the jobs what they are, or sends the first job that is ready
and takes it out of the queue. -/
theorem pushOne_cases (node : String) (sent : Bool) (s : Controller) :
    (∃ r s', (Hub.pushOne node sent).run s = (r, s') ∧ (∀ frame, r ≠ .ok (some frame)) ∧
      s'.queued node = s.queued node) ∨
    ∃ before job after frame s', (Hub.pushOne node sent).run s = (.ok (some frame), s') ∧
      sent = true ∧ (s.queues node).rows = before ++ job :: after ∧
      job.payload = .sealed frame ∧
      DurableQueue.ready s.now job = true ∧
      (∀ j ∈ before, DurableQueue.ready s.now j = false) ∧
      (s'.queues node).rows = before ++ after ∧ s'.now = s.now := by
  unfold Hub.pushOne
  rw [run_bind]
  cases hc : (s.queues node).claimOne s.now (hubWorker node) with
  | none =>
      have hclaim : (claimTask node (hubWorker node)).run s = (.ok none, s) := by
        unfold claimTask
        rw [run_read_bind, hc]
        rfl
      rw [hclaim]
      exact .inl ⟨.ok none, s, rfl, by simp, rfl⟩
  | some claimed =>
      obtain ⟨job, queue⟩ := claimed
      obtain ⟨before, after, hrows, hready, hbefore, hids, hqueue⟩ :=
        DurableQueue.claimOne_split hc
      have hqueued : (s.withQueue node queue).queued node = s.queued node := by
        rw [queued, queues_withQueue, DurableQueue.payloads_claimOne hc, queued]
      cases hp : job.payload with
      | unreadable message =>
          rw [claimTask_run_unreadable hc hp]
          exact .inl ⟨_, _, rfl, by simp, hqueued⟩
      | «sealed» frame =>
          rw [claimTask_run_sealed hc hp, andThen_ok]
          cases sent with
          | false =>
              refine .inl ⟨.ok none, _, rfl, by simp, ?_⟩
              rw [← hqueued]
              simp [queued, Controller.withQueue]
          | true =>
              refine .inr
                ⟨before, job, after, frame, _, rfl, rfl, hrows, hp, hready, hbefore, ?_, rfl⟩
              have hack := DurableQueue.ack_split (w := hubWorker node) hqueue rfl hids
              simpa [Controller.withQueue] using hack

/-- The task of a job can be read. -/
def Payload.readable (p : Payload) : Bool := p.taskId.isSome

/-- **A batch sends in the order of the queue**, if no job is passed over. -/
theorem push_queued (node : String) (ws : Nat) (sends : List Bool) (h : Hub)
    (hturn : sends.head? = some true →
      (h.controller.queues node).InTurn h.controller.now fun j => j.payload.readable) :
    ∃ new, (h.push node ws sends).sent = new ++ h.sent ∧
      h.controller.queued node =
        (new.map fun x => x.frame.id).reverse ++ (h.push node ws sends).controller.queued node := by
  induction sends generalizing h with
  | nil => exact ⟨[], rfl, rfl⟩
  | cons sent rest ih =>
      rw [Hub.push]
      rcases pushOne_cases node sent h.controller with
        ⟨r, s', hrun, hnone, hqueued⟩ |
        ⟨before, job, after, frame, s', hrun, rfl, hrows, hp, hready, hbefore, hrows', hnow⟩
      · rw [hrun]
        rcases r with e | _ | frame
        · exact ⟨[], rfl, hqueued.symm⟩
        · exact ⟨[], rfl, hqueued.symm⟩
        · exact absurd rfl (hnone frame)
      · rw [hrun]
        -- what stands before the job can never be read: it is the first of its queue
        have hturn := hturn rfl
        have hfirst : before.filterMap (fun j => j.payload.taskId) = [] := by
          have hread : Payload.readable job.payload = true := by
            simp [Payload.readable, hp, Payload.taskId]
          have hskip := hturn.before hrows hready hbefore hread
          exact List.filterMap_eq_nil_iff.mpr fun j hj => by
            simpa [Payload.readable] using hskip j hj
        have hqueued : h.controller.queued node = frame.id :: s'.queued node := by
          have hjob : Payload.taskId job.payload = some frame.id := by rw [hp]; rfl
          simp only [queued, DurableQueue.payloads, hrows, hrows', List.filterMap_map,
            List.filterMap_append, Function.comp_def, hfirst, List.nil_append,
            List.filterMap_cons, hjob]
        have hturn' := hturn.drop hrows hrows'
        rw [← hnow] at hturn'
        obtain ⟨new, hsent, hnew⟩ := ih
          { h with
            controller := s'
            sent := ⟨ws, node, frame, h.controller.db.node node⟩ :: h.sent } fun _ => hturn'
        refine ⟨new ++ [⟨ws, node, frame, h.controller.db.node node⟩], ?_, ?_⟩
        · rw [hsent, List.append_assoc, List.singleton_append]
        · rw [hqueued, hnew]
          simp

end MassDeployment
