import MassDeployment.Controller.Redaction

set_option autoImplicit false

/-! # What a node can reach

A frame carries names its sender chose: labs, users, task ids, the result of a task. This file shows
that none of them leads out of the node the socket is authenticated as. Whatever frames come in as
`node`, the rows of every other node, of its placements and of their members, samples and alerts are
what they were, and the only task that can appear for another node is the cleanup of a removal.

`own` is the list of the keys of the placements of the node. It is fixed before the frames come
in: no frame adds a placement, so a placement that is found by the name of the node is in it.
-/

namespace MassDeployment

open Js Prog

/-! ## Views -/

/-- A part of the database, whole or some of its rows. -/
structure Elsewhere where
  nodes : List NodeRow
  nodeSeq : Nat
  labs : Table LabRow
  students : Table StudentRow
  labMembers : Table LabMemberRow
  placements : List PlacementRow
  placementSeq : Nat
  members : List PlacementMemberRow
  samples : List StorageSampleRow
  quotaAlerts : List QuotaAlertRow
  studentQuotaAlerts : List StudentQuotaAlertRow
  gpuSnapshot : List GpuSnapshotRow
  gpuEvents : List GpuEventRow
  auditLog : List AuditRow
  admins : List AdminRow

/-- A reference to a placement outside `own`. -/
def outside (own : List Nat) (placement : Option Nat) : Option Nat :=
  placement.filter fun i => !own.contains i

/-- What the database holds that is not of `node`. The rows of other nodes are looked at without
their references to the placements of this one. -/
def Db.elsewhere (node : String) (own : List Nat) (d : Db) : Elsewhere where
  nodes := d.nodes.rows.filter fun r => r.name != node
  nodeSeq := d.nodes.seq
  labs := d.labs
  students := d.students
  labMembers := d.labMembers
  placements := d.labPlacements.rows.filter fun r => !own.contains r.id
  placementSeq := d.labPlacements.seq
  members := d.placementMembers.rows.filter fun r => !own.contains r.placementId
  samples := d.storageSamples.filter fun r => !own.contains r.placementId
  quotaAlerts := d.quotaAlerts.filter fun r => !own.contains r.placementId
  studentQuotaAlerts := d.studentQuotaAlerts.filter fun r => !own.contains r.placementId
  gpuSnapshot := (d.gpuSnapshot.filter fun g => g.node != node).map fun g =>
    { g with placementId := outside own g.placementId }
  gpuEvents := (d.gpuEvents.filter fun g => g.node != node).map fun g =>
    { g with placementId := outside own g.placementId }
  auditLog := d.auditLog
  admins := d.admins

/-- What leaves the controller is about the node, as far as it names one; no password is revealed. -/
def Event.Of (node : String) : Event → Prop
  | .settled n .. | .credentialMail _ _ n .. | .completionMail _ _ n .. | .gpuMail _ _ n .. => n = node
  | .quotaMail .. | .studentQuotaMail .. | .adminAlert .. => True
  | .credentialMailed .. | .credentialReveal .. | .removalMail .. => False

/-- A call that waits for the mailer on behalf of the node. -/
def Await.Of (node : String) : Await → Prop
  | .credentialSent _ _ n .. | .completionSent _ n _ => n = node
  | _ => False

/-- A line of the log that names the node, or the output of a task. -/
def LogRow.Of (node : String) (r : LogRow) : Prop :=
  r.node = some node ∨ r.node = none ∧ r.source = some "task"

/-- **Between `s` and `s'` nothing happened but to `node`**, and cold data may be cleaned up. -/
structure ApartFrom (node : String) (own : List Nat) (s s' : Controller) : Prop where
  rows : s'.db.elsewhere node own = s.db.elsewhere node own
  tasks : ∃ new, (s'.db.taskLog.rows.filter fun t => t.node != node) =
      (s.db.taskLog.rows.filter fun t => t.node != node) ++ new ∧
    ∀ t ∈ new, t.action = .studentDeleteCold
  queues : ∀ m, m ≠ node → ∃ new, (s'.queues m).rows = (s.queues m).rows ++ new ∧
    ∀ job ∈ new, ∃ frame, job.payload = .sealed frame ∧ frame.action = .studentDeleteCold
  issued : ∃ new, s'.issued = new ++ s.issued ∧ ∀ x ∈ new, x.2.action = .studentDeleteCold
  logs : ∃ new, s'.db.logs = s.db.logs ++ new ∧ ∀ r ∈ new, r.Of node
  threads : ∃ new, s'.threads = s.threads ++ new ∧ ∀ thread ∈ new, ∀ a ∈ thread, a.Of node
  trace : ∃ new, s'.trace = new ++ s.trace ∧ ∀ e ∈ new, e.Of node

theorem appended_trans {α : Type} {P : α → Prop} {l l' l'' : List α}
    (h : ∃ new, l' = l ++ new ∧ ∀ a ∈ new, P a) (h' : ∃ new, l'' = l' ++ new ∧ ∀ a ∈ new, P a) :
    ∃ new, l'' = l ++ new ∧ ∀ a ∈ new, P a := by
  obtain ⟨new, rfl, hnew⟩ := h
  obtain ⟨new', rfl, hnew'⟩ := h'
  refine ⟨new ++ new', List.append_assoc .., fun a ha => ?_⟩
  exact (List.mem_append.mp ha).elim (hnew a) (hnew' a)

theorem prepended_trans {α : Type} {P : α → Prop} {l l' l'' : List α}
    (h : ∃ new, l' = new ++ l ∧ ∀ a ∈ new, P a) (h' : ∃ new, l'' = new ++ l' ∧ ∀ a ∈ new, P a) :
    ∃ new, l'' = new ++ l ∧ ∀ a ∈ new, P a := by
  obtain ⟨new, rfl, hnew⟩ := h
  obtain ⟨new', rfl, hnew'⟩ := h'
  refine ⟨new' ++ new, (List.append_assoc ..).symm, fun a ha => ?_⟩
  exact (List.mem_append.mp ha).elim (hnew' a) (hnew a)

theorem appended_none {α : Type} {P : α → Prop} {l l' : List α} (h : l' = l) :
    ∃ new, l' = l ++ new ∧ ∀ a ∈ new, P a :=
  ⟨[], h.trans (List.append_nil l).symm, fun _ ha => absurd ha List.not_mem_nil⟩

theorem prepended_none {α : Type} {P : α → Prop} {l l' : List α} (h : l' = l) :
    ∃ new, l' = new ++ l ∧ ∀ a ∈ new, P a :=
  ⟨[], h, fun _ ha => absurd ha List.not_mem_nil⟩

namespace ApartFrom

variable {node : String} {own : List Nat}

theorem refl (s : Controller) : ApartFrom node own s s where
  rows := rfl
  tasks := appended_none rfl
  queues _ _ := appended_none rfl
  issued := prepended_none rfl
  logs := appended_none rfl
  threads := appended_none rfl
  trace := prepended_none rfl

theorem trans {s s' s'' : Controller} (h : ApartFrom node own s s')
    (h' : ApartFrom node own s' s'') :
    ApartFrom node own s s'' where
  rows := h'.rows.trans h.rows
  tasks := appended_trans h.tasks h'.tasks
  queues m hm := appended_trans (h.queues m hm) (h'.queues m hm)
  issued := prepended_trans h.issued h'.issued
  logs := appended_trans h.logs h'.logs
  threads := appended_trans h.threads h'.threads
  trace := prepended_trans h.trace h'.trace

/-- A write to rows of the node. -/
theorem of_rows {s : Controller} {d : Db} (hrows : d.elsewhere node own = s.db.elsewhere node own)
    (htasks : d.taskLog = s.db.taskLog) (hlogs : d.logs = s.db.logs) :
    ApartFrom node own s { s with db := d } :=
  { (refl s : ApartFrom node own s s) with
    rows := hrows
    tasks := appended_none (by rw [htasks])
    logs := appended_none hlogs }

end ApartFrom

/-! ## The relation -/

/-- A lookup by the name of the node finds placements in `own`, and the accounts the log asks for
are named by a text. -/
structure Fenced (node : String) (own : List Nat) (s : Controller) : Prop where
  placements : ∀ p ∈ s.db.labPlacements.rows, ∀ r ∈ s.db.nodes.rows, r.id = p.nodeId →
    r.name = node → p.id ∈ own
  accounts : ∀ t ∈ s.db.taskLog.rows, t.action = .studentAdd →
    ∃ username, Value.get (safeParams t.params) "username" = .ok (some (.str username))

/-- The fence stands while no row is added to it. -/
theorem Fenced.carry {node : String} {own : List Nat} {s s' : Controller}
    (h : Fenced node own s) (he : s.Evolves s') (ha : ApartFrom node own s s') :
    Fenced node own s' where
  placements p' hp' r' hr' hid hname := by
    have hnodes : s'.db.nodes.seq = s.db.nodes.seq := congrArg Elsewhere.nodeSeq ha.rows
    have hplacements : s'.db.labPlacements.seq = s.db.labPlacements.seq :=
      congrArg Elsewhere.placementSeq ha.rows
    obtain ⟨p, hp, hpg⟩ := he.labPlacements.grows p' hp'
      (hplacements ▸ s'.db.labPlacements.bounded p' hp')
    obtain ⟨r, hr, hrg⟩ := he.nodes.grows r' hr' (hnodes ▸ s'.db.nodes.bounded r' hr')
    have hpg : p'.id = p.id ∧ p'.labId = p.labId ∧ p'.nodeId = p.nodeId := hpg
    have hrg : r'.id = r.id ∧ r'.name = r.name := hrg
    rw [hpg.1]
    exact h.placements p hp r hr (hrg.1.symm.trans (hid.trans hpg.2.2)) (hrg.2.symm.trans hname)
  accounts t' ht' hadd := by
    by_cases hold : t'.id ≤ s.db.taskLog.seq
    · obtain ⟨t, ht, hg⟩ := he.taskLog.grows t' ht' hold
      have hg : t.Grows t' := hg
      rw [hg.params]
      exact h.accounts t ht (hg.action.symm.trans hadd)
    · obtain ⟨new, hnew, -, hrows⟩ := he.issued
      obtain ⟨new', hnew', hcold⟩ := ha.issued
      obtain rfl : new = new' := List.append_cancel_right (hnew.symm.trans hnew')
      obtain ⟨frame, hmem, hissues⟩ := hrows t' ht' (Nat.not_le.mp hold)
      have hact : frame.action = .studentDeleteCold := hcold _ hmem
      rw [hissues.action, hact] at hadd
      cases hadd

/-- Behind the fence nothing happens but to `node`. -/
def Confined (node : String) (own : List Nat) (s s' : Controller) : Prop :=
  s.Evolves s' ∧ (Fenced node own s → ApartFrom node own s s')

instance (node : String) (own : List Nat) : IsPreorder Controller (Confined node own) where
  refl s := ⟨.refl s, fun _ => .refl s⟩
  trans _ _ _ h h' :=
    ⟨h.1.trans h'.1, fun hf => (h.2 hf).trans (h'.2 (hf.carry h.1 (h.2 hf)))⟩

section

variable {node : String} {own : List Nat}

/-- A program is confined where what it leaves behind the fence is. -/
theorem confined_of {α : Type} {x : Op α}
    (h : ∀ s, Fenced node own s → ApartFrom node own s (x.after s)) :
    Respects (Confined node own) x := fun s => ⟨x.keeps s, h s⟩

/-- A write outside the tables. -/
theorem confined_frame {α : Type} {x : Op α} (h : ∀ s, (x.after s).db = s.db ∧
    (x.after s).queues = s.queues ∧ (x.after s).issued = s.issued ∧
    (x.after s).threads = s.threads ∧ (x.after s).trace = s.trace) :
    Respects (Confined node own) x :=
  confined_of fun s _ =>
    { rows := by rw [(h s).1]
      tasks := appended_none (by rw [(h s).1])
      queues := fun _ _ => appended_none (by rw [(h s).2.1])
      issued := prepended_none (h s).2.2.1
      logs := appended_none (by rw [(h s).1])
      threads := appended_none (h s).2.2.2.1
      trace := prepended_none (h s).2.2.2.2 }

/-- A write to the rows of the node in the tables that are lists. -/
theorem confined_lists {f : Db → Db} {h}
    (hrows : ∀ d, (f d).elsewhere node own = d.elsewhere node own)
    (hlogs : ∀ d, (f d).logs = d.logs) : Respects (Confined node own) (Op.writeLists f h) :=
  confined_of fun s _ => .of_rows (hrows s.db) (h s.db).2.2.2.2.2.2 (hlogs s.db)

theorem confined_insertLog {row : LogRow} (h : row.Of node) :
    Respects (Confined node own) (insertLog row) :=
  confined_of fun s _ =>
    { (ApartFrom.refl s : ApartFrom node own s s) with
      logs := ⟨[row], rfl, fun _ hr => List.mem_singleton.mp hr ▸ h⟩ }

theorem confined_emit {e : Event} (h : e.Of node) : Respects (Confined node own) (Op.emit e) :=
  confined_of fun s _ =>
    { (ApartFrom.refl s : ApartFrom node own s s) with
      trace := ⟨[e], rfl, fun _ he => List.mem_singleton.mp he ▸ h⟩ }

theorem confined_spawn {thread : Thread} (h : ∀ a ∈ thread, a.Of node) :
    Respects (Confined node own) (Op.spawn thread) :=
  confined_of fun s _ =>
    { (ApartFrom.refl s : ApartFrom node own s s) with
      threads := ⟨[thread], rfl, fun _ ht => List.mem_singleton.mp ht ▸ h⟩ }

/-! ## Rows of the node -/

/-- An update does not show where the rows it touches are not looked at. -/
theorem filter_update {α : Type} {p q : α → Bool} {f : α → α} (l : List α)
    (hp : ∀ a ∈ l, p a = true → q a = false ∧ q (f a) = false) :
    (l.map fun a => if p a then f a else a).filter q = l.filter q := by
  induction l with
  | nil => rfl
  | cons a l ih =>
      have ih := ih fun b hb => hp b (List.mem_cons_of_mem _ hb)
      cases ha : p a with
      | false => simp [ha, List.filter_cons, ih]
      | true =>
          obtain ⟨h, h'⟩ := hp a List.mem_cons_self ha
          simp [ha, h, h', ih]

/-- A deletion does not show where the rows it deletes are not looked at. -/
theorem filter_delete {α : Type} {p q : α → Bool} (l : List α)
    (hp : ∀ a ∈ l, p a = true → q a = false) : (l.filter fun a => !p a).filter q = l.filter q := by
  rw [List.filter_filter]
  refine List.filter_congr fun a ha => ?_
  cases h : p a with
  | false => simp
  | true => simp [hp a ha h]

theorem confined_updateNode (f : NodeRow → NodeRow) (h) :
    Respects (Confined node own) (updateNode node f h) := by
  refine confined_of fun s _ =>
    .of_rows (d := { s.db with nodes := s.db.nodes.update _ f (keeps_node _ f h) }) ?_ rfl rfl
  have hrows := filter_update (p := fun n : NodeRow => n.name == node)
    (q := fun r : NodeRow => r.name != node) (f := f) s.db.nodes.rows
    fun r _ hr => by simpa [(h r).2] using hr
  exact congrArg (fun l => { s.db.elsewhere node own with nodes := l }) hrows

theorem confined_updatePlacements {p : PlacementRow → Bool} {f : PlacementRow → PlacementRow} {h}
    (hp : ∀ r, p r = true → r.id ∈ own) :
    Respects (Confined node own) (Slot.labPlacements.update p f h) := by
  refine confined_of fun s _ =>
    .of_rows (d := { s.db with labPlacements := s.db.labPlacements.update p f h }) ?_ rfl rfl
  have hrows := filter_update (q := fun r : PlacementRow => !own.contains r.id) (f := f)
    s.db.labPlacements.rows fun r _ hr => by
      have hid : (f r).id = r.id := (h.grows r hr).1
      simp [hid, hp r hr]
  exact congrArg (fun l => { s.db.elsewhere node own with placements := l }) hrows

theorem confined_updatePlacement {i : Nat} (hi : i ∈ own) (f : PlacementRow → PlacementRow) (h) :
    Respects (Confined node own) (updatePlacement i f h) :=
  confined_updatePlacements fun _ hr => beq_iff_eq.mp hr ▸ hi

/-- An update of one member, of a placement of the node. -/
theorem confined_updateMember {m : PlacementMemberRow} (hown : m.placementId ∈ own)
    (f : PlacementMemberRow → PlacementMemberRow) (h) {s : Controller}
    (hm : m ∈ s.db.placementMembers.rows) :
    Confined node own s ((updateMember m.id f h).after s) := by
  refine ⟨(updateMember m.id f h).keeps s, fun _ =>
    .of_rows (d := { s.db with
      placementMembers := s.db.placementMembers.update _ f (keeps_member _ f h) }) ?_ rfl rfl⟩
  have hrows := filter_update (p := fun r : PlacementMemberRow => r.id == m.id)
    (q := fun r : PlacementMemberRow => !own.contains r.placementId) (f := f)
    s.db.placementMembers.rows fun r hr hid => by
      obtain rfl : r = m := s.db.placementMembers.eq_of_id hr hm (beq_iff_eq.mp hid)
      simp [(h r).2.1, hown]
  exact congrArg (fun l => { s.db.elsewhere node own with members := l }) hrows

/-- References to placements of the node may be cleared. -/
theorem outside_cleared {ids : List Nat} (hids : ∀ i ∈ ids, i ∈ own) (placement : Option Nat)
    (h : placement.any ids.contains = true) : outside own placement = none := by
  cases placement with
  | none => rfl
  | some i => simp [outside, hids i (by simpa using h)]

/-- A change to each row that neither the choice of the rows nor what is looked at shows. -/
theorem map_filter_map {α β : Type} {q : α → Bool} {g : α → α} {look : α → β}
    (hq : ∀ a, q (g a) = q a) (hlook : ∀ a, look (g a) = look a) (l : List α) :
    ((l.map g).filter q).map look = (l.filter q).map look := by
  have hcomp : (q ∘ g) = q := funext hq
  rw [List.filter_map, hcomp, List.map_map]
  exact List.map_congr_left fun a _ => hlook a

/-- The deletion of a placement of the node, with all that goes with it. -/
theorem confined_deletePlacements {victim : PlacementRow → Bool}
    (hv : ∀ r, victim r = true → r.id ∈ own) :
    Respects (Confined node own) (deletePlacements victim) := by
  refine Respects.bind_returns (P := fun ids => ∀ i ∈ ids, i ∈ own) (.read _) ?_ fun ids hids => ?_
  · rintro s _ ⟨⟩ i hi
    obtain ⟨r, hr, rfl⟩ := List.mem_map.mp hi
    exact hv r (Table.mem_select.mp hr).2
  have hkept {α : Type} (key : α → Nat) (l : List α) :
      (l.filter fun a => !ids.contains (key a)).filter (fun a => !own.contains (key a)) =
        l.filter fun a => !own.contains (key a) :=
    filter_delete l fun a _ ha => by simpa using hids _ (by simpa using ha)
  have placements : Respects (Confined node own) (Slot.labPlacements.delete victim) := by
    refine confined_of fun s _ =>
      .of_rows (d := { s.db with labPlacements := s.db.labPlacements.delete victim }) ?_ rfl rfl
    have hrows := filter_delete (q := fun r : PlacementRow => !own.contains r.id)
      s.db.labPlacements.rows fun r _ hr => by simpa using hv r hr
    exact congrArg (fun l => { s.db.elsewhere node own with placements := l }) hrows
  have members : Respects (Confined node own)
      (Slot.placementMembers.delete fun m => ids.contains m.placementId) := by
    refine confined_of fun s _ =>
      .of_rows (d := { s.db with placementMembers := s.db.placementMembers.delete _ }) ?_ rfl rfl
    exact congrArg (fun l => { s.db.elsewhere node own with members := l })
      (hkept PlacementMemberRow.placementId s.db.placementMembers.rows)
  refine .bind placements fun _ => .bind members fun _ => confined_lists (fun d => ?_) fun _ => rfl
  simp only [Db.elsewhere, Elsewhere.mk.injEq, true_and, and_true]
  refine ⟨hkept StorageSampleRow.placementId d.storageSamples,
    hkept QuotaAlertRow.placementId d.quotaAlerts,
    hkept StudentQuotaAlertRow.placementId d.studentQuotaAlerts, ?_, ?_⟩
  · refine map_filter_map (fun g => ?_) (fun g => ?_) d.gpuSnapshot
    · split <;> rfl
    · split
      · rw [outside_cleared hids g.placementId ‹_›]
        rfl
      · rfl
  · refine map_filter_map (fun g => ?_) (fun g => ?_) d.gpuEvents
    · split <;> rfl
    · split
      · rw [outside_cleared hids g.placementId ‹_›]
        rfl
      · rfl

/-! ## Tasks -/

/-- The marks of a task are made on the rows of the node. -/
theorem confined_updateTasks {p : TaskRow → Bool} {f : TaskRow → TaskRow} {h : Row.Keeps p f}
    (hp : ∀ t, p t = true → t.node = node) : Respects (Confined node own) (updateTasks p f h) := by
  refine confined_of fun s _ =>
    { (ApartFrom.refl s : ApartFrom node own s s) with tasks := appended_none ?_ }
  refine filter_update (q := fun t : TaskRow => t.node != node) (f := f) s.db.taskLog.rows
    fun t _ ht => ?_
  have hnode : (f t).node = t.node := TaskRow.Grows.node (h.grows t ht)
  simp [hnode, hp t ht]

theorem confined_markTaskState (taskUuid : String) (m : Mark) (result : Value)
    (error : Option String) (cached : Bool) :
    Respects (Confined node own) (markTaskState node taskUuid m result error cached) :=
  .bind (.read _) fun _ => .bind (.read _) fun _ =>
    .bind (confined_updateTasks fun _ ht => (TaskRow.openFor_iff.mp ht).2.1) fun _ => .pure _

theorem confined_markTaskReceived (taskUuid : String) :
    Respects (Confined node own) (markTaskReceived node taskUuid) :=
  .bind (.read _) fun _ => confined_updateTasks fun _ ht => by
    simp only [Bool.and_eq_true, beq_iff_eq] at ht
    exact ht.1.2

/-- A cleanup is queued, for whatever node. -/
theorem confined_enqueueCleanup (target : String) (params : Params) (requestedBy : Option String) :
    Respects (Confined node own) (enqueueTask target .studentDeleteCold params requestedBy) := by
  refine confined_of fun s _ => ?_
  have hqueues (m : String) : ∃ new,
      ((s.withJob target (s.nextFrame .studentDeleteCold params requestedBy)).queues m).rows =
        (s.queues m).rows ++ new ∧
      ∀ job ∈ new, ∃ frame, job.payload = .sealed frame ∧ frame.action = .studentDeleteCold := by
    by_cases hm : m = target
    · subst hm
      simp only [Controller.withJob, if_true, DurableQueue.enqueue_rows]
      refine ⟨_, rfl, fun job hjob => ?_⟩
      rw [List.mem_singleton.mp hjob]
      exact ⟨_, rfl, rfl⟩
    · exact appended_none (by simp only [Controller.withJob, if_neg hm])
  unfold Prog.after
  simp only [enqueueTask]
  split
  · rename_i T hT
    obtain ⟨hrows, -⟩ := Table.insert_eq_some hT
    refine { (ApartFrom.refl s : ApartFrom node own s s) with
      tasks := ?_
      queues := fun m _ => hqueues m
      issued := ⟨[(target, _)], rfl, fun x hx => List.mem_singleton.mp hx ▸ rfl⟩ }
    refine ⟨[((s.nextFrame .studentDeleteCold params requestedBy).row target
      ((s.queues target).seq + 1) s.now (s.db.taskLog.seq + 1))].filter fun t => t.node != node,
      ?_, fun t ht => ?_⟩
    · rw [← List.filter_append, ← hrows]
    · rw [List.mem_singleton.mp (List.mem_of_mem_filter ht)]
      rfl
  · exact { (ApartFrom.refl s : ApartFrom node own s s) with queues := fun m _ => hqueues m }

theorem confined_completeStudentRemoval (taskUuid : String) :
    Respects (Confined node own) (completeStudentRemoval taskUuid) := by
  refine .bind (.read _) fun s => ?_
  dsimp only
  split
  · exact .pure _
  · split
    · exact .pure _
    · refine .bind (respects_lift _) fun removalId => .bind (respects_lift _) fun lab =>
        .bind (respects_lift _) fun username => .ite (fun _ => .pure _) fun _ =>
          .bind (respects_lift _) fun values => ?_
      split
      · refine .bind (respects_lift _) fun states => .ite (fun _ => .pure _) fun _ =>
          .bind (respects_lift _) fun nodes => .forM _ fun target _ => ?_
        refine .bind (.read _) fun _ => .bind (respects_lift _) fun _ =>
          .bind (respects_lift _) fun _ => ?_
        split
        · exact .ite (fun _ => .pure _) fun _ =>
            .bind (confined_enqueueCleanup _ _ _) fun _ => .pure _
        · exact .pure _
      · exact .pure _

/-! ## Lookups -/

/-- An argument in front of texts binds one value, or there are too few or too many. -/
theorem bindAll_texts {lab : Value} {l : List String} {values : List SqlValue}
    (h : bindAll (l.length + 1) (lab :: l.map fun t => some (.str t)) = .ok values) :
    ∃ x, values = x :: l.map SqlValue.text := by
  obtain ⟨bound, hbound, rfl, hlength⟩ := bindAll_eq_ok h
  have hl : (l.map fun t => some (Json.str t)).mapM bindArg =
      .ok (l.map fun t => [SqlValue.text t]) := by
    clear h hbound hlength
    induction l with
    | nil => rfl
    | cons t l ih =>
        rw [List.map_cons, List.mapM_cons, ih]
        rfl
  rw [List.mapM_cons, hl] at hbound
  cases hlab : bindArg lab with
  | error e =>
      rw [hlab] at hbound
      cases hbound
  | ok values =>
      rw [hlab] at hbound
      cases hbound
      have hflat : ((l.map fun t => [SqlValue.text t]).flatten) = l.map SqlValue.text := by
        clear h hlength hl
        induction l with
        | nil => rfl
        | cons t l ih => simpa using ih
      rw [List.flatten_cons, hflat] at hlength ⊢
      simp only [List.length_append, List.length_map] at hlength
      obtain ⟨x, rfl⟩ := List.length_eq_one_iff.mp (show values.length = 1 by omega)
      exact ⟨x, rfl⟩

/-- The lookup of a placement names the node. -/
theorem node_of_namesPlacement {c : Conversions} {lab : Value} {named : String → String → Bool}
    (h : namesPlacement c lab node = .ok named) {l n : String} (hyes : named l n = true) :
    n = node := by
  unfold namesPlacement at h
  cases hb : bindAll 2 [lab, some (.str node)] with
  | error e =>
      rw [hb] at h
      cases h
  | ok values =>
      obtain ⟨x, rfl⟩ := bindAll_texts (l := [node]) hb
      rw [hb] at h
      cases h
      rw [Bool.and_eq_true] at hyes
      exact (beq_iff_eq.mp hyes.2).symm

/-- So does that of a member, where the user is named by a text. -/
theorem node_of_namesMember {c : Conversions} {lab : Value} {username : String}
    {named : String → String → String → Bool}
    (h : namesMember c lab node (some (.str username)) = .ok named) {l n u : String}
    (hyes : named l n u = true) : n = node := by
  unfold namesMember at h
  cases hb : bindAll 3 [lab, some (.str node), some (.str username)] with
  | error e =>
      rw [hb] at h
      cases h
  | ok values =>
      obtain ⟨x, rfl⟩ := bindAll_texts (l := [node, username]) hb
      rw [hb] at h
      cases h
      simp only [Bool.and_eq_true] at hyes
      exact (beq_iff_eq.mp hyes.1.2).symm

/-- A placement that is looked up by the name of the node is one of its own. -/
theorem Fenced.placement {s : Controller} (hf : Fenced node own s) {c : Conversions} {lab : Value}
    {p : Placement} (h : s.db.lookupPlacement c lab node = .ok (some p)) : p.id ∈ own := by
  obtain ⟨named, hnamed, hmem, hyes⟩ := Db.lookupPlacement_eq_some h
  have hnode : p.nodeName = node := node_of_namesPlacement hnamed hyes
  obtain ⟨hrow, hjoin⟩ := Db.mem_placements.mp hmem
  obtain ⟨_, _, _, _, _, r, hr, hid, hname, _⟩ := Db.joinPlacement_eq_some hjoin
  exact hf.placements _ hrow r hr hid (hname.symm.trans hnode)

/-- A member that is looked up by the name of the node is one of a placement of its own. -/
theorem Fenced.member {s : Controller} (hf : Fenced node own s) {c : Conversions} {lab : Value}
    {username : String} {j : JoinedMember}
    (h : s.db.lookupMember c lab node (some (.str username)) = .ok (some j)) :
    j.member ∈ s.db.placementMembers.rows ∧ j.member.placementId ∈ own ∧
      j.placement.nodeName = node := by
  obtain ⟨named, hnamed, hmem, hyes⟩ := Db.lookupMember_eq_some h
  have hnode : j.placement.nodeName = node := node_of_namesMember hnamed hyes
  obtain ⟨hm, hp, -⟩ := Db.mem_joinedMembers.mp hmem
  obtain ⟨hplacement, hid⟩ := Db.getPlacement_eq_some hp
  obtain ⟨hrow, hjoin⟩ := Db.mem_placements.mp hplacement
  obtain ⟨_, _, _, _, _, r, hr, hrid, hname, _⟩ := Db.joinPlacement_eq_some hjoin
  exact ⟨hm, hid ▸ hf.placements _ hrow r hr hrid (hname.symm.trans hnode), hnode⟩

/-- What follows the lookup of a placement may rely on the fence. -/
theorem confined_getPlacement {α : Type} {lab : Value} {k : Option Placement → Op α}
    (hk : ∀ p, (∀ q ∈ p, q.id ∈ own) → Respects (Confined node own) (k p)) :
    Respects (Confined node own) (getPlacementByLabNode lab node >>= k) := by
  refine fun s => ⟨(getPlacementByLabNode lab node >>= k).keeps s, fun hf => ?_⟩
  rw [run_bind, getPlacementByLabNode_run]
  cases h : s.db.lookupPlacement s.host.conversions lab node with
  | error e => exact .refl s
  | ok p => exact (hk p (fun q hq => hf.placement (h.trans (congrArg _ hq))) s).2 hf

/-! ## Telemetry -/

theorem confined_setAlertState (key : String) (st : KeyState) :
    Respects (Confined node own) (setAlertState key st) :=
  confined_frame fun _ => ⟨rfl, rfl, rfl, rfl, rfl⟩

theorem confined_alertAdmins (key subject body : String) :
    Respects (Confined node own) (alertAdmins key subject body) := by
  have mail : ∀ s suppressed,
      Respects (Confined node own) (alertAdmins.mailAlert key subject body s suppressed) :=
    fun s suppressed => .ite (fun _ => .pure _) fun _ => confined_emit trivial
  refine .bind (.read _) fun s => .ite (fun _ => ?_) fun _ => .pure _
  dsimp only
  split
  · exact .ite (fun _ => confined_setAlertState _ _) fun _ =>
      .bind (confined_setAlertState _ _) fun _ => mail _ _
  · exact .bind (confined_setAlertState _ _) fun _ => mail _ _

/-- A row of the node does not show. -/
theorem filter_append_own {α : Type} {q : α → Bool} {a : α} (h : q a = false) (l : List α) :
    (l ++ [a]).filter q = l.filter q := by
  simp [List.filter_append, h]

section

variable {i : Nat} (hi : i ∈ own)

include hi

theorem confined_maybeStudentQuotaAlert (labId studentId : Nat) (name pool : String)
    (used : Number) (quota : Value) (now : Nat) :
    Respects (Confined node own)
      (maybeStudentQuotaAlert i labId studentId name pool used quota now) := by
  refine .bind (.read _) fun s => .ite (fun _ => .pure _) fun _ => .ite (fun _ => .pure _) fun _ =>
    .ite (fun _ => .pure _) fun _ => ?_
  split
  · split
    · exact .pure _
    · refine .ite (fun _ => .pure _) fun _ => .ite (fun _ => .throw _) fun _ => ?_
      refine .bind (confined_lists (fun d => ?_) fun _ => rfl) fun _ =>
        .bind (respects_lift _) fun _ =>
        .bind (confined_emit trivial) fun _ =>
          .ite (fun _ => .forM _ fun _ _ => confined_emit trivial) fun _ => .pure _
      refine congrArg (fun l => { d.elsewhere node own with studentQuotaAlerts := l })
        (filter_append_own ?_ _)
      simpa using hi
  · exact .pure _

theorem confined_maybeQuotaAlert (labId : Nat) (pool : String) (used : Number) (quota : Value)
    (now : Nat) : Respects (Confined node own) (maybeQuotaAlert i labId pool used quota now) := by
  refine .bind (.read _) fun s => .ite (fun _ => .pure _) fun _ => .ite (fun _ => .pure _) fun _ => ?_
  split
  · exact .pure _
  · refine .ite (fun _ => .throw _) fun _ =>
      .bind (confined_lists (fun d => ?_) fun _ => rfl) fun _ => ?_
    · refine congrArg (fun l => { d.elsewhere node own with quotaAlerts := l })
        (filter_append_own ?_ _)
      simpa using hi
    · split
      · exact .ite (fun _ => .bind (respects_lift _) fun _ => confined_emit trivial) fun _ => .pure _
      · exact .pure _

end

theorem confined_recordSample {ref : Placement} (href : ref.id ∈ own) (name : String) (now : Nat)
    (studentId : Option Nat) (tier : String) (used : Number) (user quota : Value) :
    Respects (Confined node own) (recordSample name now ref studentId tier used user quota) := by
  refine .bind (respects_lift _) fun bound =>
    .bind (confined_lists (fun d => ?_) fun _ => rfl) fun _ =>
      .bind (.optionForM _ fun _ _ => ?_) fun _ => ?_
  · refine congrArg (fun l => { d.elsewhere node own with samples := l }) (filter_append_own ?_ _)
    simpa using href
  · exact .ite (fun _ => confined_maybeStudentQuotaAlert href _ _ _ _ _ _ _) fun _ => .pure _
  · exact .ite (fun _ => confined_maybeQuotaAlert href _ _ _ _ _) fun _ => .pure _

theorem confined_ingestSample (now : Nat) (ds : Json) :
    Respects (Confined node own) (ingestSample node now ds) := by
  unfold ingestSample
  dsimp only
  split
  · refine .ite (fun _ => .pure _) fun _ => confined_getPlacement fun p hp => ?_
    cases p with
    | none => exact .pure _
    | some ref =>
        refine .bind (.ite (fun _ => respects_studentIdInLab _ _) fun _ => .pure _) fun studentId =>
          .bind (.read _) fun db => .ite (fun _ => .pure _) fun _ => .ite (fun _ => .pure _) fun _ => ?_
        exact confined_recordSample (hp ref rfl) _ _ _ _ _ _ _
  · exact .pure _

theorem confined_ingestUsageScan (u : Json) :
    Respects (Confined node own) (ingestUsageScan node u) := by
  refine .bind (respects_lift _) fun labName => ?_
  split
  · refine .ite (fun _ => .pure _) fun _ => confined_getPlacement fun p hp => ?_
    cases p with
    | none => exact .pure _
    | some ref =>
        refine confined_updatePlacements fun r hr => ?_
        simp only [Bool.and_eq_true, beq_iff_eq] at hr
        exact hr.1 ▸ hp ref rfl
  · exact .pure _

theorem confined_ingestColdStorage (cold : Value) :
    Respects (Confined node own) (ingestColdStorage node cold) :=
  .ite (fun _ => .pure _) fun _ => confined_updateNode _ _

theorem confined_reportScrub (now : Nat) (p : Json) :
    Respects (Confined node own) (reportScrub node now p) :=
  .bind (.read _) fun _ => .bind (respects_lift _) fun _ => .bind (respects_lift _) fun _ =>
    .bind (respects_lift _) fun _ => .bind (confined_insertLog (.inl rfl)) fun _ =>
      confined_alertAdmins _ _ _

theorem confined_ingestScrub (scrub : Value) (now : Nat) :
    Respects (Confined node own) (ingestScrub node scrub now) := by
  unfold ingestScrub
  split
  · refine .bind (.read _) fun _ => .bind (respects_lift _) fun _ => .bind (respects_lift _) fun _ =>
      .bind (confined_updateNode _ _) fun _ => .forM _ fun p _ => .bind (respects_lift _) fun _ => ?_
    exact .ite (fun _ => confined_reportScrub _ _) fun _ => .pure _
  · exact .pure _

/-- The row of a process is one of the node. -/
theorem gpuSnapshotRow_node {c : Conversions} {d : Db} {values : List SqlValue}
    {row : GpuSnapshotRow}
    (h : gpuSnapshotRow c d node values = .ok row) : row.node = node := by
  unfold gpuSnapshotRow at h
  split at h
  · split at h
    · cases h
    · split at h
      · cases h
      · cases href : placementReference d (numericColumn c _) with
        | error e =>
            rw [href] at h
            cases h
        | ok placementId =>
            rw [href] at h
            cases h
            rfl
  · cases h

theorem confined_ingestGpuProcess (now : Nat) (p : Json) :
    Respects (Confined node own) (ingestGpuProcess node now p) := by
  refine .bind (respects_lift _) fun lab => .bind (respects_placementNamed _ _) fun ref =>
    .bind (.read _) fun s => .bind (respects_lift _) fun values =>
      .bind_returns (P := fun row => row.node = node) (respects_lift _) ?_ fun row hrow => ?_
  · intro _ row hrow
    rw [lift_run] at hrow
    exact gpuSnapshotRow_node hrow
  · refine confined_lists (fun d => ?_) fun _ => rfl
    refine congrArg (fun l => { d.elsewhere node own with gpuSnapshot := l }) ?_
    rw [filter_append_own (by simpa using hrow), filter_delete]
    intro g _ hg
    simp only [Bool.and_eq_true, beq_iff_eq] at hg
    simpa using hg.1

theorem confined_ingestTelemetry (payload : Json) :
    Respects (Confined node own) (ingestTelemetry node payload) := by
  refine .bind (.read _) fun now => .bind (confined_updateNode _ _) fun _ =>
    .bind (confined_ingestColdStorage _) fun _ => .bind (confined_ingestScrub _ _) fun _ =>
      .bind (respects_lift _) fun _ => .bind (.forM _ fun _ _ => confined_ingestSample _ _) fun _ =>
        .bind (respects_lift _) fun _ => .bind (.forM _ fun _ _ => confined_ingestUsageScan _) fun _ =>
          .atomically (.bind (confined_lists (fun d => ?_) fun _ => rfl) fun _ =>
            .bind (respects_lift _) fun _ => .forM _ fun _ _ => confined_ingestGpuProcess _ _)
  refine congrArg (fun l => { d.elsewhere node own with gpuSnapshot := l }) ?_
  rw [List.filter_filter]
  simp only [Bool.and_self]

/-! ## Logs and events -/

theorem confined_handleLog (frame : LogFrame) :
    Respects (Confined node own) (handleLog node frame) :=
  .bind (.read _) fun _ => .bind (confined_insertLog (.inl rfl)) fun _ => .bind (.read _) fun _ =>
    .ite (fun _ => .pure _) fun _ => .bind (.read _) fun _ => confined_alertAdmins _ _ _

theorem confined_emailGpuEvent (user lab : Option String) (state : String) :
    Respects (Confined node own) (emailGpuEvent node user lab state) := by
  refine .bind (.read _) fun s => ?_
  dsimp only
  split
  · exact .pure _
  · refine .ite (fun _ => .pure _) fun _ => .ite (fun _ => .pure _) fun _ => ?_
    split
    · exact .pure _
    · refine .ite (fun _ => .pure _) fun _ => .ite (fun _ => .pure _) fun _ =>
        .bind (confined_frame fun _ => ⟨rfl, rfl, rfl, rfl, rfl⟩) fun _ => confined_emit rfl

theorem confined_handleEvent (frame : EventFrame) :
    Respects (Confined node own) (handleEvent node frame) := by
  refine .ite (fun _ => .pure _) fun _ => .bind (.read _) fun now =>
    .bind (respects_placementNamed _ _) fun placement =>
      .bind (confined_lists (fun d => ?_) fun _ => rfl) fun _ => confined_emailGpuEvent _ _ _
  refine congrArg (fun l => { d.elsewhere node own with gpuEvents := l }) ?_
  rw [filter_append_own (by simp)]

/-! ## Results -/

theorem confined_logMailFailure (source msg : String) (lab user : Value) (e : Error) :
    Respects (Confined node own) (logMailFailure source msg node lab user e) := by
  refine .bind (.read _) fun now => ?_
  split
  · exact confined_insertLog (.inl rfl)
  · exact .pure _

theorem confined_suspend {waiting : Thread} (h : ∀ a ∈ waiting, a.Of node) :
    Respects (Confined node own) (suspend waiting) :=
  .ite (fun _ => .pure _) fun _ => confined_spawn h

theorem deliverPlacementCredential_of (lab username : Value) :
    Returns (fun waiting : Thread => ∀ a ∈ waiting, a.Of node)
      (deliverPlacementCredential lab node username) := by
  refine .bind fun pending => ?_
  split
  · exact .pure fun _ ha => absurd ha List.not_mem_nil
  · split
    · refine .bind fun password => .ite (.pure fun _ ha => absurd ha List.not_mem_nil) ?_
      exact .bind fun _ => .pure fun _ ha => List.mem_singleton.mp ha ▸ rfl
    · exact .pure fun _ ha => absurd ha List.not_mem_nil

/-- The mail of a password, to the member the result is about. -/
theorem confined_startCredentialMail (lab : Value) (username : String) :
    Respects (Confined node own) (startCredentialMail lab node (some (.str username))) := by
  refine .bind_returns (.tryCatch ?_ fun e => ?_)
    (.tryCatch (deliverPlacementCredential_of lab _) fun e => ?_) fun waiting h => confined_suspend h
  · refine fun s => ⟨(deliverPlacementCredential ..).keeps s, fun hf => ?_⟩
    unfold deliverPlacementCredential
    rw [run_bind, memberByNames_run]
    cases h : s.db.lookupMember s.host.conversions lab node (some (.str username)) with
    | error e => exact .refl s
    | ok j =>
        cases j with
        | none => exact .refl s
        | some j =>
            have hnode : j.placement.nodeName = node := (hf.member h).2.2
            rw [andThen_ok]
            dsimp only
            split
            · refine (Respects.bind (.read _) (fun password => .ite (fun _ => .pure _) fun _ =>
                .bind (confined_emit ?_) fun _ => .pure _) s).2 hf
              exact hnode
            · exact .refl s
  · exact .bind (confined_logMailFailure _ _ _ _ _) fun _ => .pure _
  · exact .bind fun _ => .pure fun _ ha => absurd ha List.not_mem_nil

theorem maybeDeliverPlacementCompletion_of (lab : Value) :
    Returns (fun waiting : Thread => ∀ a ∈ waiting, a.Of node)
      (maybeDeliverPlacementCompletion lab node) := by
  have hnone : Returns (fun waiting : Thread => ∀ a ∈ waiting, a.Of node) (pure [] : Op Thread) :=
    .pure fun _ ha => absurd ha List.not_mem_nil
  refine .bind fun p => ?_
  split
  · exact hnone
  · refine .bind fun s => ?_
    dsimp only
    split
    · refine .ite hnone (.ite hnone ?_)
      exact .bind fun _ => .bind fun _ => .pure fun _ ha => List.mem_singleton.mp ha ▸ rfl
    · exact hnone

theorem confined_startCompletionMail (lab : Value) :
    Respects (Confined node own) (startCompletionMail lab node) := by
  refine .bind_returns (.tryCatch ?_ fun e => ?_)
    (.tryCatch (maybeDeliverPlacementCompletion_of lab) fun e => ?_) fun waiting h => confined_suspend h
  · refine confined_getPlacement fun p hp => ?_
    cases p with
    | none => exact .pure _
    | some row =>
        refine .bind (.read _) fun s => ?_
        dsimp only
        split
        · exact .ite (fun _ => .pure _) fun _ => .ite (fun _ => .pure _) fun _ =>
            .bind (confined_updatePlacement (hp row rfl) _ _) fun _ =>
              .bind (confined_emit rfl) fun _ => .pure _
        · exact .pure _
  · exact .bind (confined_logMailFailure _ _ _ _ _) fun _ => .pure _
  · exact .bind fun _ => .pure fun _ ha => absurd ha List.not_mem_nil

theorem confined_storeCapabilities (capabilities : Value) :
    Respects (Confined node own) (storeCapabilities node capabilities) :=
  .bind (.read _) fun _ => confined_updateNode _ _

theorem confined_markPlacement (lab : Value) (state : PlacementState) (lastError : Option String) :
    Respects (Confined node own) (markPlacementStateByLabNode lab node state lastError) := by
  refine confined_getPlacement fun p hp => ?_
  cases p with
  | none => exact .pure _
  | some q => exact .bind (.read _) fun _ => confined_updatePlacement (hp q rfl) _ _

theorem confined_markMember (lab : Value) (username : String) (state : MemberState)
    (lastError : Option String) : Respects (Confined node own)
      (markPlacementMemberState lab node (some (.str username)) state lastError) := by
  refine fun s => ⟨(markPlacementMemberState ..).keeps s, fun hf => ?_⟩
  unfold markPlacementMemberState
  rw [run_bind, memberByNames_run]
  cases h : s.db.lookupMember s.host.conversions lab node (some (.str username)) with
  | error e => exact .refl s
  | ok j =>
      cases j with
      | none => exact .refl s
      | some j =>
          obtain ⟨hm, hown, -⟩ := hf.member h
          exact (confined_updateMember hown (PlacementMemberRow.marked state lastError s.now)
            (fun _ => ⟨rfl, rfl, rfl⟩) hm).2 hf

theorem confined_confirmDestroyed (lab : Value) :
    Respects (Confined node own) (confirmPlacementDestroyed lab node) := by
  refine confined_getPlacement fun p hp => ?_
  cases p with
  | none => exact .pure _
  | some q =>
      refine .ite (fun _ => confined_deletePlacements fun r hr => ?_) fun _ => .pure _
      exact beq_iff_eq.mp hr ▸ hp q rfl

/-- What a result does to the rows its task is about. -/
theorem confined_applyLifecycle (frame : ResultFrame) {t : TaskRow}
    (ht : t.action = .studentAdd →
      ∃ username, Value.get (safeParams t.params) "username" = .ok (some (.str username))) :
    Respects (Confined node own) (applyLifecycle node frame t) := by
  refine .bind (respects_lift _) fun lab => ?_
  refine .ite (fun _ => confined_storeCapabilities _) fun _ =>
    .ite (fun _ => confined_storeCapabilities _) fun _ =>
      .ite (fun _ => confined_markPlacement _ _ _) fun _ => .ite (fun _ => ?_) fun _ =>
        .ite (fun _ => .pure _) fun _ => ?_
  · exact .ite (fun _ => confined_confirmDestroyed _) fun _ => confined_markPlacement _ _ _
  · refine .bind_returns
      (P := fun username => .ok username = Value.get (safeParams t.params) "username")
      (respects_lift _) ?_ fun username huser => ?_
    · intro s v hv
      rw [lift_run] at hv
      exact hv.symm
    · refine .ite (fun hadd => ?_) fun _ =>
        .ite (fun _ => confined_completeStudentRemoval _) fun _ => .pure _
      simp only [Bool.and_eq_true, beq_iff_eq] at hadd
      obtain ⟨name, hname⟩ := ht hadd.2
      obtain rfl : username = some (.str name) := Except.ok.inj (huser.trans hname)
      exact .bind (confined_markMember _ _ _ _) fun _ => .ite (fun _ =>
        .bind (confined_startCredentialMail _ _) fun _ => confined_startCompletionMail _) fun _ =>
          .pure _

theorem confined_applyTask (frame : ResultFrame) :
    Respects (Confined node own) (applyResult.applyTask node frame) := by
  refine fun s => ⟨(applyResult.applyTask node frame).keeps s, fun hf => ?_⟩
  unfold applyResult.applyTask
  simp only [Op.query, run_read_bind]
  cases htask : s.db.getTask frame.id with
  | none => exact .refl s
  | some t =>
      have ht : t ∈ s.db.taskLog.rows := (Table.find_some htask).1
      exact (Respects.bind (.ite (fun _ => .pure _) fun _ => confined_alertAdmins _ _ _)
        (fun _ => confined_applyLifecycle frame (hf.accounts t ht)) s).2 hf

theorem confined_handleResult (frame : ResultFrame) :
    Respects (Confined node own) (handleResult node frame) := by
  refine .bind (confined_markTaskState _ _ _ _ _) fun changed => .ite (fun _ => ?_) fun _ => .pure _
  refine .bind (confined_emit rfl) fun _ => .bind (confined_applyTask frame) fun _ => ?_
  unfold logResult
  split
  · exact .pure _
  · exact .ite (fun _ => .pure _) fun _ => .bind (.read _) fun _ =>
      confined_insertLog (.inr ⟨rfl, rfl⟩)

/-- **A frame is confined to the node it comes from.** -/
theorem confined_ingestFrame (received : InboundFrame) :
    Respects (Confined node own) (ingestFrame node received) := by
  cases received with
  | result frame => exact confined_handleResult frame
  | receipt taskUuid => exact confined_markTaskReceived taskUuid
  | log frame => exact confined_handleLog frame
  | event frame => exact confined_handleEvent frame
  | telemetry payload => exact confined_ingestTelemetry _
  | hello frame => exact .pure _

end

/-! ## Runs -/

/-- The keys of the placements on a node. -/
def Db.hostedBy (d : Db) (node : String) : List Nat :=
  (d.labPlacements.rows.filter fun p =>
    d.nodes.rows.any fun r => r.id == p.nodeId && r.name == node).map PlacementRow.id

theorem Db.mem_hostedBy {d : Db} {node : String} {i : Nat} : i ∈ d.hostedBy node ↔
    ∃ p ∈ d.labPlacements.rows, p.id = i ∧ ∃ r ∈ d.nodes.rows, r.id = p.nodeId ∧ r.name = node := by
  simp only [Db.hostedBy, List.mem_map, List.mem_filter, List.any_eq_true, Bool.and_eq_true,
    beq_iff_eq]
  constructor
  · rintro ⟨p, ⟨hp, hr⟩, rfl⟩
    exact ⟨p, hp, rfl, hr⟩
  · rintro ⟨p, hp, rfl, hr⟩
    exact ⟨p, ⟨hp, hr⟩, rfl⟩

/-- A placement is on one node. -/
theorem Db.hostedBy_disjoint {d : Db} {node m : String} {i : Nat} (hm : m ≠ node)
    (hi : i ∈ d.hostedBy m) : i ∉ d.hostedBy node := by
  intro hi'
  obtain ⟨p, hp, hid, r, hr, hrid, hname⟩ := mem_hostedBy.mp hi
  obtain ⟨p', hp', hid', r', hr', hrid', hname'⟩ := mem_hostedBy.mp hi'
  obtain rfl : p = p' := d.labPlacements.eq_of_id hp hp' (hid.trans hid'.symm)
  obtain rfl : r = r' := d.nodes.eq_of_id hr hr' (hrid.trans hrid'.symm)
  exact hm (hname.symm.trans hname')

/-- A placement with all that hangs on it. -/
structure PlacementView where
  placement : Option PlacementRow
  members : List PlacementMemberRow
  samples : List StorageSampleRow
  quotaAlerts : List QuotaAlertRow
  studentQuotaAlerts : List StudentQuotaAlertRow

def Db.placementView (d : Db) (i : Nat) : PlacementView where
  placement := d.labPlacements.get i
  members := d.placementMembers.select fun r => r.placementId == i
  samples := d.storageSamples.filter fun r => r.placementId == i
  quotaAlerts := d.quotaAlerts.filter fun r => r.placementId == i
  studentQuotaAlerts := d.studentQuotaAlerts.filter fun r => r.placementId == i

/-- Lists that agree on some rows agree on fewer. -/
theorem filter_narrow {α : Type} {p q : α → Bool} {l l' : List α} (h : l'.filter q = l.filter q)
    (hpq : ∀ a, p a = true → q a = true) : l'.filter p = l.filter p := by
  have hsub (l : List α) : (l.filter q).filter p = l.filter p := by
    rw [List.filter_filter]
    refine List.filter_congr fun a _ => ?_
    cases ha : p a with
    | false => rfl
    | true => simp [hpq a ha]
  rw [← hsub l', h, hsub]

theorem find_narrow {α : Type} {p q : α → Bool} {l l' : List α} (h : l'.filter q = l.filter q)
    (hpq : ∀ a, p a = true → q a = true) : l'.find? p = l.find? p := by
  rw [← List.head?_filter, ← List.head?_filter, filter_narrow h hpq]

/-- Everything of a placement outside `own` is elsewhere. -/
theorem placementView_elsewhere {node : String} {own : List Nat} {d d' : Db}
    (h : d'.elsewhere node own = d.elsewhere node own) {i : Nat} (hi : i ∉ own) :
    d'.placementView i = d.placementView i := by
  have hout {α : Type} (key : α → Nat) (a : α) (ha : (key a == i) = true) :
      (!own.contains (key a)) = true := by
    simpa [beq_iff_eq.mp ha] using hi
  simp only [Db.placementView, PlacementView.mk.injEq]
  exact ⟨find_narrow (congrArg Elsewhere.placements h) (hout PlacementRow.id),
    filter_narrow (congrArg Elsewhere.members h) (hout PlacementMemberRow.placementId),
    filter_narrow (congrArg Elsewhere.samples h) (hout StorageSampleRow.placementId),
    filter_narrow (congrArg Elsewhere.quotaAlerts h) (hout QuotaAlertRow.placementId),
    filter_narrow (congrArg Elsewhere.studentQuotaAlerts h) (hout StudentQuotaAlertRow.placementId)⟩

/-- The accounts the log of a run asks for are named by a text. -/
theorem fenced_run (host : Host) (acts : List Act) (node : String) :
    Fenced node ((Run.run step (.init host) acts).db.hostedBy node)
      (Run.run step (.init host) acts) where
  placements p hp r hr hid hname := Db.mem_hostedBy.mpr ⟨p, hp, rfl, r, hr, hid, hname⟩
  accounts t ht hadd := by
    obtain ⟨frame, hmem, hissues⟩ := (ordered_run host acts).1.recorded.rows t ht
    have hact : frame.action = .studentAdd := hissues.action.symm.trans hadd
    obtain ⟨p, username, password, linuxUid, hparams⟩ := issued_any
      (A := fun frame => frame.action = .studentAdd → ∃ (p : Placement) (username password : String)
        (linuxUid : Nat), frame.params = studentAddParams p username password linuxUid)
      (fun _ h => h.account) (fun _ h h' => by rw [h] at h'; cases h')
      (fun _ h h' => by rw [h] at h'; cases h') host acts _ hmem hact
    refine ⟨username, ?_⟩
    rw [hissues.params, hparams]
    rfl

/-- **Node isolation.** Whatever frames come in as `node`, in whatever state of a run: the row of every
other node is what it was, and so is every placement on it with its members, its samples and its
alerts. Labs, students, rosters and the audit log do not change at all, and no line of the log is
written in another node's name. The only tasks that appear are cleanups of cold data, each of a removal
that asked for it on this node and whose removals have all succeeded. -/
theorem node_isolated (host : Host) (acts : List Act) (node : String) (frames : List InboundFrame) :
    let s := Run.run step (.init host) acts
    let s' := Run.run (fun s received => step s (.frame node received)) s frames
    ApartFrom node (s.db.hostedBy node) s s' ∧
    (∀ m, m ≠ node → s'.db.node m = s.db.node m ∧
      ∀ i ∈ s.db.hostedBy m, s'.db.placementView i = s.db.placementView i) ∧
    ∃ new, s'.issued = new ++ s.issued ∧ ∀ x ∈ new, x.2.action = .studentDeleteCold ∧
      ∃ rid, x.2.cleanupOf = some rid ∧
        (∃ y ∈ s'.issued, y.2.removalId = some rid ∧ x.1 ∈ y.2.cleanupNodes) ∧
        ∀ t ∈ s'.db.taskLog.rows, t.ofRemoval s'.host.conversions (.text rid) = true →
          t.state = .ok := by
  intro s s'
  have hapart : ApartFrom node (s.db.hostedBy node) s s' := by
    have hconfined : Confined node (s.db.hostedBy node) s s' :=
      Run.preorder (R := Confined node (s.db.hostedBy node))
        (fun s received => confined_ingestFrame received s) s frames
    exact hconfined.2 (fenced_run host acts node)
  have hordered : Ordered s' := by
    have hrun : s' = Run.run step (.init host) (acts ++ frames.map (.frame node)) := by
      rw [Run.run_append]
      show Run.run _ s frames = Run.run step s _
      simp only [Run.run, List.foldl_map]
    rw [hrun]
    exact (ordered_run host _).1
  refine ⟨hapart, fun m hm => ⟨?_, fun i hi =>
    placementView_elsewhere hapart.rows (Db.hostedBy_disjoint hm hi)⟩, ?_⟩
  · exact find_narrow (congrArg Elsewhere.nodes hapart.rows) fun r hr => by
      simpa [beq_iff_eq.mp hr] using hm
  · obtain ⟨new, hnew, hcold⟩ := hapart.issued
    refine ⟨new, hnew, fun x hx => ⟨hcold x hx, ?_⟩⟩
    have hmem : x ∈ s'.issued := hnew ▸ List.mem_append_left _ hx
    obtain ⟨lab, username, rid, hparams⟩ := (hordered.recorded.built x hmem).cold (hcold x hx)
    have hof := cleanupOf_eq (hcold x hx) hparams
    exact ⟨rid, hof, hordered.grounded x hmem rid hof, hordered.barrier x hmem rid hof⟩

end MassDeployment
