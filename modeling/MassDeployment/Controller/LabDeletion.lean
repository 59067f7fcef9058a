import MassDeployment.Controller.ColdOwners
import MassDeployment.Controller.PiRoster
import MassDeployment.Controller.Removals

set_option autoImplicit false

/-! # The deletion of a lab

`destroyLab` tears the placements of a lab down one by one, the SMB clients before their
owners, so that no owner is refused for the clients it has in the lab. With no placement left
to wait for, the lab goes, and with it the students that have no other lab.
-/

namespace MassDeployment

open Js Prog

/-! ## The placements of a lab -/

theorem Db.mem_listPlacements {d : Db} {labId : Nat} {p : Placement} :
    p ∈ d.listPlacements labId ↔ p ∈ d.placements ∧ p.labId = labId := by
  unfold listPlacements
  rw [(orderBy_perm _ _).mem_iff, List.mem_filter, beq_iff_eq]

theorem Db.nodup_placements (d : Db) : (d.placements.map fun p => p.id).Nodup := by
  refine List.pairwise_map.mpr (d.labPlacements.sorted.filterMap _ ?_)
  intro a b hab p hp q hq heq
  obtain ⟨rfl, -⟩ := Db.joinPlacement_eq_some hp
  obtain ⟨rfl, -⟩ := Db.joinPlacement_eq_some hq
  exact absurd heq (Nat.ne_of_lt hab)

/-- The order in which a lab is torn down. -/
def Db.destroyOrder (d : Db) (labId : Nat) : List Placement :=
  (d.listPlacements labId).filter (fun p => p.nodeColdBackend == .smb) ++
    (d.listPlacements labId).filter (fun p => p.nodeColdBackend != .smb)

theorem Db.destroyOrder_perm (d : Db) (labId : Nat) :
    (d.destroyOrder labId).Perm (d.placements.filter fun p => p.labId == labId) :=
  (List.filter_append_perm _ _).trans (orderBy_perm _ _)

theorem Db.mem_destroyOrder {d : Db} {labId : Nat} {p : Placement} :
    p ∈ d.destroyOrder labId ↔ p ∈ d.placements ∧ p.labId = labId := by
  rw [(d.destroyOrder_perm labId).mem_iff, List.mem_filter, beq_iff_eq]

theorem Db.nodup_destroyOrder (d : Db) (labId : Nat) :
    ((d.destroyOrder labId).map fun p => p.id).Nodup :=
  ((d.destroyOrder_perm labId).map _).nodup_iff.mpr
    (d.nodup_placements.sublist (List.filter_sublist.map _))

/-- Only an SMB client has an owner, and no owner is one. -/
theorem Db.Owners.placements {d : Db} (h : d.Owners) {p q : Placement} (hp : p ∈ d.placements)
    (hq : q ∈ d.placements) (hpq : p.nodeColdOwnerNodeId = some q.nodeId) :
    p.nodeColdBackend = .smb ∧ q.nodeColdBackend = .localZfs := by
  obtain ⟨n, hn, _, hb, ho⟩ := Db.joinPlacement_cold (Db.mem_placements.mp hp).2
  obtain ⟨m, hm, hmi, hmb, _⟩ := Db.joinPlacement_cold (Db.mem_placements.mp hq).2
  rw [ho] at hpq
  obtain ⟨_, m', hm', hmi', hlocal⟩ := h.owner n hn _ hpq
  have heq : m = m' := d.nodes.eq_of_id hm hm' (hmi.trans hmi'.symm)
  refine ⟨hb.trans (h.smb n hn (by rw [hpq]; nofun)), ?_⟩
  rw [hmb, heq]
  exact hlocal

/-- **Clients come before their owners.** -/
theorem Db.Owners.destroyOrder {d : Db} (h : d.Owners) {labId : Nat} {p q : Placement}
    (hp : p ∈ d.listPlacements labId) (hq : q ∈ d.listPlacements labId)
    (hpq : p.nodeColdOwnerNodeId = some q.nodeId) : [p, q].Sublist (d.destroyOrder labId) := by
  obtain ⟨hsmb, hlocal⟩ := h.placements (Db.mem_listPlacements.mp hp).1
    (Db.mem_listPlacements.mp hq).1 hpq
  have hclient : p ∈ (d.listPlacements labId).filter (fun p => p.nodeColdBackend == .smb) :=
    List.mem_filter.mpr ⟨hp, by simp [hsmb]⟩
  have howner : q ∈ (d.listPlacements labId).filter (fun p => p.nodeColdBackend != .smb) :=
    List.mem_filter.mpr ⟨hq, by simp [hlocal]⟩
  exact (List.singleton_sublist.mpr hclient).append (List.singleton_sublist.mpr howner)

/-- An owner that the lab is torn down on comes after each of its clients in the lab. -/
theorem Db.Owners.clientsFirst {d : Db} (h : d.Owners) {labId : Nat} {p q : Placement}
    (hp : p ∈ d.destroyOrder labId) (hq : q ∈ d.placements) (hlab : q.labId = p.labId)
    (howner : q.nodeColdOwnerNodeId = some p.nodeId) : [q, p].Sublist (d.destroyOrder labId) := by
  obtain ⟨hpmem, hplab⟩ := Db.mem_destroyOrder.mp hp
  exact h.destroyOrder (Db.mem_listPlacements.mpr ⟨hq, hlab.trans hplab⟩)
    (Db.mem_listPlacements.mpr ⟨hpmem, hplab⟩) howner

/-! ## One placement -/

/-- The pass of the loop over one placement. -/
def tearDown (force : Bool) (actor : Option String) (p : Placement) : Op Unit :=
  if force && !p.online then forceDeletePlacement p.id actor else destroyPlacement p.id actor

/-- The task of a teardown. -/
def TaskFrame.Destroys (task : TaskFrame) (p : Placement) : Prop :=
  task.action = .labDestroy ∧ task.params = [("lab", .str p.labName)]

/-- Nodes, labs, students and rosters are what they were. -/
structure SameRegistry (s s' : Controller) : Prop where
  nodes : s'.db.nodes = s.db.nodes
  labs : s'.db.labs = s.db.labs
  students : s'.db.students = s.db.students
  labMembers : s'.db.labMembers = s.db.labMembers

theorem SameRegistry.trans {s s' s'' : Controller} (h : SameRegistry s s')
    (h' : SameRegistry s' s'') : SameRegistry s s'' :=
  ⟨h'.nodes.trans h.nodes, h'.labs.trans h.labs, h'.students.trans h.students,
    h'.labMembers.trans h.labMembers⟩

/-- Joins look at labs and nodes. -/
theorem SameRegistry.joinPlacement {s s' : Controller} (h : SameRegistry s s') :
    s'.db.joinPlacement = s.db.joinPlacement := by
  funext p
  unfold Db.joinPlacement
  rw [h.nodes, h.labs]

/-- A task id that was never drawn is accepted by the log. -/
theorem enqueueTask_ok {s : Controller} (hd : Drawn s) (node : String) (action : Action)
    (params : Params) (requestedBy : Option String) : ∃ s',
      (enqueueTask node action params requestedBy).run s =
        (.ok (s.nextFrame action params requestedBy), s') ∧
      SameRegistry s s' ∧ s'.db.labPlacements = s.db.labPlacements ∧
      s'.issued = (node, s.nextFrame action params requestedBy) :: s.issued := by
  obtain ⟨s', hrun⟩ := enqueueTask_returns hd node action params requestedBy
  rcases enqueueTask_run node action params requestedBy s with
    ⟨T, s₁, _, hrun₁, hdb, _, _, hissued, _⟩ | ⟨e, s₁, _, hrun₁, _⟩
  · refine ⟨s₁, hrun₁, ⟨?_, ?_, ?_, ?_⟩, ?_, hissued⟩ <;> rw [hdb]
  · cases hrun.symm.trans hrun₁

/-- With no live client left, the check passes. -/
theorem assertNoSmbDependents_ok {p : Placement} {s : Controller}
    (h : p.nodeColdBackend = .localZfs → ∀ q ∈ s.db.placements, q.labId = p.labId →
      q.nodeColdOwnerNodeId = some p.nodeId → q.state = .deleting) :
    (assertNoSmbDependents p).run s = (.ok (), s) := by
  unfold assertNoSmbDependents
  by_cases hlocal : p.nodeColdBackend = .localZfs
  · rw [if_neg (by simp [hlocal]), Op.query, run_read_bind, if_pos]
    · rfl
    · rw [List.isEmpty_iff, List.filter_eq_nil_iff]
      intro q hq hall
      simp only [Bool.and_eq_true, beq_iff_eq, bne_iff_ne] at hall
      exact hall.2 (h hlocal q hq hall.1.1 hall.1.2)
  · rw [if_pos hlocal]
    rfl

/-- **One pass**: the placement is marked or dropped, and its `lab.destroy` is issued. -/
theorem tearDown_run (force : Bool) (actor : Option String) {p : Placement} {s : Controller}
    (hd : Drawn s) (hp : s.db.getPlacement p.id = some p)
    (hfree : p.nodeColdBackend = .localZfs → ∀ q ∈ s.db.placements, q.labId = p.labId →
      q.nodeColdOwnerNodeId = some p.nodeId → q.state = .deleting) :
    ∃ s' task, (tearDown force actor p).run s = (.ok (), s') ∧ SameRegistry s s' ∧
      (∀ r, r ∈ s'.db.labPlacements.rows ↔
        if force && !p.online then r ∈ s.db.labPlacements.rows ∧ r.id ≠ p.id
        else ∃ r₀ ∈ s.db.labPlacements.rows,
          (if r₀.id == p.id then { r₀ with state := .deleting, updatedAt := s.now } else r₀) = r) ∧
      s'.issued = (p.nodeName, task) :: s.issued ∧ task.Destroys p := by
  have hcheck := assertNoSmbDependents_ok hfree
  unfold tearDown
  split
  · rename_i hforce
    have hoff : p.online = false := by
      simp only [Bool.and_eq_true, Bool.not_eq_true'] at hforce
      exact hforce.2
    unfold forceDeletePlacement
    rw [Op.query, run_read_bind, hp]
    dsimp only
    rw [if_neg (by rw [hoff]; exact Bool.false_ne_true), run_bind_ok hcheck]
    obtain ⟨s₁, hrun, hreg, hrows, hissued⟩ := enqueueTask_ok hd p.nodeName .labDestroy
      [("lab", .str p.labName)] actor
    rw [run_bind_ok hrun]
    refine ⟨_, _, rfl, ?_, fun r => ?_, hissued, rfl, rfl⟩
    · exact ⟨hreg.nodes, hreg.labs, hreg.students, hreg.labMembers⟩
    · rw [← hrows]
      refine Table.mem_delete.trans (and_congr_right fun _ => ?_)
      exact beq_eq_false_iff_ne
  · unfold destroyPlacement
    rw [Op.query, run_read_bind, hp]
    dsimp only
    rw [run_bind_ok hcheck, Op.now, run_read_bind, updatePlacement,
      run_bind_ok (Slot.update_run _ _ _ _ _)]
    generalize hT : (Slot.labPlacements.get s).update _ _ _ = L
    have hd' : Drawn (Slot.labPlacements.set s L) := hd
    obtain ⟨s₁, hrun, hreg, hrows, hissued⟩ := enqueueTask_ok hd' p.nodeName .labDestroy
      [("lab", .str p.labName)] actor
    rw [run_bind_ok hrun]
    refine ⟨_, _, rfl, ?_, fun r => ?_, hissued, rfl, rfl⟩
    · exact ⟨hreg.nodes, hreg.labs, hreg.students, hreg.labMembers⟩
    · show r ∈ s₁.db.labPlacements.rows ↔ _
      have hL : (Slot.labPlacements.set s L).db.labPlacements = L := rfl
      rw [hrows, hL, ← hT]
      exact Table.mem_update

/-! ## The loop -/

/-- **After the passes over `done`**: the placements of `done` are gone or `deleting`, the others
as they were, and the tasks of `done` were issued in this order. -/
structure TornDown (force : Bool) (done : List Placement) (s s' : Controller) : Prop where
  registry : SameRegistry s s'
  rows : ∀ r ∈ s'.db.labPlacements.rows, ∃ r₀ ∈ s.db.labPlacements.rows,
    r₀.id = r.id ∧ r₀.labId = r.labId ∧ r₀.nodeId = r.nodeId ∧
      ((r = r₀ ∧ r.id ∉ done.map fun p => p.id) ∨ r.state = .deleting)
  kept : ∀ r ∈ s.db.labPlacements.rows, r.id ∉ (done.map fun p => p.id) →
    r ∈ s'.db.labPlacements.rows
  purged : ∀ p ∈ done, (force && !p.online) = true →
    ∀ r ∈ s'.db.labPlacements.rows, r.id ≠ p.id
  waiting : ∀ p ∈ done, (force && !p.online) = false →
    ∃ r ∈ s'.db.labPlacements.rows, r.id = p.id ∧ r.labId = p.labId ∧ r.state = .deleting
  issued : ∃ tasks : List TaskFrame, tasks.length = done.length ∧
    s'.issued = ((done.map Placement.nodeName).zip tasks).reverse ++ s.issued ∧
    List.Forall₂ TaskFrame.Destroys tasks done

theorem TornDown.refl (force : Bool) (s : Controller) : TornDown force [] s s where
  registry := ⟨rfl, rfl, rfl, rfl⟩
  rows r hr := ⟨r, hr, rfl, rfl, rfl, .inl ⟨rfl, List.not_mem_nil⟩⟩
  kept _ hr _ := hr
  purged _ hp := absurd hp List.not_mem_nil
  waiting _ hp := absurd hp List.not_mem_nil
  issued := ⟨[], rfl, rfl, .nil⟩

/-- One more pass. -/
theorem TornDown.step {force : Bool} (actor : Option String) {done : List Placement}
    {p : Placement} {s s₁ : Controller} (h : TornDown force done s s₁) (hd : Drawn s₁)
    (hp : p ∈ s.db.placements) (hnew : p.id ∉ done.map fun p => p.id)
    (hclients : ∀ q ∈ s.db.placements, q.labId = p.labId →
      q.nodeColdOwnerNodeId = some p.nodeId → q.id ∈ done.map fun p => p.id) :
    ∃ s₂, (tearDown force actor p).run s₁ = (.ok (), s₂) ∧ TornDown force (done ++ [p]) s s₂ := by
  obtain ⟨hrow, hjoin⟩ := Db.mem_placements.mp hp
  -- the placement is what it was when the loop started
  have hget : s₁.db.getPlacement p.id = some p := by
    have hrow₁ : s₁.db.labPlacements.get p.id = some p.toPlacementRow :=
      Table.get_eq_some.mpr ⟨h.kept _ hrow hnew, rfl⟩
    unfold Db.getPlacement
    rw [hrow₁, Option.bind_some, h.registry.joinPlacement]
    exact hjoin
  -- its clients have been torn down
  have hfree : ∀ q ∈ s₁.db.placements, q.labId = p.labId →
      q.nodeColdOwnerNodeId = some p.nodeId → q.state = .deleting := by
    intro q hq hlab howner
    obtain ⟨hqrow, hqjoin⟩ := Db.mem_placements.mp hq
    obtain ⟨r₀, hr₀, _, _, _, ⟨rfl, hnot⟩ | hdeleting⟩ := h.rows _ hqrow
    · rw [h.registry.joinPlacement] at hqjoin
      exact absurd (hclients q (Db.mem_placements.mpr ⟨hr₀, hqjoin⟩) hlab howner) hnot
    · exact hdeleting
  obtain ⟨s₂, task, hrun, hreg, hrows, hissued, htask⟩ :=
    tearDown_run force actor hd hget fun _ => hfree
  have hids : ∀ i, i ∈ (done ++ [p]).map (fun p => p.id) ↔
      i ∈ done.map (fun p => p.id) ∨ i = p.id := by
    intro i
    rw [List.map_append, List.mem_append, List.map_singleton, List.mem_singleton]
  obtain ⟨tasks, hlen, hbefore, hall⟩ := h.issued
  refine ⟨s₂, hrun, ?_⟩
  -- what the pass does to the rows
  have hfrom : ∀ r ∈ s₂.db.labPlacements.rows, ∃ r₁ ∈ s₁.db.labPlacements.rows,
      r₁.id = r.id ∧ r₁.labId = r.labId ∧ r₁.nodeId = r.nodeId ∧
        ((r = r₁ ∧ r.id ≠ p.id) ∨ r.state = .deleting) := by
    intro r hr
    have hr := (hrows r).mp hr
    split at hr
    · exact ⟨r, hr.1, rfl, rfl, rfl, .inl ⟨rfl, hr.2⟩⟩
    · obtain ⟨r₁, hr₁, rfl⟩ := hr
      refine ⟨r₁, hr₁, ?_⟩
      split
      · exact ⟨rfl, rfl, rfl, .inr rfl⟩
      · rename_i hne
        exact ⟨rfl, rfl, rfl, .inl ⟨rfl, fun heq => hne (beq_iff_eq.mpr heq)⟩⟩
  have hstays : ∀ r ∈ s₁.db.labPlacements.rows, r.id ≠ p.id → r ∈ s₂.db.labPlacements.rows := by
    intro r hr hne
    refine (hrows r).mpr ?_
    split
    · exact ⟨hr, hne⟩
    · exact ⟨r, hr, if_neg fun heq => hne (beq_iff_eq.mp heq)⟩
  refine { registry := h.registry.trans hreg, rows := ?rows, kept := ?kept, purged := ?purged
           waiting := ?waiting, issued := ?issued }
  case rows =>
    intro r hr
    obtain ⟨r₁, hr₁, hid, hlab, hnode, hcase⟩ := hfrom r hr
    obtain ⟨r₀, hr₀, hid₀, hlab₀, hnode₀, hcase₀⟩ := h.rows r₁ hr₁
    refine ⟨r₀, hr₀, hid₀.trans hid, hlab₀.trans hlab, hnode₀.trans hnode, ?_⟩
    rcases hcase with ⟨rfl, hne⟩ | hst
    · rcases hcase₀ with ⟨heq, hnot⟩ | hst
      · refine .inl ⟨heq, fun hmem => ?_⟩
        rcases (hids _).mp hmem with hmem | heq
        · exact hnot hmem
        · exact hne heq
      · exact .inr hst
    · exact .inr hst
  case kept =>
    intro r hr hnot
    have hne : r.id ≠ p.id := fun heq => hnot ((hids _).mpr (.inr heq))
    exact hstays r (h.kept r hr fun hmem => hnot ((hids _).mpr (.inl hmem))) hne
  case purged =>
    intro q hq hforce r hr
    rcases List.mem_append.mp hq with hq | hq
    · obtain ⟨r₁, hr₁, hid, _⟩ := hfrom r hr
      rw [← hid]
      exact h.purged q hq hforce r₁ hr₁
    · obtain rfl := List.mem_singleton.mp hq
      have hr := (hrows r).mp hr
      rw [if_pos hforce] at hr
      exact hr.2
  case waiting =>
    intro q hq hforce
    rcases List.mem_append.mp hq with hq | hq
    · obtain ⟨r, hr, hid, hlab, hst⟩ := h.waiting q hq hforce
      have hne : r.id ≠ p.id := fun heq =>
        hnew (List.mem_map.mpr ⟨q, hq, hid.symm.trans heq⟩)
      exact ⟨r, hstays r hr hne, hid, hlab, hst⟩
    · obtain rfl := List.mem_singleton.mp hq
      refine ⟨{ q.toPlacementRow with state := .deleting, updatedAt := s₁.now }, ?_, rfl, rfl, rfl⟩
      refine (hrows _).mpr ?_
      rw [if_neg (by rw [hforce]; nofun)]
      exact ⟨q.toPlacementRow, h.kept _ hrow hnew, if_pos (beq_self_eq_true _)⟩
  case issued =>
    refine ⟨tasks ++ [task], by simp [hlen], ?_, ?_⟩
    · rw [hissued, hbefore, List.map_append, List.zip_append (by simp [hlen])]
      simp
    · exact List.rel_append hall (.cons htask .nil)

/-- In a list without repetition that has `q` before `p`, what stands before `p` has `q`. -/
theorem mem_before {done rest : List Placement} {p q : Placement}
    (hnodup : ((done ++ p :: rest).map fun p => p.id).Nodup)
    (h : [q, p].Sublist (done ++ p :: rest)) : q ∈ done := by
  have hp : p ∉ done ∧ p ∉ rest := by
    rw [List.map_append, List.map_cons, List.nodup_append] at hnodup
    obtain ⟨_, hcons, hdisjoint⟩ := hnodup
    constructor
    · intro hmem
      exact hdisjoint _ (List.mem_map_of_mem hmem) _ List.mem_cons_self rfl
    · intro hmem
      exact (List.nodup_cons.mp hcons).1 (List.mem_map_of_mem hmem)
  obtain ⟨l₁, l₂, heq, h₁, h₂⟩ := List.sublist_append_iff.mp h
  cases l₁ with
  | cons x l₁ =>
      obtain rfl := (List.cons.inj heq).1
      exact h₁.subset List.mem_cons_self
  | nil =>
      -- `q` would not be before `p`
      obtain rfl : l₂ = [q, p] := heq.symm
      rcases List.sublist_cons_iff.mp h₂ with h₂ | ⟨r, hr, h₂⟩
      · exact absurd (h₂.subset (List.mem_cons_of_mem _ List.mem_cons_self)) hp.2
      · obtain rfl := (List.cons.inj hr).2
        exact absurd (h₂.subset List.mem_cons_self) hp.2

/-- **The whole loop** goes through, in an order that has clients before their owners. -/
theorem tearDowns_run (force : Bool) (actor : Option String) (done rest : List Placement)
    {s s₁ : Controller} (hnodup : ((done ++ rest).map fun p => p.id).Nodup)
    (hmem : ∀ p ∈ rest, p ∈ s.db.placements)
    (hclients : ∀ p ∈ rest, ∀ q ∈ s.db.placements, q.labId = p.labId →
      q.nodeColdOwnerNodeId = some p.nodeId → [q, p].Sublist (done ++ rest))
    (h : TornDown force done s s₁) (hd : Drawn s₁) :
    ∃ s₂, (rest.forM (tearDown force actor)).run s₁ = (.ok (), s₂) ∧
      TornDown force (done ++ rest) s s₂ := by
  induction rest generalizing done s₁ with
  | nil =>
      rw [List.append_nil]
      exact ⟨s₁, rfl, h⟩
  | cons p rest ih =>
      have hnew : p.id ∉ done.map fun p => p.id := by
        intro hin
        rw [List.map_append, List.nodup_append] at hnodup
        exact hnodup.2.2 _ hin _ List.mem_cons_self rfl
      obtain ⟨s₂, hrun, hnext⟩ := h.step actor hd (hmem p List.mem_cons_self) hnew
        fun q hq hlab howner => List.mem_map_of_mem
          (mem_before hnodup (hclients p List.mem_cons_self q hq hlab howner))
      have hev := (tearDown force actor p).keeps s₁
      rw [hrun] at hev
      have happend : done ++ p :: rest = done ++ [p] ++ rest := by simp
      rw [happend] at hnodup hclients ⊢
      obtain ⟨s₃, hrun', hend⟩ := ih _ hnodup (fun q hq => hmem q (List.mem_cons_of_mem _ hq))
        (fun q hq => hclients q (List.mem_cons_of_mem _ hq)) hnext (hd.evolves hev)
      refine ⟨s₃, ?_, hend⟩
      rw [run_forM_cons, run_bind_ok hrun]
      exact hrun'

/-! ## The students that are left without a lab -/

/-- The student has a lab. -/
def Db.Housed (d : Db) (studentId : Nat) : Prop := ∃ m ∈ d.labMembers.rows, m.studentId = studentId

/-- What the removal of some students leaves: labs, rosters and placements, and every other
student. -/
structure Orphaned (sids : List Nat) (s s' : Controller) : Prop where
  labs : s'.db.labs = s.db.labs
  labMembers : s'.db.labMembers = s.db.labMembers
  labPlacements : s'.db.labPlacements = s.db.labPlacements
  issued : s'.issued = s.issued
  students : ∀ r, r ∈ s'.db.students.rows ↔
    r ∈ s.db.students.rows ∧ ¬ (r.id ∈ sids ∧ ¬ s.db.Housed r.id)

/-- A student without a lab is no PI, and can be deleted. -/
theorem removeOrphan_run (sid : Nat) {s : Controller}
    (hs : ∀ l ∈ s.db.labs.rows, ∀ sid, l.piStudentId = some sid → s.db.Housed sid) :
    ∃ removed s', (destroyLab.removeOrphan sid).run s = (.ok removed, s') ∧
      Orphaned [sid] s s' := by
  unfold destroyLab.removeOrphan
  rw [Op.query, run_read_bind]
  split
  · rename_i hany
    refine ⟨false, s, rfl, rfl, rfl, rfl, rfl, fun r => ?_⟩
    refine ⟨fun hr => ⟨hr, ?_⟩, And.left⟩
    rintro ⟨hid, hnot⟩
    obtain ⟨m, hm, hms⟩ := List.any_eq_true.mp hany
    refine hnot ⟨m, hm, ?_⟩
    rw [List.mem_singleton.mp hid]
    exact beq_iff_eq.mp hms
  · rename_i hnone
    have hnone : ¬ s.db.Housed sid := by
      rintro ⟨m, hm, hms⟩
      exact hnone (List.any_eq_true.mpr ⟨m, hm, beq_iff_eq.mpr hms⟩)
    rcases deleteStudentRow_run sid s with ⟨hpi, _⟩ |
      ⟨_, s', hrun, hlabs, hroster, hstudents, hplacements, hissued⟩
    · obtain ⟨l, hl, hlp⟩ := List.any_eq_true.mp hpi
      exact absurd (hs l hl sid (beq_iff_eq.mp hlp)) hnone
    · refine ⟨true, s', run_bind_ok hrun _, hlabs, ?_, hplacements, hissued, fun r => ?_⟩
      · rw [hroster]
        refine Table.ext (List.filter_eq_self.mpr fun m hm => ?_) rfl
        have hne : m.studentId ≠ sid := fun heq => hnone ⟨m, hm, heq⟩
        simpa using hne
      · rw [hstudents]
        refine Table.mem_delete.trans (and_congr_right fun _ => ?_)
        rw [beq_eq_false_iff_ne, List.mem_singleton]
        constructor
        · rintro hne ⟨heq, _⟩
          exact hne heq
        · rintro h heq
          exact h ⟨heq, heq ▸ hnone⟩

/-- **The loop over the former members** deletes those that have no lab. -/
theorem removeOrphans_run (sids : List Nat) {s : Controller}
    (hs : ∀ l ∈ s.db.labs.rows, ∀ sid, l.piStudentId = some sid → s.db.Housed sid) :
    ∃ removed s', (sids.mapM destroyLab.removeOrphan).run s = (.ok removed, s') ∧
      Orphaned sids s s' := by
  induction sids generalizing s with
  | nil => exact ⟨[], s, rfl, rfl, rfl, rfl, rfl, fun r => by simp⟩
  | cons sid sids ih =>
      obtain ⟨removed, s₁, hrun, h⟩ := removeOrphan_run sid hs
      have hhoused : ∀ sid, s₁.db.Housed sid ↔ s.db.Housed sid := by
        intro sid
        unfold Db.Housed
        rw [h.labMembers]
      have hs₁ : ∀ l ∈ s₁.db.labs.rows, ∀ sid, l.piStudentId = some sid → s₁.db.Housed sid :=
        fun l hl sid hsid => (hhoused sid).mpr (hs l (h.labs ▸ hl) sid hsid)
      obtain ⟨removeds, s₂, hrun', h'⟩ := ih hs₁
      refine ⟨removed :: removeds, s₂, ?_, h'.labs.trans h.labs,
        h'.labMembers.trans h.labMembers, h'.labPlacements.trans h.labPlacements,
        h'.issued.trans h.issued, fun r => ?_⟩
      · rw [List.mapM_cons, run_bind_ok hrun, run_bind_ok hrun']
        rfl
      · rw [h'.students, h.students, hhoused]
        simp only [List.mem_cons, List.not_mem_nil, or_false]
        tauto

/-! ## The lab goes -/

/-- **The lab is gone**, with what is left of its placements, its roster, and the members that have
no other lab. -/
structure LabGone (labId : Nat) (s s' : Controller) : Prop where
  labs : s'.db.labs = s.db.labs.delete fun l => l.id == labId
  labPlacements : s'.db.labPlacements = s.db.labPlacements.delete fun p => p.labId == labId
  issued : s'.issued = s.issued
  students : ∀ r, r ∈ s'.db.students.rows ↔
    r ∈ s.db.students.rows ∧ ¬ (s.db.isMember labId r.id = true ∧
      ∀ m ∈ s.db.labMembers.rows, m.studentId = r.id → m.labId = labId)

/-- Without the roster of a lab, a former member has a lab where the membership of another is
there. -/
theorem Db.housed_delete {d d' : Db} {labId : Nat}
    (h : d'.labMembers = d.labMembers.delete fun m => m.labId == labId) {sid : Nat} :
    d'.Housed sid ↔ ∃ m ∈ d.labMembers.rows, m.studentId = sid ∧ m.labId ≠ labId := by
  unfold Housed
  rw [h]
  constructor
  · rintro ⟨m, hm, hms⟩
    obtain ⟨hm, hne⟩ := Table.mem_delete.mp hm
    exact ⟨m, hm, hms, beq_eq_false_iff_ne.mp hne⟩
  · rintro ⟨m, hm, hms, hne⟩
    exact ⟨m, Table.mem_delete.mpr ⟨hm, beq_eq_false_iff_ne.mpr hne⟩, hms⟩

/-- The members of a lab that have no lab without it are those it alone has. -/
theorem Db.orphaned_iff {d d' : Db} {labId : Nat}
    (h : d'.labMembers = d.labMembers.delete fun m => m.labId == labId) (sid : Nat) :
    (sid ∈ (d.labMembers.select fun m => m.labId == labId).map LabMemberRow.studentId ∧
      ¬ d'.Housed sid) ↔
    (d.isMember labId sid = true ∧
      ∀ m ∈ d.labMembers.rows, m.studentId = sid → m.labId = labId) := by
  rw [Db.housed_delete h, List.mem_map]
  constructor
  · rintro ⟨⟨m, hm, hid⟩, hnot⟩
    obtain ⟨hm, hml⟩ := Table.mem_select.mp hm
    refine ⟨Db.isMember_eq_true.mpr ⟨m, hm, beq_iff_eq.mp hml, hid⟩, fun m' hm' hms => ?_⟩
    by_contra hne
    exact hnot ⟨m', hm', hms, hne⟩
  · rintro ⟨hmember, honly⟩
    obtain ⟨m, hm, hml, hms⟩ := Db.isMember_eq_true.mp hmember
    refine ⟨⟨m, Table.mem_select.mpr ⟨hm, beq_iff_eq.mpr hml⟩, hms⟩, ?_⟩
    rintro ⟨m', hm', hms', hne⟩
    exact hne (honly m' hm' hms')

/-- **The end of the call**: no PI of another lab is among the students that go. -/
theorem dropLab_run (labId : Nat) (lab : LabRow) (actor : Option String) {s : Controller}
    (hs : s.db.Enrolled) :
    ∃ s', (do
        let memberIds ← Op.query fun d =>
          (d.labMembers.select fun m => m.labId == labId).map LabMemberRow.studentId
        deleteLabRow labId
        let orphans ← memberIds.mapM destroyLab.removeOrphan
        let orphansRemoved := (orphans.filter id).length
        audit actor "lab.delete" (some lab.name)
          (if orphansRemoved = 0 then none else some s!"{orphansRemoved} students removed") :
          Op Unit).run s = (.ok (), s') ∧ LabGone labId s s' := by
  obtain ⟨s₁, hdelete, hlabs, hroster, hstudents, hplacements, hissued⟩ := deleteLabRow_run labId s
  have hhoused : ∀ l ∈ s₁.db.labs.rows, ∀ sid, l.piStudentId = some sid → s₁.db.Housed sid := by
    intro l hl sid hsid
    rw [hlabs] at hl
    obtain ⟨hl, hne⟩ := Table.mem_delete.mp hl
    obtain ⟨m, hm, hml, hms⟩ := Db.isMember_eq_true.mp (hs.pi l hl sid hsid)
    rw [Db.housed_delete hroster]
    exact ⟨m, hm, hms, hml ▸ beq_eq_false_iff_ne.mp hne⟩
  obtain ⟨removed, s₂, horphans, ho⟩ := removeOrphans_run
    ((s.db.labMembers.select fun m => m.labId == labId).map LabMemberRow.studentId) hhoused
  rw [Op.query, run_read_bind, run_bind_ok hdelete, run_bind_ok horphans]
  refine ⟨_, rfl, ho.labs.trans hlabs, ho.labPlacements.trans hplacements,
    ho.issued.trans hissued, fun r => ?_⟩
  refine Iff.trans (ho.students r) ?_
  rw [hstudents, Db.orphaned_iff hroster]

/-! ## The whole call -/

/-- Every placement of the lab is torn down. -/
theorem Db.Linked.destroyOrder {d : Db} (h : d.Linked) {labId : Nat} {r : PlacementRow}
    (hr : r ∈ d.labPlacements.rows) (hlab : r.labId = labId) :
    ∃ p ∈ d.destroyOrder labId, p.toPlacementRow = r := by
  obtain ⟨p, hp⟩ := h.joinPlacement hr
  obtain ⟨rfl, -⟩ := Db.joinPlacement_eq_some hp
  exact ⟨p, Db.mem_destroyOrder.mpr ⟨Db.mem_placements.mpr ⟨hr, hp⟩, hlab⟩, rfl⟩

/-- **What the deletion of a lab does.** -/
structure LabDestroyed (labId : Nat) (s s' : Controller) : Prop where
  /-- One `lab.destroy` is issued for each placement, clients before their owners. -/
  issued : ∃ tasks : List TaskFrame, tasks.length = (s.db.destroyOrder labId).length ∧
    s'.issued = (((s.db.destroyOrder labId).map Placement.nodeName).zip tasks).reverse ++ s.issued ∧
    List.Forall₂ TaskFrame.Destroys tasks (s.db.destroyOrder labId)
  every : ∀ r ∈ s.db.labPlacements.rows, r.labId = labId →
    ∃ p ∈ s.db.destroyOrder labId, p.toPlacementRow = r
  clientsFirst : ∀ p ∈ s.db.destroyOrder labId, ∀ q ∈ s.db.destroyOrder labId,
    p.nodeColdOwnerNodeId = some q.nodeId → [p, q].Sublist (s.db.destroyOrder labId)
  /-- The lab is gone unless a placement is in teardown. -/
  gone : (∀ l ∈ s'.db.labs.rows, l.id ≠ labId) ↔
    ∀ r ∈ s'.db.labPlacements.rows, r.labId = labId → r.state ≠ .deleting
  deleting : ∀ r ∈ s'.db.labPlacements.rows, r.labId = labId → r.state = .deleting
  /-- With the lab go the members that have no other lab, and nobody else. -/
  students : (∀ l ∈ s'.db.labs.rows, l.id ≠ labId) → ∀ r, r ∈ s'.db.students.rows ↔
    r ∈ s.db.students.rows ∧ ¬ (s.db.isMember labId r.id = true ∧
      ∀ m ∈ s.db.labMembers.rows, m.studentId = r.id → m.labId = labId)

/-- Whatever is left of the lab after the loop is `deleting`, and was gone through. -/
theorem TornDown.left {force : Bool} {labId : Nat} {s s₁ : Controller}
    (h : TornDown force (s.db.destroyOrder labId) s s₁) (hlinked : s.db.Linked) :
    ∀ r ∈ s₁.db.labPlacements.rows, r.labId = labId →
      r.state = .deleting ∧ ∃ p ∈ s.db.destroyOrder labId, p.id = r.id := by
  intro r hr hrlab
  obtain ⟨r₀, hr₀, hid, hlab₀, _, hcase⟩ := h.rows r hr
  obtain ⟨p, hp, hrow⟩ := hlinked.destroyOrder hr₀ (hlab₀.trans hrlab)
  have hpid : p.id = r.id := (congrArg PlacementRow.id hrow).trans hid
  refine ⟨?_, p, hp, hpid⟩
  rcases hcase with ⟨_, hnot⟩ | hst
  · exact absurd (List.mem_map.mpr ⟨p, hp, hpid⟩) hnot
  · exact hst

/-- In a torn down lab, clients were torn down before their owners. -/
theorem Db.Owners.destroyOrder_clientsFirst {d : Db} (h : d.Owners) {labId : Nat} :
    ∀ p ∈ d.destroyOrder labId, ∀ q ∈ d.destroyOrder labId,
      p.nodeColdOwnerNodeId = some q.nodeId → [p, q].Sublist (d.destroyOrder labId) := by
  intro p hp q hq howner
  obtain ⟨hpmem, hplab⟩ := Db.mem_destroyOrder.mp hp
  exact h.clientsFirst hq hpmem (hplab.trans (Db.mem_destroyOrder.mp hq).2.symm) howner

/-- **Where some node has to confirm**, the lab stays, and so does everybody in it. -/
theorem LabDestroyed.of_waiting {force : Bool} {labId : Nat} {lab : LabRow} {s s₁ : Controller}
    (hlinked : s.db.Linked) (howners : s.db.Owners) (hlab : s.db.labs.get labId = some lab)
    (htorn : TornDown force (s.db.destroyOrder labId) s s₁) {p : Placement}
    (hp : p ∈ s.db.destroyOrder labId) (hwait : (force && !p.online) = false) :
    LabDestroyed labId s s₁ := by
  obtain ⟨hlmem, hlid⟩ := Table.get_eq_some.mp hlab
  obtain ⟨r, hr, hid, hrlab, hst⟩ := htorn.waiting p hp hwait
  have hstays : ¬ ∀ l ∈ s₁.db.labs.rows, l.id ≠ labId :=
    fun hgone => hgone lab (htorn.registry.labs ▸ hlmem) hlid
  refine { issued := htorn.issued, every := fun r hr => hlinked.destroyOrder hr
           clientsFirst := howners.destroyOrder_clientsFirst
           gone := iff_of_false hstays fun hnone => ?_
           deleting := fun r hr hrlab => (htorn.left hlinked r hr hrlab).1
           students := fun hgone => absurd hgone hstays }
  exact hnone r hr (hrlab.trans (Db.mem_destroyOrder.mp hp).2) hst

/-- **Where no node has to confirm**, the lab goes, and the members that only it has. -/
theorem LabDestroyed.of_gone {force : Bool} {labId : Nat} {s s₁ s₂ : Controller}
    (hlinked : s.db.Linked) (howners : s.db.Owners)
    (htorn : TornDown force (s.db.destroyOrder labId) s s₁) (hgone : LabGone labId s₁ s₂) :
    LabDestroyed labId s s₂ := by
  have hlabs : ∀ l ∈ s₂.db.labs.rows, l.id ≠ labId := by
    intro l hl
    rw [hgone.labs] at hl
    exact beq_eq_false_iff_ne.mp (Table.mem_delete.mp hl).2
  have hrows : ∀ r ∈ s₂.db.labPlacements.rows, r.labId ≠ labId := by
    intro r hr
    rw [hgone.labPlacements] at hr
    exact beq_eq_false_iff_ne.mp (Table.mem_delete.mp hr).2
  refine { issued := ?_, every := fun r hr => hlinked.destroyOrder hr
           clientsFirst := howners.destroyOrder_clientsFirst
           gone := iff_of_true hlabs fun r hr hrlab => absurd hrlab (hrows r hr)
           deleting := fun r hr hrlab => absurd hrlab (hrows r hr)
           students := fun _ r => ?_ }
  · rw [hgone.issued]
    exact htorn.issued
  · refine (hgone.students r).trans ?_
    rw [htorn.registry.students, htorn.registry.labMembers,
      Db.isMember_congr htorn.registry.labMembers]

/-- **The deletion of a lab is never blocked by its own placements.** -/
theorem destroyLab_unblocked {s : Controller} (hs : Reachable s) (labId : Nat)
    (actor : Option String) (force : Bool) :
    ∃ s', (destroyLab labId actor force).run s = (.ok (), s') ∧
      ((s.db.labs.get labId = none ∧ s' = s) ∨ LabDestroyed labId s s') := by
  obtain ⟨host, acts, rfl⟩ := hs
  have hlinked := linked_run host acts
  have howners := owners_run host acts
  have henrolled := enrolled_run host acts
  have hdrawn := drawn_run host acts
  generalize Run.run step (.init host) acts = s at hlinked howners henrolled hdrawn ⊢
  unfold destroyLab
  rw [Op.query, run_read_bind]
  cases hlab : s.db.labs.get labId with
  | none => exact ⟨s, rfl, .inl ⟨rfl, rfl⟩⟩
  | some lab =>
      dsimp only
      rw [Op.query, run_read_bind]
      obtain ⟨s₁, hloop, htorn⟩ := tearDowns_run force actor [] (s.db.destroyOrder labId)
        (s.db.nodup_destroyOrder labId) (fun p hp => (Db.mem_destroyOrder.mp hp).1)
        (fun p hp q hq hqlab howner => howners.clientsFirst hp hq hqlab howner)
        (.refl force s) hdrawn
      rw [List.nil_append] at htorn
      have hloop : ((s.db.destroyOrder labId).forM fun p =>
          if force && !p.online then forceDeletePlacement p.id actor
          else destroyPlacement p.id actor).run s = (.ok (), s₁) := hloop
      show ∃ s', (((s.db.destroyOrder labId).forM fun p =>
          if force && !p.online then forceDeletePlacement p.id actor
          else destroyPlacement p.id actor) >>= fun _ => _ : Op Unit).run s = _ ∧ _
      rw [run_bind_ok hloop]
      by_cases hwait : (s.db.destroyOrder labId).any (fun p => !(force && !p.online)) = true
      · -- some node has to confirm
        refine ⟨s₁, (congrArg (fun x : Op Unit => x.run s₁) (if_pos hwait)), .inr ?_⟩
        obtain ⟨p, hp, hpw⟩ := List.any_eq_true.mp hwait
        exact .of_waiting hlinked howners hlab htorn hp ((Bool.not_eq_true' _).mp hpw)
      · -- every placement was purged, so the lab goes
        have hlabs : SameLabs s s₁ := ⟨htorn.registry.labs,
          htorn.registry.students ▸ Table.Keeps.refl _, htorn.registry.labMembers⟩
        obtain ⟨s₂, hrun, hgone⟩ := dropLab_run labId lab actor (hlabs.enrolled henrolled)
        show ∃ s', (if (s.db.destroyOrder labId).any (fun p => !(force && !p.online)) = true
          then _ else _ : Op Unit).run s₁ = _ ∧ _
        rw [if_neg hwait]
        exact ⟨s₂, hrun, .inr (.of_gone hlinked howners htorn hgone)⟩

theorem destroyLab_unblocked_placed : ∃ s',
    (destroyLab 1 none true).run (Run.run step (.init .plain) placedLab) = (.ok (), s') ∧
      LabDestroyed 1 (Run.run step (.init .plain) placedLab) s' := by
  obtain ⟨s', hrun, h⟩ := destroyLab_unblocked ⟨.plain, placedLab, rfl⟩ 1 none true
  have hlab : ((Run.run step (.init .plain) placedLab).db.labs.get 1).isSome = true := by
    decide +kernel
  refine ⟨s', hrun, h.resolve_left fun hnone => ?_⟩
  rw [hnone.1] at hlab
  cases hlab

end MassDeployment
