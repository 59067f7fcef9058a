import MassDeployment.Controller.Quiet

set_option autoImplicit false

/-! # Primitive writes are quiet

Each write the functions of the controller are made of respects `Quiet`. The writes to
placements, members and the log have a condition; those that delete rows others refer to
keep the references whole.
-/

namespace MassDeployment

open Js Prog

variable {A : String → TaskFrame → Prop} {K : String → Prop}

/-! ## Primitive writes -/

/-- Referential integrity speaks of five tables only. -/
theorem Db.Linked.congr {d d' : Db} (h : d.Linked) (h1 : d'.labs = d.labs)
    (h2 : d'.nodes = d.nodes) (h3 : d'.students = d.students)
    (h4 : d'.labPlacements = d.labPlacements) (h5 : d'.placementMembers = d.placementMembers) :
    d'.Linked :=
  h.carry (h1 ▸ h.labName) (h1 ▸ .refl _) (h2 ▸ .refl _) (h3 ▸ .refl _) (h4 ▸ .refl _)
    (h4 ▸ rfl) (h4 ▸ .refl _) (h5 ▸ .refl _) (h5 ▸ rfl)

theorem quiet_writeLists (f : Db → Db) (h) : Respects (Quiet A K) (Op.writeLists f h) := by
  refine fun s => .frame ((Op.writeLists f h).keeps s) (fun hl => ?_) ?_ ?_ ?_ rfl rfl <;>
    obtain ⟨h1, h2, h3, h4, h5, h6, h7⟩ := h s.db
  · exact hl.congr h2 h1 h3 h5 h6
  · exact h5
  · exact h6
  · exact h7

theorem quiet_emit (e : Event) (h : ∀ s, Vouched s e) : Respects (Quiet A K) (Op.emit e) :=
  fun s => { Quiet.refl (A := A) (K := K) s with
    evolves := (Op.emit e).keeps s
    trace := fun _ => ⟨[e], rfl, fun x hx => by rw [List.mem_singleton.mp hx]; exact h s⟩ }

theorem quiet_lift {α : Type} (x : Except Error α) : Respects (Quiet A K) (Op.lift x) := by
  cases x with
  | error e => exact .throw e
  | ok a => exact .pure a

theorem quiet_failWith {α : Type} (m : String) : Respects (Quiet A K) (Op.failWith m : Op α) :=
  .throw _

theorem quiet_now : Respects (Quiet A K) Op.now := .read _

theorem quiet_query {α : Type} (f : Db → α) : Respects (Quiet A K) (Op.query f) := .read _

theorem quiet_draw {α : Type} (f : Host → Nat → α) : Respects (Quiet A K) (Op.draw f) :=
  fun s => .frame ((Op.draw f).keeps s) id rfl rfl rfl rfl rfl

theorem quiet_spawn (w : Thread) : Respects (Quiet A K) (Op.spawn w) :=
  fun s => .frame ((Op.spawn w).keeps s) id rfl rfl rfl rfl rfl

theorem quiet_writeQueue (node : String) (f) : Respects (Quiet A K) (writeQueue node f) :=
  fun s => .frame ((writeQueue node f).keeps s) id rfl rfl rfl rfl rfl

theorem quiet_updateNodes (p : NodeRow → Bool) (f : NodeRow → NodeRow) (h : Row.Keeps p f) :
    Respects (Quiet A K) (Slot.nodes.update p f h) :=
  fun s => .frame ((Slot.nodes.update p f h).keeps s)
    (fun hl => hl.carry hl.labName (.refl _) (.of_update _ p f h) (.refl _) (.refl _) rfl (.refl _)
      (.refl _) rfl) rfl rfl rfl rfl rfl

theorem quiet_updateNode (name : String) (f : NodeRow → NodeRow) (h) :
    Respects (Quiet A K) (updateNode name f h) := quiet_updateNodes _ _ _

theorem quiet_insertNode (mk : Nat → NodeRow) (hmk) :
    Respects (Quiet A K) (Slot.nodes.insert mk hmk) := by
  refine .exchange fun s a s' hs => ?_
  split at hs
  · rename_i T hT
    cases hs
    exact .frame (Slot.nodes.evolves s T (.of_insert hT))
      (fun hl => hl.carry hl.labName (.refl _) (.of_insert hT) (.refl _) (.refl _) rfl (.refl _)
        (.refl _) rfl) rfl rfl rfl rfl rfl
  · cases hs

theorem quiet_updateLab (labId : Nat) (f : LabRow → LabRow) (h) :
    Respects (Quiet A K) (updateLab labId f h) :=
  fun s => .frame ((updateLab labId f h).keeps s)
    (fun hl => hl.carry
      (fun l hmem => by
        obtain ⟨a, ha, rfl⟩ := (Table.mem_update (h := keeps_lab _ f h)).mp hmem
        split
        · rw [(h a).2]
          exact hl.labName a ha
        · exact hl.labName a ha)
      (.of_update _ _ f (keeps_lab _ f h)) (.refl _) (.refl _) (.refl _) rfl (.refl _)
      (.refl _) rfl) rfl rfl rfl rfl rfl

theorem quiet_insertLab (mk : Nat → LabRow) (hmk) (hname : ∀ i, (mk i).name ≠ "") :
    Respects (Quiet A K) (Slot.labs.insert mk hmk) := by
  refine .exchange fun s a s' hs => ?_
  split at hs
  · rename_i T hT
    cases hs
    refine .frame (Slot.labs.evolves s T (.of_insert hT))
      (fun hl => hl.carry (fun l hmem => ?_) (.of_insert hT) (.refl _) (.refl _) (.refl _) rfl
        (.refl _) (.refl _) rfl) rfl rfl rfl rfl rfl
    replace hmem : l ∈ T.rows := hmem
    rw [(Table.insert_eq_some hT).1] at hmem
    rcases List.mem_append.mp hmem with hmem | hmem
    · exact hl.labName l hmem
    · rw [List.mem_singleton.mp hmem]
      exact hname _
  · cases hs

theorem quiet_updateStudents (p : StudentRow → Bool) (f : StudentRow → StudentRow)
    (h : Row.Keeps p f) : Respects (Quiet A K) (Slot.students.update p f h) :=
  fun s => .frame ((Slot.students.update p f h).keeps s)
    (fun hl => hl.carry hl.labName (.refl _) (.refl _) (.of_update _ p f h) (.refl _) rfl (.refl _)
      (.refl _) rfl) rfl rfl rfl rfl rfl

theorem quiet_tryUpdateStudents (p : StudentRow → Bool) (f : StudentRow → StudentRow) (h) :
    Respects (Quiet A K) (Slot.students.tryUpdate p f h) := by
  refine .exchange fun s a s' hs => ?_
  split at hs
  · rename_i T hT
    cases hs
    exact .frame (Slot.students.evolves s T (.of_tryUpdate hT))
      (fun hl => hl.carry hl.labName (.refl _) (.refl _) (.of_tryUpdate hT) (.refl _) rfl (.refl _)
        (.refl _) rfl) rfl rfl rfl rfl rfl
  · cases hs

theorem quiet_insertStudentRow (mk : Nat → StudentRow) (hmk) :
    Respects (Quiet A K) (Slot.students.insert mk hmk) := by
  refine .exchange fun s a s' hs => ?_
  split at hs
  · rename_i T hT
    cases hs
    exact .frame (Slot.students.evolves s T (.of_insert hT))
      (fun hl => hl.carry hl.labName (.refl _) (.refl _) (.of_insert hT) (.refl _) rfl (.refl _)
        (.refl _) rfl) rfl rfl rfl rfl rfl
  · cases hs

theorem quiet_deleteRoster (p : LabMemberRow → Bool) :
    Respects (Quiet A K) (Slot.labMembers.delete p) :=
  fun s => .frame ((Slot.labMembers.delete p).keeps s) (fun hl => hl.congr rfl rfl rfl rfl rfl)
    rfl rfl rfl rfl rfl

theorem quiet_insertRoster (mk : Nat → LabMemberRow) (hmk) :
    Respects (Quiet A K) (Slot.labMembers.insert mk hmk) := by
  refine .exchange fun s a s' hs => ?_
  split at hs
  · rename_i T hT
    cases hs
    exact .frame (Slot.labMembers.evolves s T (.of_insert hT))
      (fun hl => hl.congr rfl rfl rfl rfl rfl) rfl rfl rfl rfl rfl
  · cases hs

/-- An update of placements is quiet where the state of every row it meets goes the quiet
way. -/
theorem Quiet.of_updatePlacements (s : Controller) (p : PlacementRow → Bool)
    (f : PlacementRow → PlacementRow) (h : Row.Keeps p f)
    (hf : ∀ r ∈ s.db.labPlacements.rows, p r = true → PlacementRow.Quiet r (f r)) :
    Quiet A K s ((Slot.labPlacements.update p f h).run s).2 :=
  { Quiet.refl (A := A) (K := K) s with
    evolves := (Slot.labPlacements.update p f h).keeps s
    linked := fun hl => hl.carry hl.labName (.refl _) (.refl _) (.refl _) (.of_update _ p f h) rfl
      (.of_update _ p f h) (.refl _) rfl
    placements := .of_update PlacementRow.restraint _ p f h hf
    trace := fun _ => ⟨[], rfl, by simp⟩ }

theorem quiet_updatePlacements (p : PlacementRow → Bool) (f : PlacementRow → PlacementRow)
    (h : Row.Keeps p f) (hf : ∀ r, PlacementRow.Quiet r (f r)) :
    Respects (Quiet A K) (Slot.labPlacements.update p f h) :=
  fun s => .of_updatePlacements s p f h fun r _ _ => hf r

theorem quiet_updatePlacement (i : Nat) (f : PlacementRow → PlacementRow) (h)
    (hf : ∀ r, PlacementRow.Quiet r (f r)) :
    Respects (Quiet A K) (updatePlacement i f h) := quiet_updatePlacements _ f _ hf

/-- An update of a member is quiet where it does not activate it. -/
theorem quiet_updateMember (i : Nat) (f : PlacementMemberRow → PlacementMemberRow) (h)
    (hf : ∀ r, PlacementMemberRow.Quiet r (f r)) : Respects (Quiet A K) (updateMember i f h) :=
  fun s => { Quiet.refl (A := A) (K := K) s with
    evolves := (updateMember i f h).keeps s
    linked := fun hl => hl.carry hl.labName (.refl _) (.refl _) (.refl _) (.refl _) rfl (.refl _)
      (.of_update _ _ f (keeps_member _ f h)) rfl
    members := .of_update PlacementMemberRow.restraint _ _ f (keeps_member _ f h)
      fun r _ _ => hf r
    trace := fun _ => ⟨[], rfl, by simp⟩ }

theorem quiet_deleteMembers (p : PlacementMemberRow → Bool) :
    Respects (Quiet A K) (Slot.placementMembers.delete p) :=
  fun s => { Quiet.refl (A := A) (K := K) s with
    evolves := (Slot.placementMembers.delete p).keeps s
    linked := fun hl => hl.carry hl.labName (.refl _) (.refl _) (.refl _) (.refl _) rfl (.refl _)
      (.of_delete _ p) rfl
    members := .of_delete PlacementMemberRow.restraint _ p
    trace := fun _ => ⟨[], rfl, by simp⟩ }

/-- An update of the log is quiet where it settles no task. -/
theorem quiet_updateTasks (p : TaskRow → Bool) (f : TaskRow → TaskRow) (h : Row.Keeps p f)
    (hf : ∀ t, (f t).state.terminal = true → t.state.terminal = true) :
    Respects (Quiet A K) (updateTasks p f h) :=
  fun s => { Quiet.refl (A := A) (K := K) s with
    evolves := (updateTasks p f h).keeps s
    linked := fun hl => hl.congr rfl rfl rfl rfl rfl
    tasks := fun t' ht' hterm => by
      obtain ⟨t, ht, rfl⟩ := (Table.mem_update (h := h)).mp ht'
      refine ⟨t, ht, ?_⟩
      split at hterm
      · rw [if_pos ‹_›]
        exact ⟨(Row.grows_id _ _ (h.grows t ‹_›)).symm, hf t hterm⟩
      · rw [if_neg ‹_›]
        exact ⟨rfl, hterm⟩
    kept := fun t ht _ => Table.Keeps.of_update _ p f h t ht
    trace := fun _ => ⟨[], rfl, by simp⟩ }

theorem quiet_deleteTasks (p : TaskRow → Bool) (hp : ∀ t, p t = true → ¬ K t.node) :
    Respects (Quiet A K) (deleteTasks p) :=
  fun s => { Quiet.refl (A := A) (K := K) s with
    evolves := (deleteTasks p).keeps s
    linked := fun hl => hl.congr rfl rfl rfl rfl rfl
    tasks := fun t ht hterm => ⟨t, (Table.mem_delete.mp ht).1, rfl, hterm⟩
    kept := fun t ht hk => by
      refine ⟨t, Table.mem_delete.mpr ⟨ht, ?_⟩, rfl⟩
      cases hpt : p t with
      | false => rfl
      | true => exact absurd hk (hp t hpt)
    trace := fun _ => ⟨[], rfl, by simp⟩ }

theorem quiet_enqueueTask (node : String) (action : Action) (params : Params)
    (requestedBy : Option String)
    (ha : ∀ frame : TaskFrame, frame.action = action → frame.params = params → A node frame) :
    Respects (Quiet A K) (enqueueTask node action params requestedBy) := by
  intro s
  have hev := (enqueueTask node action params requestedBy).keeps s
  simp only [enqueueTask] at hev ⊢
  split at hev
  · rename_i T hT
    refine
      { Quiet.refl (A := A) (K := K) s with
        evolves := hev
        linked := fun hl => hl.congr rfl rfl rfl rfl rfl
        tasks := fun t ht hterm => ?_
        kept := fun t ht _ => Table.Keeps.of_insert hT t ht
        issued := ⟨[_], rfl, fun x hx => ?_⟩
        trace := fun _ => ⟨[], rfl, by simp⟩ }
    · replace ht : t ∈ T.rows := ht
      rw [(Table.insert_eq_some hT).1] at ht
      rcases List.mem_append.mp ht with ht | ht
      · exact ⟨t, ht, rfl, hterm⟩
      · rw [List.mem_singleton.mp ht] at hterm
        cases hterm
    · rw [List.mem_singleton.mp hx]
      exact ha _ rfl rfl
  · exact .frame hev id rfl rfl rfl rfl rfl

/-! ## Rows with foreign keys -/

/-- A row is inserted only where what it refers to is there. -/
theorem quiet_insertPlacement (labId nodeId : Nat) (mk : Nat → PlacementRow) (hmk)
    (h : ∀ i, (mk i).labId = labId ∧ (mk i).nodeId = nodeId ∧ (mk i).Pending) :
    Respects (Quiet A K) (insertPlacement labId nodeId mk hmk) := by
  intro s
  have hev := (insertPlacement labId nodeId mk hmk).keeps s
  revert hev
  simp only [insertPlacement, run_read_bind, id]
  cases hl : s.db.labs.get labId with
  | none => exact fun _ => .refl s
  | some l =>
      cases hn : s.db.nodes.get nodeId with
      | none => exact fun _ => .refl s
      | some n =>
          simp only [Slot.insert, Prog.exchange]
          intro hev
          split at hev
          · rename_i a s' hs
            split at hs
            · rename_i T hT
              cases hs
              obtain ⟨hrows, _⟩ := Table.insert_eq_some hT
              have hsplit : ∀ p ∈ T.rows, p ∈ s.db.labPlacements.rows ∨
                  (p.labId = labId ∧ p.nodeId = nodeId) := by
                intro p hp
                rw [hrows] at hp
                rcases List.mem_append.mp hp with hp | hp
                · exact .inl hp
                · rw [List.mem_singleton.mp hp]
                  exact .inr ⟨(h _).1, (h _).2.1⟩
              exact
                { Quiet.refl (A := A) (K := K) s with
                  evolves := hev
                  linked := fun hlk =>
                    { labName := hlk.labName
                      lab := fun p hp => (hsplit p hp).elim (hlk.lab p) fun hp =>
                        ⟨l, (Table.get_eq_some.mp hl).1, (Table.get_eq_some.mp hl).2.trans hp.1.symm⟩
                      node := fun p hp => (hsplit p hp).elim (hlk.node p) fun hp =>
                        ⟨n, (Table.get_eq_some.mp hn).1, (Table.get_eq_some.mp hn).2.trans hp.2.symm⟩
                      placement := fun m hm => (Table.Keeps.of_insert hT).get (hlk.placement m hm)
                      student := hlk.student }
                  placements := .of_insert PlacementRow.restraint hT fun i => (h i).2.2
                  trace := fun _ => ⟨[], rfl, by simp⟩ }
            · cases hs
          · exact .refl s

theorem quiet_insertMember (placementId studentId : Nat) (secret : String) :
    Respects (Quiet A K) (insertMember placementId studentId secret) := by
  intro s
  have hev := (insertMember placementId studentId secret).keeps s
  revert hev
  simp only [insertMember, run_read_bind, id]
  cases hp : s.db.labPlacements.get placementId with
  | none => exact fun _ => .refl s
  | some p =>
      cases hr : s.db.students.get studentId with
      | none => exact fun _ => .refl s
      | some r =>
          simp only [run_bind, Slot.insert, Prog.exchange]
          intro hev
          split at hev
          · rename_i a s' hs
            split at hs
            · rename_i T hT
              cases hs
              obtain ⟨hrows, _⟩ := Table.insert_eq_some hT
              have hsplit : ∀ m ∈ T.rows, m ∈ s.db.placementMembers.rows ∨
                  (m.placementId = placementId ∧ m.studentId = studentId) := by
                intro m hm
                rw [hrows] at hm
                rcases List.mem_append.mp hm with hm | hm
                · exact .inl hm
                · rw [List.mem_singleton.mp hm]
                  exact .inr ⟨rfl, rfl⟩
              exact
                { Quiet.refl (A := A) (K := K) s with
                  evolves := hev
                  linked := fun hlk =>
                    { labName := hlk.labName
                      lab := hlk.lab
                      node := hlk.node
                      placement := fun m hm => (hsplit m hm).elim (hlk.placement m) fun hm =>
                        ⟨p, (Table.get_eq_some.mp hp).1, (Table.get_eq_some.mp hp).2.trans hm.1.symm⟩
                      student := fun m hm => (hsplit m hm).elim (hlk.student m) fun hm =>
                        ⟨r, (Table.get_eq_some.mp hr).1, (Table.get_eq_some.mp hr).2.trans hm.2.symm⟩ }
                  members := .of_insert PlacementMemberRow.restraint hT fun i => by simp
                  trace := fun _ => ⟨[], rfl, by simp⟩ }
            · cases hs
          · exact .refl s

/-- What a deletion has to keep: whatever a remaining row refers to. -/
theorem Quiet.of_deletion {s s' : Controller} (hev : s.Evolves s')
    (hp : s.db.labPlacements.Stays PlacementRow.Quiet PlacementRow.Pending s'.db.labPlacements)
    (hm : s.db.placementMembers.Stays PlacementMemberRow.Quiet (fun m => m.state ≠ .active)
      s'.db.placementMembers)
    (hl : s.db.Linked → s'.db.Linked) (ht : s'.db.taskLog = s.db.taskLog)
    (hi : s'.issued = s.issued) (htr : s'.trace = s.trace) : Quiet A K s s' :=
  { Quiet.frame (A := A) (K := K) (.refl s) id rfl rfl rfl rfl rfl with
    evolves := hev, linked := hl, placements := hp, members := hm
    tasks := fun t ht' hterm => ⟨t, ht ▸ ht', rfl, hterm⟩
    kept := fun t ht' _ => ⟨t, ht ▸ ht', rfl⟩
    issued := ⟨[], hi, by simp⟩
    trace := fun _ => ⟨[], htr, by simp⟩ }

/-- The rows of the placements and members a deletion leaves. -/
def Db.withoutPlacements (d : Db) (victim : PlacementRow → Bool) : Db :=
  { d with
    labPlacements := d.labPlacements.delete victim
    placementMembers := d.placementMembers.delete fun m =>
      ((d.labPlacements.select victim).map PlacementRow.id).contains m.placementId }

theorem Db.Linked.withoutPlacements {d : Db} (h : d.Linked) (victim : PlacementRow → Bool) :
    (d.withoutPlacements victim).Linked where
  labName := h.labName
  lab p hp := h.lab p (Table.mem_delete.mp hp).1
  node p hp := h.node p (Table.mem_delete.mp hp).1
  placement m hm := by
    obtain ⟨hm, hkeep⟩ := Table.mem_delete.mp hm
    obtain ⟨p, hp, hpi⟩ := h.placement m hm
    refine ⟨p, Table.mem_delete.mpr ⟨hp, ?_⟩, hpi⟩
    cases hv : victim p with
    | false => rfl
    | true =>
        -- a member of a victim is among the deleted ones
        have hmem : m.placementId ∈ (d.labPlacements.select victim).map PlacementRow.id :=
          List.mem_map.mpr ⟨p, Table.mem_select.mpr ⟨hp, hv⟩, hpi⟩
        rw [List.contains_iff_mem.mpr hmem] at hkeep
        cases hkeep
  student m hm := h.student m (Table.mem_delete.mp hm).1

theorem quiet_deletePlacements (victim : PlacementRow → Bool) :
    Respects (Quiet A K) (deletePlacements victim) := fun s =>
  .of_deletion ((deletePlacements victim).keeps s) (.of_delete PlacementRow.restraint _ victim)
    (.of_delete PlacementMemberRow.restraint _ _)
    (fun h => (h.withoutPlacements victim).congr rfl rfl rfl rfl rfl) rfl rfl rfl

theorem quiet_deleteNodeRow (nodeId : Nat) : Respects (Quiet A K) (deleteNodeRow nodeId) := by
  intro s
  have hev := (deleteNodeRow nodeId).keeps s
  revert hev
  simp only [deleteNodeRow, Op.query, run_read_bind]
  split
  · exact fun _ => .refl s
  · rename_i href
    intro hev
    refine .frame hev (fun h => ?_) rfl rfl rfl rfl rfl
    refine ⟨h.labName, h.lab, fun p hp => ?_, h.placement, h.student⟩
    obtain ⟨n, hn, hni⟩ := h.node p hp
    refine ⟨n, Table.mem_delete.mpr ⟨hn, ?_⟩, hni⟩
    simp only [Bool.or_eq_true, List.any_eq_true, not_or, not_exists, not_and] at href
    have := href.1 p hp
    rw [← hni] at this
    simpa using this

theorem quiet_deleteLabRow (labId : Nat) : Respects (Quiet A K) (deleteLabRow labId) := by
  intro s
  -- only the store changes, so the other components need not be computed
  have hdb : ((deleteLabRow labId).run s).2 =
      { s with db := ((deleteLabRow labId).run s).2.db } := rfl
  have hev := (deleteLabRow labId).keeps s
  rw [hdb] at hev ⊢
  refine .of_deletion hev (.of_delete PlacementRow.restraint _ _)
    (.of_delete PlacementMemberRow.restraint _ _) (fun h => ?_) rfl rfl rfl
  have hw := h.withoutPlacements fun p => p.labId == labId
  refine ⟨fun l hl => h.labName l (Table.mem_delete.mp hl).1, fun p hp => ?_, hw.node,
    hw.placement, hw.student⟩
  -- no placement of the lab is left
  obtain ⟨hp', hne⟩ := Table.mem_delete.mp hp
  obtain ⟨l, hl, hli⟩ := h.lab p hp'
  exact ⟨l, Table.mem_delete.mpr ⟨hl, by rw [hli]; exact hne⟩, hli⟩

theorem quiet_deleteStudentRow (studentId : Nat) :
    Respects (Quiet A K) (deleteStudentRow studentId) := by
  intro s
  have hev := (deleteStudentRow studentId).keeps s
  revert hev
  simp only [deleteStudentRow, Op.query, run_read_bind]
  split
  · exact fun _ => .refl s
  · intro hev
    refine .of_deletion hev (.refl PlacementRow.restraint _)
      (.of_delete PlacementMemberRow.restraint _ _) (fun h => ?_) rfl rfl rfl
    refine ⟨h.labName, h.lab, h.node, fun m hm => h.placement m (Table.mem_delete.mp hm).1,
      fun m hm => ?_⟩
    obtain ⟨hm, hne⟩ := Table.mem_delete.mp hm
    obtain ⟨r, hr, hri⟩ := h.student m hm
    exact ⟨r, Table.mem_delete.mpr ⟨hr, by rw [hri]; exact hne⟩, hri⟩

end MassDeployment
