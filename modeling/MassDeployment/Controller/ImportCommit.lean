import MassDeployment.Controller.Enrols
import MassDeployment.Controller.ImportPlan
import MassDeployment.Controller.Quiet

set_option autoImplicit false

/-! # What the transaction of an import does

`commitRosterPlan` writes a plan step by step: the PI's metadata, the new students, the changed
ones, the PI, the roster. Each step has a lemma for its loop that says what the table is
afterwards; a plan that fits the database meets no constraint on the way, so that only the
range of uids can stop it. What `applyRosterImport` does after the transaction issues tasks and
writes no roster, so the call leaves what the transaction left.
-/

namespace MassDeployment

open Js Prog

/-! ## Fresh uids -/

/-- The uids no student has, lowest first. -/
def Db.freeUids (d : Db) : List Nat :=
  (List.range' 10000 50000).filter fun uid => !(d.students.rows.map StudentRow.linuxUid).contains uid

theorem Db.firstFreeUid_eq (d : Db) : d.firstFreeUid = d.freeUids.head? :=
  List.head?_filter.symm

theorem Db.mem_freeUids {d : Db} {uid : Nat} : uid ∈ d.freeUids ↔
    (10000 ≤ uid ∧ uid ≤ 59999) ∧ ∀ r ∈ d.students.rows, r.linuxUid ≠ uid := by
  unfold freeUids
  rw [List.mem_filter, List.mem_range'_1]
  constructor
  · rintro ⟨⟨hlow, hhigh⟩, hfree⟩
    refine ⟨⟨hlow, by omega⟩, fun r hr heq => ?_⟩
    have : uid ∈ d.students.rows.map StudentRow.linuxUid := heq ▸ List.mem_map_of_mem hr
    simp [this] at hfree
  · rintro ⟨⟨hlow, hhigh⟩, hfree⟩
    refine ⟨⟨hlow, by omega⟩, ?_⟩
    simpa using hfree

theorem Db.nodup_freeUids (d : Db) : d.freeUids.Nodup :=
  (List.nodup_range' 1).filter _

/-- A new student takes the lowest free uid. -/
theorem Db.freeUids_insert {d d' : Db} {uid : Nat} {rest : List Nat} (h : d.freeUids = uid :: rest)
    {row : StudentRow} (hrow : row.linuxUid = uid)
    (hrows : d'.students.rows = d.students.rows ++ [row]) : d'.freeUids = rest := by
  have hnodup := d.nodup_freeUids
  have hfilter : d'.freeUids = d.freeUids.filter (· ≠ uid) := by
    unfold freeUids
    rw [List.filter_filter, hrows]
    refine List.filter_congr fun x _ => ?_
    simp only [List.map_append, List.map_cons, List.map_nil, hrow]
    by_cases hx : x = uid <;> simp [hx]
  rw [hfilter, h]
  rw [h] at hnodup
  obtain ⟨hnot, _⟩ := List.nodup_cons.mp hnodup
  rw [List.filter_cons_of_neg (by simp)]
  refine List.filter_eq_self.mpr fun x hx => ?_
  have : x ≠ uid := fun heq => hnot (heq ▸ hx)
  simpa using this

/-! ## New students -/

/-- What an import says of a student that is new. -/
def StudentRow.asCreate (r : StudentRow) : StudentCreate :=
  { username := r.username, studentId := r.studentId, name := r.name, email := r.email }

/-- The error of a student for whom no uid is left. -/
def uidsExhausted : Error := .error "student UID range 10000..59999 is exhausted"

theorem insertStudent_run {s : Controller} {username : String} {studentId : Option String}
    (email name : Option String) (hname : ∀ r ∈ s.db.students.rows, r.username ≠ username)
    (hsid : ∀ sid, studentId = some sid → ∀ r ∈ s.db.students.rows, r.studentId ≠ some sid) :
    (s.db.freeUids = [] ∧
      (insertStudent username studentId email name).run s = (.error uidsExhausted, s)) ∨
    ∃ uid rest row T, s.db.freeUids = uid :: rest ∧
      (insertStudent username studentId email name).run s = (.ok row, Slot.students.set s T) ∧
      T.rows = s.db.students.rows ++ [row] ∧
      row.asCreate = { username, studentId, name, email } ∧ row.linuxUid = uid := by
  unfold insertStudent
  rw [run_read_bind]
  dsimp only [id]
  rw [Db.firstFreeUid_eq]
  cases hfree : s.db.freeUids with
  | nil => exact .inl ⟨rfl, rfl⟩
  | cons uid rest =>
      have huid : ∀ r ∈ s.db.students.rows, r.linuxUid ≠ uid :=
        (Db.mem_freeUids.mp (hfree ▸ List.mem_cons_self)).2
      let row := fun i : Nat =>
        { id := i, studentId, username, email, name, linuxUid := uid, createdAt := s.now,
          updatedAt := s.now : StudentRow }
      obtain ⟨T, hT, hrows⟩ := @Slot.insert_run _ _ Slot.students row (fun _ => rfl) s (by
        rintro r hr (hc | hc | ⟨hc, hne⟩)
        · exact hname r hr hc
        · exact huid r hr hc
        · obtain ⟨sid, hs⟩ := Option.ne_none_iff_exists'.mp hne
          exact hsid sid (hc.symm.trans hs) r hr hs)
      refine .inr ⟨uid, rest, row ((Slot.students.get s).seq + 1), T, rfl, ?_, hrows, rfl, rfl⟩
      show (Slot.students.insert row (fun _ => rfl) >>= fun i => pure (row i)).run s = _
      rw [run_bind_ok hT]
      rfl

/-- The students to create clash with nobody, and not with each other. -/
structure StudentCreate.Fresh (d : Db) (cs : List StudentCreate) : Prop where
  nodup : (cs.map StudentCreate.username).Nodup
  name : ∀ c ∈ cs, ∀ r ∈ d.students.rows, r.username ≠ c.username
  sid : ∀ c ∈ cs, ∀ sid, c.studentId = some sid → ∀ r ∈ d.students.rows, r.studentId ≠ some sid
  sids : ∀ c ∈ cs, ∀ c' ∈ cs, ∀ sid, c.studentId = some sid → c'.studentId = some sid →
    c.username = c'.username

theorem StudentCreate.Fresh.tail {d d' : Db} {c : StudentCreate} {cs : List StudentCreate}
    (h : Fresh d (c :: cs)) {row : StudentRow} (hrow : row.asCreate = c)
    (hrows : d'.students.rows = d.students.rows ++ [row]) : Fresh d' cs := by
  obtain ⟨hnot, hnodup⟩ := List.nodup_cons.mp h.nodup
  refine ⟨hnodup, fun x hx r hr => ?_, fun x hx sid hs r hr => ?_, fun x hx x' hx' =>
    h.sids x (List.mem_cons_of_mem _ hx) x' (List.mem_cons_of_mem _ hx')⟩
  · rw [hrows] at hr
    rcases List.mem_append.mp hr with hr | hr
    · exact h.name x (List.mem_cons_of_mem _ hx) r hr
    · rw [List.mem_singleton.mp hr]
      intro heq
      have : c.username = x.username := hrow ▸ heq
      exact hnot (this ▸ List.mem_map_of_mem hx)
  · rw [hrows] at hr
    rcases List.mem_append.mp hr with hr | hr
    · exact h.sid x (List.mem_cons_of_mem _ hx) sid hs r hr
    · rw [List.mem_singleton.mp hr]
      intro heq
      have hcs : c.studentId = some sid := hrow ▸ heq
      have := h.sids c List.mem_cons_self x (List.mem_cons_of_mem _ hx) sid hcs hs
      exact hnot (this ▸ List.mem_map_of_mem hx)

/-- The loop over the new students: each takes the next free uid, or there are too few. -/
theorem createStudents_run {cs : List StudentCreate} {s : Controller}
    (h : StudentCreate.Fresh s.db cs) :
    (s.db.freeUids.length < cs.length ∧ ∃ s',
      (cs.forM fun c => do
        let _ ← insertStudent c.username c.studentId c.email c.name).run s =
          (.error uidsExhausted, s')) ∨
    (cs.length ≤ s.db.freeUids.length ∧ ∃ created T,
      (cs.forM fun c => do
        let _ ← insertStudent c.username c.studentId c.email c.name).run s =
          (.ok (), Slot.students.set s T) ∧
      T.rows = s.db.students.rows ++ created ∧ created.map StudentRow.asCreate = cs ∧
      created.map StudentRow.linuxUid = s.db.freeUids.take cs.length) := by
  induction cs generalizing s with
  | nil => exact .inr ⟨Nat.zero_le _, [], s.db.students, rfl, by simp, rfl, rfl⟩
  | cons c cs ih =>
      rw [run_forM_cons]
      rcases insertStudent_run c.email c.name (h.name c List.mem_cons_self)
        (h.sid c List.mem_cons_self) with ⟨hnone, hrun⟩ | ⟨uid, rest, row, T, hfree, hrun, hrows,
          hrow, huid⟩
      · refine .inl ⟨by rw [hnone]; exact Nat.succ_pos _, s, ?_⟩
        exact run_bind_error (run_bind_error hrun _) _
      · have hbody : (do
            let _ ← insertStudent c.username c.studentId c.email c.name : Op Unit).run s =
              (.ok (), Slot.students.set s T) := run_bind_ok hrun _
        rw [run_bind_ok hbody]
        have hrest : (Slot.students.set s T).db.freeUids = rest :=
          Db.freeUids_insert hfree huid hrows
        have hfresh : StudentCreate.Fresh (Slot.students.set s T).db cs := h.tail hrow hrows
        rcases ih hfresh with ⟨hlt, s', hrun'⟩ | ⟨hle, created, T', hrun', hrows',
          hcreated, huids⟩
        · rw [hrest] at hlt
          refine .inl ⟨?_, s', hrun'⟩
          rw [hfree]
          exact Nat.succ_lt_succ hlt
        · rw [hrest] at hle huids
          refine .inr ⟨?_, row :: created, T', hrun', ?_, ?_, ?_⟩
          · rw [hfree]
            exact Nat.succ_le_succ hle
          · rw [hrows']
            show T.rows ++ created = _
            rw [hrows, List.append_assoc]
            rfl
          · rw [List.map_cons, hrow, hcreated]
          · rw [List.map_cons, huid, huids, hfree]
            rfl

/-! ## Changed students -/

/-- What an update writes to the row of its student. -/
def StudentUpdate.apply (u : StudentUpdate) (now : Nat) (r : StudentRow) : StudentRow :=
  if r.username == u.username then
    { r with
      studentId := u.studentId.orElse fun _ => r.studentId
      name := u.name.orElse fun _ => r.name
      email := u.email.orElse fun _ => r.email
      updatedAt := now }
  else r

theorem StudentUpdate.apply_same (u : StudentUpdate) (now : Nat) (r : StudentRow) :
    (u.apply now r).id = r.id ∧ (u.apply now r).username = r.username ∧
      (u.apply now r).linuxUid = r.linuxUid ∧
      ((u.apply now r).studentId = r.studentId ∨
        r.username = u.username ∧ ∃ sid, u.studentId = some sid ∧
          (u.apply now r).studentId = some sid) := by
  unfold apply
  split
  · rename_i hname
    refine ⟨rfl, rfl, rfl, ?_⟩
    dsimp only
    cases u.studentId with
    | none => exact .inl rfl
    | some sid => exact .inr ⟨beq_iff_eq.mp hname, sid, rfl, rfl⟩
  · exact ⟨rfl, rfl, rfl, .inl rfl⟩

/-- A student id nobody has goes to one row, so it clashes with none. -/
theorem updateImported_run {u : StudentUpdate} {s : Controller}
    (hsid : ∀ sid, u.studentId = some sid → ∀ r ∈ s.db.students.rows, r.studentId ≠ some sid) :
    ∃ T, (updateImported u).run s = (.ok (), Slot.students.set s T) ∧
      T.rows = s.db.students.rows.map (u.apply s.now) := by
  unfold updateImported
  rw [Op.now, run_read_bind]
  cases hu : u.studentId with
  | none =>
      refine ⟨_, rfl, List.map_congr_left fun r _ => ?_⟩
      unfold StudentUpdate.apply
      rw [hu]
      rfl
  | some sid =>
      have hpair : (s.db.students.rows.map fun r =>
          if (r.username == u.username) = true then { r with studentId := some sid } else r).Pairwise
            fun a b => ¬ Row.clash a b := by
        refine List.pairwise_map.mpr (s.db.students.unique.imp_of_mem fun {a b} ha hb hab => ?_)
        have hsa := hsid sid hu a ha
        have hsb := hsid sid hu b hb
        intro hclash
        split at hclash <;> split at hclash
        · -- only one student has the name
          rename_i hua hub
          exact hab (.inl ((beq_iff_eq.mp hua).trans (beq_iff_eq.mp hub).symm))
        · rcases hclash with hc | hc | ⟨hc, _⟩
          · exact hab (.inl hc)
          · exact hab (.inr (.inl hc))
          · exact hsb hc.symm
        · rcases hclash with hc | hc | ⟨hc, _⟩
          · exact hab (.inl hc)
          · exact hab (.inr (.inl hc))
          · exact hsa hc
        · exact hab hclash
      obtain ⟨T, hrun, hrows⟩ := @Slot.tryUpdate_run _ _ Slot.students
        (fun r => r.username == u.username) (fun r => { r with studentId := some sid })
        (fun _ _ => ⟨rfl, rfl, rfl⟩) s hpair
      refine ⟨_, run_bind_ok hrun _, ?_⟩
      show (T.rows.map _) = _
      rw [hrows, List.map_map]
      refine List.map_congr_left fun r _ => ?_
      unfold StudentUpdate.apply
      rw [hu]
      by_cases hr : (r.username == u.username) = true
      · simp only [Function.comp, hr, if_true]
        rfl
      · simp only [Function.comp, if_neg hr]

/-- The students to change take student ids nobody has. -/
structure StudentUpdate.Fresh (d : Db) (us : List StudentUpdate) : Prop where
  nodup : (us.map StudentUpdate.username).Nodup
  sid : ∀ u ∈ us, ∀ sid, u.studentId = some sid → ∀ r ∈ d.students.rows, r.studentId ≠ some sid
  sids : ∀ u ∈ us, ∀ u' ∈ us, ∀ sid, u.studentId = some sid → u'.studentId = some sid →
    u.username = u'.username

/-- What all updates write to a row. -/
def applyUpdates (now : Nat) (us : List StudentUpdate) (r : StudentRow) : StudentRow :=
  us.foldl (fun r u => u.apply now r) r

/-- The loop over the changed students. -/
theorem updateStudents_run {us : List StudentUpdate} {s : Controller}
    (h : StudentUpdate.Fresh s.db us) :
    ∃ T, (us.forM updateImported).run s = (.ok (), Slot.students.set s T) ∧
      T.rows = s.db.students.rows.map (applyUpdates s.now us) := by
  induction us generalizing s with
  | nil => exact ⟨s.db.students, rfl, (List.map_id _).symm⟩
  | cons u us ih =>
      obtain ⟨T, hrun, hrows⟩ := updateImported_run (h.sid u List.mem_cons_self)
      obtain ⟨hnot, hnodup⟩ := List.nodup_cons.mp h.nodup
      have hfresh : StudentUpdate.Fresh (Slot.students.set s T).db us := by
        refine ⟨hnodup, fun x hx sid hs r hr => ?_, fun x hx x' hx' =>
          h.sids x (List.mem_cons_of_mem _ hx) x' (List.mem_cons_of_mem _ hx')⟩
        have hr' : r ∈ T.rows := hr
        rw [hrows] at hr'
        obtain ⟨r₀, hr₀, rfl⟩ := List.mem_map.mp hr'
        obtain ⟨_, _, _, hsame | ⟨_, sid', hu, hsid'⟩⟩ := u.apply_same s.now r₀
        · rw [hsame]
          exact h.sid x (List.mem_cons_of_mem _ hx) sid hs r₀ hr₀
        · intro heq
          have hus : u.studentId = some sid := hu.trans (hsid'.symm.trans heq)
          have := h.sids u List.mem_cons_self x (List.mem_cons_of_mem _ hx) sid hus hs
          exact hnot (this ▸ List.mem_map_of_mem hx)
      obtain ⟨T', hrun', hrows'⟩ := ih hfresh
      refine ⟨T', ?_, ?_⟩
      · rw [run_forM_cons, run_bind_ok hrun]
        exact hrun'
      · rw [hrows']
        show T.rows.map _ = _
        rw [hrows, List.map_map]
        rfl

theorem applyUpdates_same (now : Nat) (us : List StudentUpdate) (r : StudentRow) :
    (applyUpdates now us r).id = r.id ∧ (applyUpdates now us r).username = r.username ∧
      (applyUpdates now us r).linuxUid = r.linuxUid := by
  unfold applyUpdates
  induction us generalizing r with
  | nil => exact ⟨rfl, rfl, rfl⟩
  | cons u us ih =>
      obtain ⟨hid, hname, huid⟩ := ih (u.apply now r)
      obtain ⟨hid', hname', huid', _⟩ := u.apply_same now r
      exact ⟨hid.trans hid', hname.trans hname', huid.trans huid'⟩

/-- A student no update is about stays as it is. -/
theorem applyUpdates_of_not_mem {now : Nat} {us : List StudentUpdate} {r : StudentRow}
    (h : r.username ∉ us.map StudentUpdate.username) : applyUpdates now us r = r := by
  unfold applyUpdates
  induction us with
  | nil => rfl
  | cons u us ih =>
      have hne : r.username ≠ u.username := List.ne_of_not_mem_cons h
      have hrest := List.not_mem_of_not_mem_cons h
      have happly : u.apply now r = r := if_neg fun heq => hne (beq_iff_eq.mp heq)
      rw [List.foldl_cons, happly]
      exact ih hrest

/-- A student one update is about gets that update. -/
theorem applyUpdates_of_mem {now : Nat} {us : List StudentUpdate} {u : StudentUpdate}
    (hu : u ∈ us) (hnodup : (us.map StudentUpdate.username).Nodup) {r : StudentRow}
    (hname : r.username = u.username) : applyUpdates now us r = u.apply now r := by
  induction us generalizing r with
  | nil => exact absurd hu List.not_mem_nil
  | cons u' us ih =>
      obtain ⟨hnot, hnodup⟩ := List.nodup_cons.mp hnodup
      show applyUpdates now us (u'.apply now r) = _
      rcases List.mem_cons.mp hu with rfl | hu
      · refine applyUpdates_of_not_mem ?_
        rw [(u.apply_same now r).2.1, hname]
        exact hnot
      · have happly : u'.apply now r = r := by
          refine if_neg fun heq => hnot ?_
          rw [← beq_iff_eq.mp heq, hname]
          exact List.mem_map_of_mem hu
        rw [happly]
        exact ih hu hnodup hname

/-! ## New members -/

theorem Db.isMember_eq_true {d : Db} {labId studentId : Nat} : d.isMember labId studentId = true ↔
    ∃ m ∈ d.labMembers.rows, m.labId = labId ∧ m.studentId = studentId := by
  unfold isMember
  simp

/-- A student of the database that is not on the roster of a lab of the database goes there. -/
theorem insertLabMember_run {labId studentId : Nat} {s : Controller}
    (hlab : ∃ lab, s.db.labs.get labId = some lab)
    (hstudent : ∃ r, s.db.students.get studentId = some r)
    (hnot : s.db.isMember labId studentId = false) :
    ∃ m T, (insertLabMember labId studentId).run s = (.ok (), Slot.labMembers.set s T) ∧
      T.rows = s.db.labMembers.rows ++ [m] ∧ m.labId = labId ∧ m.studentId = studentId := by
  obtain ⟨lab, hlab⟩ := hlab
  obtain ⟨r, hr⟩ := hstudent
  unfold insertLabMember
  rw [run_read_bind]
  dsimp only [id]
  rw [hlab, hr]
  have hclash : ∀ m ∈ (Slot.labMembers.get s).rows,
      ¬ Row.clash m ({ id := (Slot.labMembers.get s).seq + 1, labId, studentId,
                       createdAt := s.now } : LabMemberRow) := by
    intro m hm hc
    rw [Db.isMember_eq_true.mpr ⟨m, hm, hc.1, hc.2⟩] at hnot
    cases hnot
  obtain ⟨T, hrun, hrows⟩ := @Slot.insert_run _ _ Slot.labMembers
    (fun i => { id := i, labId, studentId, createdAt := s.now }) (fun _ => rfl) s hclash
  exact ⟨_, T, run_bind_ok hrun _, hrows, rfl, rfl⟩

theorem addImported_run {labId : Nat} {r : StudentRow} {s : Controller}
    (hlab : ∃ lab, s.db.labs.get labId = some lab) (hr : r ∈ s.db.students.rows)
    (hnot : s.db.isMember labId r.id = false) :
    ∃ m T, (addImported labId r.username).run s = (.ok [.ofRow r], Slot.labMembers.set s T) ∧
      T.rows = s.db.labMembers.rows ++ [m] ∧ m.labId = labId ∧ m.studentId = r.id := by
  have hget : s.db.students.get r.id = some r := Table.get_eq_some.mpr ⟨hr, rfl⟩
  obtain ⟨m, T, hrun, hrows, hm⟩ := insertLabMember_run hlab ⟨r, hget⟩ hnot
  refine ⟨m, T, ?_, hrows, hm⟩
  have hfind : s.db.students.find (fun x => x.username == r.username) = some r :=
    Db.studentByName_eq_some.mpr ⟨hr, rfl⟩
  unfold addImported
  rw [Op.query, run_read_bind, hfind]
  dsimp only
  rw [Op.query, run_read_bind, if_neg (by simp [hnot]), run_bind_ok hrun]
  rfl

/-- The loop over the new members: each is added to the roster. -/
theorem addMembers_run {labId : Nat} {names : List String} {s : Controller}
    (hlab : ∃ lab, s.db.labs.get labId = some lab) (hnodup : names.Nodup)
    (hknown : ∀ name ∈ names, ∃ r ∈ s.db.students.rows, r.username = name ∧
      s.db.isMember labId r.id = false) :
    ∃ (rows : List StudentRow) (new : List LabMemberRow) (T : Table LabMemberRow),
      (names.mapM (addImported labId)).run s =
        (.ok (rows.map fun r => [.ofRow r]), Slot.labMembers.set s T) ∧
      T.rows = s.db.labMembers.rows ++ new ∧ (∀ r ∈ rows, r ∈ s.db.students.rows) ∧
      rows.map StudentRow.username = names ∧
      new.map (fun m => (m.labId, m.studentId)) = rows.map fun r => (labId, r.id) := by
  induction names generalizing s with
  | nil => exact ⟨[], [], s.db.labMembers, rfl, by simp, by simp, rfl, rfl⟩
  | cons name names ih =>
      obtain ⟨hnew, hnames⟩ := List.nodup_cons.mp hnodup
      obtain ⟨r, hr, rfl, hnot⟩ := hknown name List.mem_cons_self
      obtain ⟨m, T, hrun, hrows, hml, hms⟩ := addImported_run hlab hr hnot
      have hrest : ∀ name ∈ names, ∃ x ∈ (Slot.labMembers.set s T).db.students.rows,
          x.username = name ∧ (Slot.labMembers.set s T).db.isMember labId x.id = false := by
        intro name' hname'
        obtain ⟨x, hx, rfl, hxnot⟩ := hknown name' (List.mem_cons_of_mem _ hname')
        refine ⟨x, hx, rfl, ?_⟩
        rw [← Bool.not_eq_true, Db.isMember_eq_true]
        rintro ⟨m', hm', hl, hs⟩
        have hm' : m' ∈ T.rows := hm'
        rw [hrows] at hm'
        rcases List.mem_append.mp hm' with hm' | hm'
        · rw [Db.isMember_eq_true.mpr ⟨m', hm', hl, hs⟩] at hxnot
          cases hxnot
        · -- two students of one id are one
          rw [List.mem_singleton.mp hm', hms] at hs
          rw [s.db.students.eq_of_id hr hx hs] at hnew
          exact hnew hname'
      obtain ⟨rows, new, T', hrun', hrows', hmem, husers, hpairs⟩ :=
        @ih (Slot.labMembers.set s T) hlab hnames hrest
      refine ⟨r :: rows, m :: new, T', ?_, ?_, ?_, ?_, ?_⟩
      · rw [List.mapM_cons, run_bind_ok hrun, run_bind_ok hrun']
        rfl
      · rw [hrows']
        show T.rows ++ new = _
        rw [hrows, List.append_assoc]
        rfl
      · intro x hx
        rcases List.mem_cons.mp hx with rfl | hx
        · exact hr
        · exact hmem x hx
      · rw [List.map_cons, husers]
      · rw [List.map_cons, List.map_cons, hpairs, hml, hms]

/-! ## The transaction -/

/-- The student a plan makes the PI. -/
def RosterPlan.newPi (plan : RosterPlan) (d : Db) : Option Nat :=
  ((plan.piUpdate.bind PiUpdate.piUsername).bind d.studentByName).map StudentRow.id

/-- What a plan makes of its lab. -/
def RosterPlan.relabel (plan : RosterPlan) (now : Nat) (newPi : Option Nat) (l : LabRow) : LabRow :=
  match plan.piUpdate with
  | none => l
  | some pi =>
    { l with
      piName := pi.piName.orElse fun _ => l.piName
      piEmail := pi.piEmail.orElse fun _ => l.piEmail
      updatedAt := now
      piStudentId := newPi.orElse fun _ => l.piStudentId }

/-- **The effect of a plan, and nothing else**: the students it changes and creates, its lab, and
the members it adds. -/
structure Imported (labId : Nat) (plan : RosterPlan) (s s' : Controller) : Prop where
  rest : ∃ students labs labMembers, s' = { s with db := { s.db with students, labs, labMembers } }
  students : ∃ created,
    s'.db.students.rows =
      s.db.students.rows.map (applyUpdates s.now plan.studentsToUpdate) ++ created ∧
    created.map StudentRow.asCreate = plan.studentsToCreate ∧
    created.map StudentRow.linuxUid = s.db.freeUids.take plan.studentsToCreate.length
  labs : s'.db.labs.rows = s.db.labs.rows.map fun l =>
    if l.id == labId then plan.relabel s.now (plan.newPi s'.db) l else l
  roster : ∃ (rows : List StudentRow) (new : List LabMemberRow), s'.db.labMembers.rows = s.db.labMembers.rows ++ new ∧
    (∀ r ∈ rows, r ∈ s'.db.students.rows) ∧
    rows.map StudentRow.username = plan.membershipsToAdd ∧
    new.map (fun m => (m.labId, m.studentId)) = rows.map fun r => (labId, r.id)

/-- A roster names students that are there. -/
def Db.RosterKeys (d : Db) : Prop :=
  ∀ m ∈ d.labMembers.rows, ∃ r ∈ d.students.rows, r.id = m.studentId

theorem Db.isMember_congr {d d' : Db} (h : d'.labMembers = d.labMembers) (labId studentId : Nat) :
    d'.isMember labId studentId = d.isMember labId studentId := by
  unfold isMember
  rw [h]

namespace RosterPlan.Fits

variable {labId : Nat} {plan : RosterPlan} {d : Db} (h : plan.Fits d labId) {created : List StudentRow}
  (hcreated : created.map StudentRow.asCreate = plan.studentsToCreate)

include h hcreated

omit h in
theorem created_mem {r : StudentRow} (hr : r ∈ created) : r.asCreate ∈ plan.studentsToCreate :=
  hcreated ▸ List.mem_map_of_mem hr

/-- The updates take student ids that no new student has taken either. -/
theorem updates_fresh {d' : Db} (hrows : d'.students.rows = d.students.rows ++ created) :
    StudentUpdate.Fresh d' plan.studentsToUpdate := by
  refine ⟨h.updated, fun u hu sid hs r hr => ?_, h.updatedSids⟩
  rw [hrows] at hr
  rcases List.mem_append.mp hr with hr | hr
  · exact h.updatedSid u hu sid hs r hr
  · exact h.apart u hu _ (created_mem hcreated hr) sid hs

/-- No update is about a new student. -/
theorem updates_created (now : Nat) :
    created.map (applyUpdates now plan.studentsToUpdate) = created := by
  conv_rhs => rw [← List.map_id created]
  refine List.map_congr_left fun r hr => applyUpdates_of_not_mem fun hmem => ?_
  obtain ⟨u, hu, hname⟩ := List.mem_map.mp hmem
  obtain ⟨r', hr', hname'⟩ := h.updatedName u hu
  exact h.createdName _ (created_mem hcreated hr) r' hr' (hname'.trans hname)

/-- Everyone who is to be added to the roster is known in the end, and not on it. -/
theorem added_known (hkeys : d.RosterKeys) {d' : Db} {now : Nat}
    (hrows : d'.students.rows =
      d.students.rows.map (applyUpdates now plan.studentsToUpdate) ++ created)
    (hroster : d'.labMembers = d.labMembers) {name : String} (hname : name ∈ plan.membershipsToAdd) :
    ∃ r ∈ d'.students.rows, r.username = name ∧ d'.isMember labId r.id = false := by
  rcases h.addedName name hname with ⟨r, hr, hru, hnot⟩ | ⟨c, hc, rfl⟩
  · obtain ⟨hid, huser, _⟩ := applyUpdates_same now plan.studentsToUpdate r
    refine ⟨_, hrows ▸ List.mem_append_left _ (List.mem_map_of_mem hr), huser.trans hru, ?_⟩
    rw [Db.isMember_congr hroster, hid]
    exact hnot
  · rw [← hcreated] at hc
    obtain ⟨r, hr, rfl⟩ := List.mem_map.mp hc
    have hr' : r ∈ d'.students.rows := hrows ▸ List.mem_append_right _ hr
    refine ⟨r, hr', rfl, ?_⟩
    rw [Db.isMember_congr hroster, ← Bool.not_eq_true, Db.isMember_eq_true]
    rintro ⟨m, hm, _, hms⟩
    -- the roster only names students that were there, and their keys are not taken again
    obtain ⟨r₀, hr₀, hid₀⟩ := hkeys m hm
    obtain ⟨hid, huser, _⟩ := applyUpdates_same now plan.studentsToUpdate r₀
    have hr₁ : applyUpdates now plan.studentsToUpdate r₀ ∈ d'.students.rows :=
      hrows ▸ List.mem_append_left _ (List.mem_map_of_mem hr₀)
    have heq := d'.students.eq_of_id hr₁ hr' (hid.trans (hid₀.trans hms))
    exact h.createdName _ (created_mem hcreated hr) r₀ hr₀ (huser.symm.trans (heq ▸ rfl))

/-- The PI a plan names is known in the end. -/
theorem pi_known (hkeys : d.RosterKeys) {d' : Db} {now : Nat}
    (hrows : d'.students.rows =
      d.students.rows.map (applyUpdates now plan.studentsToUpdate) ++ created)
    (hroster : d'.labMembers = d.labMembers) {name : String}
    (hname : plan.piUpdate.bind PiUpdate.piUsername = some name) :
    ∃ r, d'.studentByName name = some r := by
  rcases h.pi name hname with hadded | ⟨r, hr, hru, _⟩
  · obtain ⟨r, hr, hru, _⟩ := h.added_known hcreated hkeys hrows hroster hadded
    exact ⟨r, Db.studentByName_eq_some.mpr ⟨hr, hru⟩⟩
  · obtain ⟨_, huser, _⟩ := applyUpdates_same now plan.studentsToUpdate r
    exact ⟨_, Db.studentByName_eq_some.mpr
      ⟨hrows ▸ List.mem_append_left _ (List.mem_map_of_mem hr), huser.trans hru⟩⟩

end RosterPlan.Fits

theorem RosterPlan.relabel_id (plan : RosterPlan) (now : Nat) (newPi : Option Nat) (l : LabRow) :
    (plan.relabel now newPi l).id = l.id := by
  unfold relabel
  split <;> rfl

/-- The step that makes a student of the plan the PI. -/
theorem designatePi_run {labId : Nat} {plan : RosterPlan} {s : Controller}
    (hknown : ∀ name, plan.piUpdate.bind PiUpdate.piUsername = some name →
      ∃ r, s.db.studentByName name = some r) :
    ∃ L, ((plan.piUpdate.bind PiUpdate.piUsername).forM (fun username => do
        match ← Op.query fun d => d.students.find fun r => r.username == username with
        | none => Op.failWith "PI account was not created during roster import"
        | some row => updateLab labId fun l => { l with piStudentId := some row.id }) : Op PUnit).run
          s = (.ok (), Slot.labs.set s L) ∧
      L.rows = s.db.labs.rows.map fun l =>
        if l.id == labId then
          { l with piStudentId := (plan.newPi s.db).orElse fun _ => l.piStudentId }
        else l := by
  cases hname : plan.piUpdate.bind PiUpdate.piUsername with
  | none =>
      refine ⟨s.db.labs, rfl, ?_⟩
      rw [RosterPlan.newPi, hname]
      conv_lhs => rw [← List.map_id s.db.labs.rows]
      refine List.map_congr_left fun l _ => ?_
      split <;> rfl
  | some name =>
      obtain ⟨r, hr⟩ := hknown name hname
      have hfind : s.db.students.find (fun x => x.username == name) = some r := hr
      refine ⟨s.db.labs.update (fun l => l.id == labId) (fun l => { l with piStudentId := some r.id })
        (keeps_lab _ _ fun _ => ⟨rfl, rfl⟩), ?_, ?_⟩
      · show (Op.query _ >>= _ : Op Unit).run s = _
        rw [Op.query, run_read_bind, hfind]
        rfl
      · rw [RosterPlan.newPi, hname, Option.bind_some, hr]
        rfl

/-- **A plan that fits is committed as a whole, or stopped by the range of uids.** -/
theorem commitRosterPlan_run {labId : Nat} {plan : RosterPlan} {s : Controller}
    (h : plan.Fits s.db labId) (hkeys : s.db.RosterKeys) :
    (s.db.freeUids.length < plan.studentsToCreate.length ∧
      ∃ s', (commitRosterPlan labId plan).run s = (.error uidsExhausted, s')) ∨
    (plan.studentsToCreate.length ≤ s.db.freeUids.length ∧
      ∃ added s', (commitRosterPlan labId plan).run s = (.ok added, s') ∧
        Imported labId plan s s') := by
  unfold commitRosterPlan
  rw [Op.now, run_read_bind]
  -- the PI's metadata
  obtain ⟨L, hmeta, hlabs⟩ : ∃ L, (plan.piUpdate.forM fun pi =>
      updateLab labId fun l =>
        { l with
          piName := pi.piName.orElse fun _ => l.piName
          piEmail := pi.piEmail.orElse fun _ => l.piEmail
          updatedAt := s.now }).run s = (.ok (), Slot.labs.set s L) ∧
      L.rows = s.db.labs.rows.map fun l =>
        if l.id == labId then plan.relabel s.now none l else l := by
    unfold RosterPlan.relabel
    cases plan.piUpdate with
    | none => exact ⟨s.db.labs, rfl, by simp⟩
    | some pi => exact ⟨_, rfl, rfl⟩
  rw [run_bind_ok hmeta]
  -- the new students
  have hfresh : StudentCreate.Fresh (Slot.labs.set s L).db plan.studentsToCreate :=
    ⟨h.created, h.createdName, h.createdSid, h.createdSids⟩
  rcases createStudents_run hfresh with ⟨hlt, s', hcreate⟩ | ⟨hle, created, T, hcreate, hT, hc, hu⟩
  · refine .inl ⟨hlt, s', ?_⟩
    exact run_bind_error hcreate _
  refine .inr ⟨hle, ?_⟩
  rw [run_bind_ok hcreate]
  -- the changed students
  have hupdates : StudentUpdate.Fresh (Slot.students.set (Slot.labs.set s L) T).db
      plan.studentsToUpdate := h.updates_fresh hc hT
  obtain ⟨T', hupdate, hT'⟩ := updateStudents_run hupdates
  rw [run_bind_ok hupdate]
  have hstudents : T'.rows =
      s.db.students.rows.map (applyUpdates s.now plan.studentsToUpdate) ++ created := by
    rw [hT']
    show T.rows.map _ = _
    rw [hT, List.map_append, h.updates_created hc]
    rfl
  -- the PI
  let s₃ := Slot.students.set (Slot.labs.set s L) T'
  have hrows : s₃.db.students.rows =
    s.db.students.rows.map (applyUpdates s.now plan.studentsToUpdate) ++ created := hstudents
  obtain ⟨L', hpi, hlabs'⟩ := @designatePi_run labId plan s₃
    fun name hname => h.pi_known hc hkeys hrows rfl hname
  have hlabs₃ : L'.rows = s.db.labs.rows.map fun l =>
      if l.id == labId then plan.relabel s.now (plan.newPi s₃.db) l else l := by
    rw [hlabs']
    show L.rows.map _ = _
    rw [hlabs, List.map_map]
    refine List.map_congr_left fun l _ => ?_
    by_cases hl : (l.id == labId) = true
    · have hl' : ((plan.relabel s.now none l).id == labId) = true := by
        rw [RosterPlan.relabel_id]
        exact hl
      simp only [Function.comp, if_pos hl, if_pos hl']
      unfold RosterPlan.relabel
      cases hp : plan.piUpdate with
      | none => rw [RosterPlan.newPi, hp]; rfl
      | some pi => rfl
    · simp only [Function.comp, if_neg hl]
  -- the roster
  have hlab' : ∃ lab, (Slot.labs.set s₃ L').db.labs.get labId = some lab := by
    obtain ⟨lab, hlab⟩ := h.lab
    obtain ⟨hmem, hid⟩ := Table.get_eq_some.mp hlab
    refine ⟨plan.relabel s.now (plan.newPi s₃.db) lab, Table.get_eq_some.mpr ⟨?_, ?_⟩⟩
    · show _ ∈ L'.rows
      rw [hlabs₃]
      exact List.mem_map.mpr ⟨lab, hmem, if_pos (beq_iff_eq.mpr hid)⟩
    · exact (plan.relabel_id s.now _ lab).trans hid
  obtain ⟨rows, new, R, hadd, hR, hmem, hnames, hpairs⟩ := addMembers_run hlab' h.added
    fun name hname => h.added_known hc hkeys hrows rfl hname
  refine ⟨_, _, (run_bind_ok hpi _).trans (run_bind_ok hadd _), ⟨T', L', R, rfl⟩,
    ⟨created, hstudents, hc, hu⟩, hlabs₃, rows, new, hR, hmem, hnames, hpairs⟩

/-! ## What an import spares -/

/-- A stored value is as before, or has a new one that is no blank. -/
def Refreshed (old new : Option String) : Prop := new = old ∨ ∃ v, new = some v ∧ v ≠ ""

theorem Filled.refreshed {value : Option String} (h : Filled value) (old : Option String) :
    Refreshed old (value.orElse fun _ => old) := by
  cases value with
  | none => exact .inl rfl
  | some v => exact .inr ⟨v, rfl, h v rfl⟩

/-- Students keep their names and uids, no cell is blanked, and nobody leaves a roster. -/
structure Preserved (s s' : Controller) : Prop where
  students : ∀ r ∈ s.db.students.rows, ∃ r' ∈ s'.db.students.rows,
    r'.id = r.id ∧ r'.username = r.username ∧ r'.linuxUid = r.linuxUid ∧
    Refreshed r.studentId r'.studentId ∧ Refreshed r.name r'.name ∧ Refreshed r.email r'.email
  labs : ∀ l ∈ s.db.labs.rows, ∃ l' ∈ s'.db.labs.rows, l'.id = l.id ∧ l'.name = l.name ∧
    Refreshed l.piName l'.piName ∧ Refreshed l.piEmail l'.piEmail
  roster : ∀ m ∈ s.db.labMembers.rows, m ∈ s'.db.labMembers.rows

/-- What the updates of a plan write to one row. -/
theorem applyUpdates_refreshed {now : Nat} {us : List StudentUpdate}
    (hfilled : ∀ u ∈ us, Filled u.studentId ∧ Filled u.name ∧ Filled u.email)
    (hnodup : (us.map StudentUpdate.username).Nodup) (r : StudentRow) :
    Refreshed r.studentId (applyUpdates now us r).studentId ∧
      Refreshed r.name (applyUpdates now us r).name ∧
      Refreshed r.email (applyUpdates now us r).email := by
  by_cases hmem : r.username ∈ us.map StudentUpdate.username
  · obtain ⟨u, hu, hname⟩ := List.mem_map.mp hmem
    obtain ⟨hsid, hn, he⟩ := hfilled u hu
    rw [applyUpdates_of_mem hu hnodup hname.symm, StudentUpdate.apply,
      if_pos (beq_iff_eq.mpr hname.symm)]
    exact ⟨hsid.refreshed _, hn.refreshed _, he.refreshed _⟩
  · rw [applyUpdates_of_not_mem hmem]
    exact ⟨.inl rfl, .inl rfl, .inl rfl⟩

theorem Imported.preserved {labId : Nat} {plan : RosterPlan} {s s' : Controller}
    (h : Imported labId plan s s')
    (hnodup : (plan.studentsToUpdate.map StudentUpdate.username).Nodup)
    (hfilled : ∀ u ∈ plan.studentsToUpdate, Filled u.studentId ∧ Filled u.name ∧ Filled u.email)
    (hpi : ∀ pi, plan.piUpdate = some pi → Filled pi.piName ∧ Filled pi.piEmail) :
    Preserved s s' where
  students r hr := by
    obtain ⟨created, hrows, _, _⟩ := h.students
    obtain ⟨hid, hname, huid⟩ := applyUpdates_same s.now plan.studentsToUpdate r
    exact ⟨_, hrows ▸ List.mem_append_left _ (List.mem_map_of_mem hr), hid, hname, huid,
      applyUpdates_refreshed hfilled hnodup r⟩
  labs l hl := by
    refine ⟨_, h.labs ▸ List.mem_map_of_mem hl, ?_⟩
    split
    · unfold RosterPlan.relabel
      cases hp : plan.piUpdate with
      | none => exact ⟨rfl, rfl, .inl rfl, .inl rfl⟩
      | some pi =>
          obtain ⟨hn, he⟩ := hpi pi hp
          exact ⟨rfl, rfl, hn.refreshed _, he.refreshed _⟩
    · exact ⟨rfl, rfl, .inl rfl, .inl rfl⟩
  roster m hm := by
    obtain ⟨_, new, hrows, _⟩ := h.roster
    exact hrows ▸ List.mem_append_left _ hm

/-- The uids new students get are distinct, in range, and nobody's. -/
theorem Db.take_freeUids (d : Db) (n : Nat) :
    (d.freeUids.take n).Nodup ∧ ∀ uid ∈ d.freeUids.take n, 10000 ≤ uid ∧ uid ≤ 59999 ∧
      ∀ r ∈ d.students.rows, r.linuxUid ≠ uid := by
  refine ⟨d.nodup_freeUids.sublist (List.take_sublist _ _), fun uid huid => ?_⟩
  obtain ⟨⟨hlow, hhigh⟩, hfree⟩ := Db.mem_freeUids.mp (List.mem_of_mem_take huid)
  exact ⟨hlow, hhigh, hfree⟩

/-! ## The whole call -/

/-- Labs, students and rosters are what they were. -/
structure SameRoster (s s' : Controller) : Prop where
  labs : s'.db.labs = s.db.labs
  students : s'.db.students = s.db.students
  labMembers : s'.db.labMembers = s.db.labMembers

instance : IsPreorder Controller SameRoster where
  refl _ := ⟨rfl, rfl, rfl⟩
  trans _ _ _ h h' := ⟨h'.labs.trans h.labs, h'.students.trans h.students,
    h'.labMembers.trans h.labMembers⟩

/-- Provisioning does not look at them. -/
theorem memberWalk_roster : MemberWalk SameRoster :=
  memberWalk_of_rows (fun _ _ h => ⟨h.labs, h.students, h.labMembers⟩)
    fun _ _ _ _ _ => ⟨rfl, rfl, rfl⟩

/-- The call waits in the provisioning of an import. -/
def Await.Importing : Await → Prop
  | .importRest .. => True
  | _ => False

/-- Every call of the thread does. -/
def Thread.Importing (thread : Thread) : Prop := ∀ await ∈ thread, await.Importing

theorem provisionImported_waits (labId : Nat) (actor : Option String)
    (students : List ProvisionStudent) :
    Returns Thread.Importing (provisionImported labId actor students) := by
  induction students with
  | nil => exact .pure fun _ ha => absurd ha List.not_mem_nil
  | cons student rest ih =>
      refine .bind fun placements => ?_
      split
      · exact ih
      · refine .bind fun _ => .pure fun a ha => ?_
        rw [List.mem_singleton.mp ha]
        exact trivial

theorem respects_provisionImported (labId : Nat) (actor : Option String)
    (students : List ProvisionStudent) :
    Respects SameRoster (provisionImported labId actor students) := by
  induction students with
  | nil => exact .pure _
  | cons student rest ih =>
      refine .bind (.read _) fun placements => ?_
      split
      · exact ih
      · exact .bind (memberWalk_roster.provisionMember _ _ _) fun _ => .pure _

/-- A text is planned first. -/
theorem applyRosterImport_plan (labId : Nat) (text : String) (actor : Option String)
    (s : Controller) : ∃ message, (applyRosterImport labId text actor).run s =
      (if (planRosterImport s.host s.db labId text).ok then
        applyRosterPlan labId (planRosterImport s.host s.db labId text).toRosterPlan actor
      else Op.failWith message : Op Thread).run s :=
  ⟨_, run_read_bind _ _ _⟩

theorem applyRosterImport_refused (labId : Nat) (text : String) (actor : Option String)
    {s : Controller} (hok : (planRosterImport s.host s.db labId text).ok = false) :
    ∃ e, (applyRosterImport labId text actor).run s = (.error e, s) := by
  obtain ⟨message, hrun⟩ := applyRosterImport_plan labId text actor s
  rw [hrun, hok]
  exact ⟨_, rfl⟩

theorem applyRosterImport_planned (labId : Nat) (text : String) (actor : Option String)
    {s : Controller} (hok : (planRosterImport s.host s.db labId text).ok = true) :
    (applyRosterImport labId text actor).run s = (applyRosterPlan labId
      (planRosterImport s.host s.db labId text).toRosterPlan actor).run s := by
  obtain ⟨message, hrun⟩ := applyRosterImport_plan labId text actor s
  rw [hrun, if_pos hok]

/-- There are not enough uids: the transaction throws and is rolled back. -/
theorem applyRosterImport_exhausted (labId : Nat) (text : String) (actor : Option String)
    {s : Controller} (hkeys : s.db.RosterKeys)
    (hok : (planRosterImport s.host s.db labId text).ok = true)
    (hlt : s.db.freeUids.length <
      (planRosterImport s.host s.db labId text).studentsToCreate.length) :
    (applyRosterImport labId text actor).run s = (.error uidsExhausted, s) := by
  rw [applyRosterImport_planned labId text actor hok]
  rcases commitRosterPlan_run (planRosterImport_fits hok) hkeys with ⟨_, s₁, h⟩ | ⟨hle, _⟩
  · refine run_bind_error ?_ _
    rw [run_atomically, h]
  · exact absurd hlt (Nat.not_lt.mpr hle)

/-- **The transaction of a call**: it commits the plan, and what the call does behind it is to
provision the new members. -/
theorem applyRosterImport_commits (labId : Nat) (text : String) (actor : Option String)
    {s : Controller} (hkeys : s.db.RosterKeys)
    (hok : (planRosterImport s.host s.db labId text).ok = true)
    (hle : (planRosterImport s.host s.db labId text).studentsToCreate.length ≤
      s.db.freeUids.length) :
    ∃ (added : List ProvisionStudent) (s₁ : Controller) (rest : Op Thread),
      (Prog.atomically (commitRosterPlan labId
        (planRosterImport s.host s.db labId text).toRosterPlan)).run s = (.ok added, s₁) ∧
      Imported labId (planRosterImport s.host s.db labId text).toRosterPlan s s₁ ∧
      (applyRosterImport labId text actor).run s = rest.run s₁ ∧
      Respects SameRoster rest ∧ Returns Thread.Importing rest := by
  rw [applyRosterImport_planned labId text actor hok]
  rcases commitRosterPlan_run (planRosterImport_fits hok) hkeys with ⟨hlt, _⟩ |
    ⟨_, added, s₁, h, hi⟩
  · exact absurd hle (Nat.not_le.mpr hlt)
  · have hcommit : (Prog.atomically (commitRosterPlan labId
        (planRosterImport s.host s.db labId text).toRosterPlan)).run s = (.ok added, s₁) := by
      rw [run_atomically, h]
    refine ⟨added, s₁, _, hcommit, hi, run_bind_ok hcommit _, ?_, ?_⟩
    · exact .bind (.read _) fun _ => .bind (memberWalk_roster.audit _ _ _ _) fun _ =>
        respects_provisionImported _ _ _
    · exact .bind fun _ => .bind fun _ => provisionImported_waits _ _ _

/-- **What an import does**: it throws and changes nothing, or it commits its plan and goes on to
provision. -/
theorem applyRosterImport_run (labId : Nat) (text : String) (actor : Option String)
    {s : Controller} (hkeys : s.db.RosterKeys) :
    (∃ e, (applyRosterImport labId text actor).run s = (.error e, s)) ∨
      ((planRosterImport s.host s.db labId text).ok = true ∧
        (planRosterImport s.host s.db labId text).studentsToCreate.length ≤
          s.db.freeUids.length ∧
        ∃ (rest : Op Thread) (s₁ : Controller),
          Imported labId (planRosterImport s.host s.db labId text).toRosterPlan s s₁ ∧
          (applyRosterImport labId text actor).run s = rest.run s₁ ∧
          Respects SameRoster rest ∧ Returns Thread.Importing rest) := by
  cases hok : (planRosterImport s.host s.db labId text).ok with
  | false => exact .inl (applyRosterImport_refused labId text actor hok)
  | true =>
      rcases Nat.lt_or_ge s.db.freeUids.length
        (planRosterImport s.host s.db labId text).studentsToCreate.length with hlt | hle
      · exact .inl ⟨_, applyRosterImport_exhausted labId text actor hkeys hok hlt⟩
      · obtain ⟨_, s₁, rest, _, hi, hrun, hsame, hwaits⟩ :=
          applyRosterImport_commits labId text actor hkeys hok hle
        exact .inr ⟨rfl, hle, rest, s₁, hi, hrun, hsame, hwaits⟩

/-- What is spared stays so where labs, students and rosters do. -/
theorem Preserved.sameRoster {s s' s'' : Controller} (h : Preserved s s')
    (hsame : SameRoster s' s'') : Preserved s s'' where
  students := hsame.students ▸ h.students
  labs := hsame.labs ▸ h.labs
  roster := hsame.labMembers ▸ h.roster

/-- **A roster import commits exactly its plan, or nothing.** A plan that is not `ok`, or has more
new students than there are uids, throws and changes nothing. Any other plan meets no
constraint, the transaction has its effect and no other, and labs, students and rosters are after
the call as the transaction left them. -/
theorem roster_import_exact (s : Controller) (hkeys : s.db.RosterKeys) (labId : Nat)
    (text : String) (actor : Option String) :
    let plan := planRosterImport s.host s.db labId text
    let call := applyRosterImport labId text actor
    (plan.ok = false → ∃ e, call.run s = (.error e, s)) ∧
    (plan.ok = true → s.db.freeUids.length < plan.studentsToCreate.length →
      call.run s = (.error uidsExhausted, s)) ∧
    (plan.ok = true → plan.studentsToCreate.length ≤ s.db.freeUids.length →
      ∃ added s', (Prog.atomically (commitRosterPlan labId plan.toRosterPlan)).run s =
          (.ok added, s') ∧
        Imported labId plan.toRosterPlan s s' ∧ SameRoster s' (call.after s) ∧
        Preserved s (call.after s) ∧
        (s.db.freeUids.take plan.studentsToCreate.length).Nodup ∧
        ∀ uid ∈ s.db.freeUids.take plan.studentsToCreate.length, 10000 ≤ uid ∧ uid ≤ 59999 ∧
          ∀ r ∈ s.db.students.rows, r.linuxUid ≠ uid) := by
  intro plan call
  refine ⟨applyRosterImport_refused labId text actor,
    applyRosterImport_exhausted labId text actor hkeys, fun hok hle => ?_⟩
  obtain ⟨added, s', rest, hcommit, hi, hrun, hkeeps, _⟩ :=
    applyRosterImport_commits labId text actor hkeys hok hle
  have hsame : SameRoster s' (call.after s) := by
    have hafter : call.after s = rest.after s' := congrArg Prod.snd hrun
    rw [hafter]
    exact hkeeps s'
  obtain ⟨lab, hlab, hplan, hc, _⟩ := planRosterImport_ok hok
  obtain ⟨hupdates, hpi⟩ := hc.filled fun r hr => validRows_checked hr
  rw [← hplan] at hupdates hpi
  have hpreserved : Preserved s s' :=
    hi.preserved (planRosterImport_fits hok).updated hupdates hpi
  exact ⟨added, s', hcommit, hi, hsame, hpreserved.sameRoster hsame, s.db.take_freeUids _⟩

/-- A lab without members. -/
def emptyLab : Controller := (createLab "lab" none none none).after (.init .plain)

/-- The import of one student. -/
def aliceCsv : String := "username,email\nalice,a@b.c"

/-- The student is new, gets the first uid, and is stored with it when the call is over. -/
theorem roster_import_exact_alice :
    ∃ added s', (Prog.atomically (commitRosterPlan 1
        (planRosterImport emptyLab.host emptyLab.db 1 aliceCsv).toRosterPlan)).run emptyLab =
          (.ok added, s') ∧ SameRoster s' ((applyRosterImport 1 aliceCsv none).after emptyLab) ∧
      ((applyRosterImport 1 aliceCsv none).after emptyLab).db.students.rows.map
        (fun r => (r.username, r.email, r.linuxUid)) = [("alice", some "a@b.c", 10000)] := by
  have hfree : 10000 ∈ emptyLab.db.freeUids :=
    Db.mem_freeUids.mpr ⟨by decide, fun r hr => absurd hr List.not_mem_nil⟩
  have hone : (planRosterImport emptyLab.host emptyLab.db 1 aliceCsv).studentsToCreate.length = 1 := by
    decide +kernel
  obtain ⟨added, s', hrun, _, hsame, _⟩ := (roster_import_exact emptyLab
    (fun m hm => absurd hm List.not_mem_nil) 1 aliceCsv none).2.2 (by decide +kernel)
      (hone ▸ List.length_pos_of_mem hfree)
  exact ⟨added, s', hrun, hsame, by decide +kernel⟩

end MassDeployment
