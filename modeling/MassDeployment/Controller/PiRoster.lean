import MassDeployment.Controller.ImportTwice

set_option autoImplicit false

/-! # The PI of a lab

Two paths designate a PI: the form (`ensurePiAccess`) and the roster import. Both put the PI
on the roster, and nothing takes it off again. The form refuses to replace a PI; the import
does not.
-/

namespace MassDeployment

open Js Prog

/-! ## What the form does -/

/-- Labs and rosters are what they were, and every student is still there. -/
structure SameLabs (s s' : Controller) : Prop where
  labs : s'.db.labs = s.db.labs
  students : s.db.students.Keeps s'.db.students
  labMembers : s'.db.labMembers = s.db.labMembers

instance : IsPreorder Controller SameLabs where
  refl _ := ⟨rfl, .refl _, rfl⟩
  trans _ _ _ h h' := ⟨h'.labs.trans h.labs, h.students.trans h'.students,
    h'.labMembers.trans h.labMembers⟩

theorem SameRoster.sameLabs {s s' : Controller} (h : SameRoster s s') : SameLabs s s' :=
  ⟨h.labs, h.students ▸ .refl _, h.labMembers⟩

/-- The student an input means, if there is one. -/
def Db.knownStudent (h : Host) (d : Db) (input : StudentInput) : Option StudentRow :=
  (d.studentBySid input.studentId).orElse fun _ =>
    d.studentByName (h.toLowerCase (h.trim input.username))

theorem Db.knownStudent_eq_none {h : Host} {d : Db} {input : StudentInput}
    (hk : d.knownStudent h input = none) : d.studentBySid input.studentId = none ∧
      d.studentByName (h.toLowerCase (h.trim input.username)) = none := by
  unfold knownStudent at hk
  cases hid : d.studentBySid input.studentId with
  | none =>
      rw [hid] at hk
      exact ⟨rfl, hk⟩
  | some r =>
      rw [hid] at hk
      cases hk

/-- The two lookups, one after the other. -/
theorem findOrCreateStudent_eq (input : StudentInput) (s : Controller) :
    (findOrCreateStudent input).run s = (((s.db.studentBySid input.studentId).elim
      ((s.db.studentByName (s.host.toLowerCase (s.host.trim input.username))).elim
        (Prog.atomically (insertStudent (s.host.toLowerCase (s.host.trim input.username))
          input.studentId (normalizeEmail s.host input.email) input.name)) pure) pure :
            Op StudentRow)).run s := by
  unfold findOrCreateStudent
  rw [run_read_bind]
  dsimp only [id]
  split
  · rename_i r hid
    have hid : s.db.studentBySid input.studentId = some r := hid
    rw [hid]
    rfl
  · rename_i hid
    have hid : s.db.studentBySid input.studentId = none := hid
    rw [hid, Option.elim_none]
    split
    · rename_i r hname
      have hname : s.db.studentByName (s.host.toLowerCase (s.host.trim input.username)) = some r :=
        hname
      rw [hname]
      rfl
    · rename_i hname
      have hname : s.db.studentByName (s.host.toLowerCase (s.host.trim input.username)) = none :=
        hname
      rw [hname]
      rfl

/-- A student that is known is found, and nothing changes. -/
theorem findOrCreateStudent_known {input : StudentInput} {s : Controller} {r : StudentRow}
    (h : s.db.knownStudent s.host input = some r) :
    (findOrCreateStudent input).run s = (.ok r, s) ∧ r ∈ s.db.students.rows := by
  unfold Db.knownStudent at h
  rw [findOrCreateStudent_eq]
  cases hid : s.db.studentBySid input.studentId with
  | some r' =>
      rw [hid] at h
      cases h
      refine ⟨rfl, ?_⟩
      unfold Db.studentBySid at hid
      split at hid
      · split at hid
        · cases hid
        · exact (Table.find_some hid).1
      · cases hid
  | none =>
      rw [hid] at h
      have hname : s.db.studentByName (s.host.toLowerCase (s.host.trim input.username)) =
        some r := h
      rw [Option.elim_none, hname]
      exact ⟨rfl, (Table.find_some hname).1⟩

/-- A new student is added, or refused without a trace. -/
theorem insertStudent_cases (username : String) (studentId email name : Option String)
    (s : Controller) :
    (∃ e, (insertStudent username studentId email name).run s = (.error e, s)) ∨
      ∃ r T, (insertStudent username studentId email name).run s =
          (.ok r, Slot.students.set s T) ∧
        T.rows = s.db.students.rows ++ [r] ∧ r.linuxUid ∈ s.db.freeUids ∧
        r.studentId = studentId ∧ r.username = username := by
  unfold insertStudent
  rw [run_read_bind]
  dsimp only [id]
  rw [Db.firstFreeUid_eq]
  cases hfree : s.db.freeUids with
  | nil => exact .inl ⟨_, rfl⟩
  | cons uid rest =>
      let row := fun i : Nat =>
        { id := i, studentId, username, email, name, linuxUid := uid, createdAt := s.now,
          updatedAt := s.now : StudentRow }
      show (∃ e, (Slot.students.insert row (fun _ => rfl) >>= fun i => pure (row i)).run s = _) ∨
        ∃ r T, (Slot.students.insert row (fun _ => rfl) >>= fun i => pure (row i)).run s = _ ∧ _
      rcases Slot.students.insert_cases row (fun _ => rfl) s with hins | ⟨T, hins, hrows, _⟩
      · exact .inl ⟨_, run_bind_error hins _⟩
      · exact .inr ⟨row T.seq, T, run_bind_ok hins _, hrows, List.mem_cons_self, rfl, rfl⟩

/-- For an input that means nobody yet, a student is inserted. -/
theorem findOrCreateStudent_run {input : StudentInput} {s : Controller}
    (h : s.db.knownStudent s.host input = none) :
    (findOrCreateStudent input).run s =
      (Prog.atomically (insertStudent (s.host.toLowerCase (s.host.trim input.username))
        input.studentId (normalizeEmail s.host input.email) input.name)).run s := by
  obtain ⟨hid, hname⟩ := Db.knownStudent_eq_none h
  rw [findOrCreateStudent_eq, hid, Option.elim_none, hname, Option.elim_none]

/-- Anybody else becomes a new student, or is refused without a trace. -/
theorem findOrCreateStudent_unknown {input : StudentInput} {s : Controller}
    (h : s.db.knownStudent s.host input = none) :
    (∃ e, (findOrCreateStudent input).run s = (.error e, s)) ∨
      ∃ r T, (findOrCreateStudent input).run s = (.ok r, Slot.students.set s T) ∧
        T.rows = s.db.students.rows ++ [r] ∧ r.linuxUid ∈ s.db.freeUids ∧
        r.studentId = input.studentId ∧
        r.username = s.host.toLowerCase (s.host.trim input.username) := by
  rw [findOrCreateStudent_run h, run_atomically]
  rcases insertStudent_cases (s.host.toLowerCase (s.host.trim input.username)) input.studentId
    (normalizeEmail s.host input.email) input.name s with ⟨e, h⟩ | ⟨r, T, h, hrow⟩
  · exact .inl ⟨e, by rw [h]⟩
  · exact .inr ⟨r, T, by rw [h], hrow⟩

/-- Whoever is found or created is a student afterwards; labs and rosters are left alone. -/
theorem findOrCreateStudent_keeps (input : StudentInput) (s : Controller) :
    SameLabs s ((findOrCreateStudent input).run s).2 ∧
      ∀ r, ((findOrCreateStudent input).run s).1 = .ok r →
        r ∈ ((findOrCreateStudent input).run s).2.db.students.rows := by
  cases hk : s.db.knownStudent s.host input with
  | some r =>
      obtain ⟨hrun, hr⟩ := findOrCreateStudent_known hk
      rw [hrun]
      refine ⟨refl_of SameLabs s, fun r' h => ?_⟩
      cases h
      exact hr
  | none =>
      rcases findOrCreateStudent_unknown hk with ⟨e, hrun⟩ | ⟨r, T, hrun, hrows, _⟩
      · rw [hrun]
        exact ⟨refl_of SameLabs s, nofun⟩
      · rw [hrun]
        refine ⟨⟨rfl, fun x hx => ⟨x, ?_, rfl⟩, rfl⟩, fun r' h => ?_⟩
        · show x ∈ T.rows
          rw [hrows]
          exact List.mem_append_left _ hx
        · cases h
          show r ∈ T.rows
          rw [hrows]
          exact List.mem_append_right _ (List.mem_singleton_self _)

/-- The PI is put on the roster, or was there. -/
theorem enroll_run {labId studentId : Nat} {s : Controller}
    (hlab : ∃ lab, s.db.labs.get labId = some lab)
    (hstudent : ∃ r, s.db.students.get studentId = some r) :
    ∃ new T, (ensurePiAccess.enroll labId studentId).run s = (.ok (), Slot.labMembers.set s T) ∧
      T.rows = s.db.labMembers.rows ++ new ∧
      (∀ m ∈ new, m.labId = labId ∧ m.studentId = studentId) ∧
      ∃ m ∈ T.rows, m.labId = labId ∧ m.studentId = studentId := by
  unfold ensurePiAccess.enroll
  rw [Op.query, run_read_bind]
  cases hmember : s.db.isMember labId studentId with
  | true =>
      refine ⟨[], s.db.labMembers, rfl, (List.append_nil _).symm, fun m hm => ?_,
        Db.isMember_eq_true.mp hmember⟩
      exact absurd hm List.not_mem_nil
  | false =>
      obtain ⟨m, T, hrun, hrows, hm⟩ := insertLabMember_run hlab hstudent hmember
      refine ⟨[m], T, hrun, hrows, fun x hx => ?_, m, ?_, hm⟩
      · rw [List.mem_singleton.mp hx]
        exact hm
      · rw [hrows]
        exact List.mem_append_right _ (List.mem_singleton_self _)

/-- The form has made the student the PI of the lab, who had no other, and is on its roster. -/
structure PiEnsured (labId studentId : Nat) (s s' : Controller) : Prop where
  students : s.db.students.Keeps s'.db.students
  student : ∃ r ∈ s'.db.students.rows, r.id = studentId
  same : ∀ l ∈ s.db.labs.rows, l.id = labId → ∀ sid, l.piStudentId = some sid → sid = studentId
  labs : ∀ l' ∈ s'.db.labs.rows, ∃ l ∈ s.db.labs.rows, l'.id = l.id ∧
    ((l.id = labId ∧ l'.piStudentId = some studentId) ∨ (l.id ≠ labId ∧ l' = l))
  seq : s'.db.labs.seq = s.db.labs.seq
  roster : ∃ new, s'.db.labMembers.rows = s.db.labMembers.rows ++ new ∧
    ∀ m ∈ new, m.labId = labId ∧ m.studentId = studentId
  member : s'.db.isMember labId studentId = true

theorem PiEnsured.sameRoster {labId studentId : Nat} {s s' s'' : Controller}
    (h : PiEnsured labId studentId s s') (h' : SameRoster s' s'') :
    PiEnsured labId studentId s s'' where
  students := h'.students ▸ h.students
  student := h'.students ▸ h.student
  same := h.same
  labs := h'.labs ▸ h.labs
  seq := h'.labs ▸ h.seq
  roster := h'.labMembers ▸ h.roster
  member := (Db.isMember_congr h'.labMembers _ _).trans h.member

theorem respects_provisionOn (placements : List Placement) (student : ProvisionStudent)
    (actor : Option String) : Respects SameRoster (provisionOn placements student actor) := by
  cases placements with
  | nil => exact .pure _
  | cons placement rest => exact .bind (memberWalk_roster.provisionMember _ _ _) fun _ => .pure _

/-- **What the form does**: it is refused, and at most adds a student, or it makes a student of
the roster the PI. -/
theorem ensurePiAccess_effect (labId : Nat) (input : StudentInput) (actor : Option String)
    (s : Controller) :
    SameLabs s ((ensurePiAccess labId input actor).after s) ∨
      ∃ studentId, PiEnsured labId studentId s ((ensurePiAccess labId input actor).after s) := by
  unfold ensurePiAccess Prog.after
  rw [Op.query, run_read_bind]
  cases hlab : s.db.labs.get labId with
  | none => exact .inl (refl_of SameLabs s)
  | some lab =>
      dsimp only
      rw [run_read_bind]
      split
      · exact .inl (refl_of SameLabs s)
      · obtain ⟨hsame, hrecord⟩ := findOrCreateStudent_keeps input s
        rcases hfind : (findOrCreateStudent input).run s with ⟨e | record, s₁⟩
        · rw [hfind] at hsame
          rw [run_bind_error hfind]
          exact .inl hsame
        · rw [hfind] at hsame hrecord
          rw [run_bind_ok hfind]
          split
          · exact .inl hsame
          · rename_i hpi
            have hr : record ∈ s₁.db.students.rows := hrecord record rfl
            obtain ⟨hmem, hid⟩ := Table.get_eq_some.mp hlab
            rw [Op.now, run_read_bind, run_bind_ok (Slot.update_run _ _ _ _ _)]
            refine .inr ⟨record.id, ?_⟩
            -- the lab and the student are there when the roster row is inserted
            generalize hT : (Slot.students.get s₁).update _ _ _ = T
            have hkeep : s₁.db.students.Keeps T := hT ▸ .of_update _ _ _ _
            have hstudent : ∃ r ∈ T.rows, r.id = record.id := hkeep.get ⟨record, hr, rfl⟩
            rw [updateLab, run_bind_ok (Slot.update_run _ _ _ _ _)]
            generalize hL : (Slot.labs.get (Slot.students.set s₁ T)).update _ _ _ = L
            have hrows : ∀ l', l' ∈ L.rows ↔ ∃ l ∈ s.db.labs.rows,
                (if l.id == labId then
                  { l with
                    piStudentId := some record.id, piName := trimmedOrNull s.host input.name
                    piEmail := normalizeEmail s.host input.email, updatedAt := s₁.now }
                else l) = l' := by
              intro l'
              rw [← hL, ← hsame.labs]
              exact Table.mem_update
            obtain ⟨new, R, henroll, hR, hnew, hmember⟩ := @enroll_run labId record.id
              (Slot.labs.set (Slot.students.set s₁ T) L)
              ⟨_, Table.get_eq_some.mpr ⟨(hrows _).mpr ⟨lab, hmem, rfl⟩, by
                split <;> exact hid⟩⟩
              (by
                obtain ⟨r, hr, hrid⟩ := hstudent
                exact ⟨r, Table.get_eq_some.mpr ⟨hr, hrid⟩⟩)
            rw [run_bind_ok henroll]
            refine @PiEnsured.sameRoster labId record.id s (Slot.labMembers.set
              (Slot.labs.set (Slot.students.set s₁ T) L) R) _ ?_ ?_
            · refine ⟨hsame.students.trans hkeep, hstudent, ?_, ?_, ?_, ⟨new, ?_, hnew⟩,
                Db.isMember_eq_true.mpr hmember⟩
              · intro l hl hlid sid hsid
                rw [s.db.labs.eq_of_id hl hmem (hlid.trans hid.symm)] at hsid
                rw [hsid] at hpi
                simpa using hpi
              · intro l' hl'
                obtain ⟨l, hl, rfl⟩ := (hrows l').mp hl'
                refine ⟨l, hl, ?_⟩
                split
                · rename_i heq
                  exact ⟨rfl, .inl ⟨beq_iff_eq.mp heq, rfl⟩⟩
                · rename_i hne
                  exact ⟨rfl, .inr ⟨fun h => hne (beq_iff_eq.mpr h), rfl⟩⟩
              · show L.seq = _
                rw [← hL]
                show s₁.db.labs.seq = _
                rw [hsame.labs]
              · exact hR.trans (congrArg (Table.rows · ++ new) hsame.labMembers)
            · refine Respects.bind (memberWalk_roster.audit _ _ _ _) (fun _ =>
                .bind (.read _) fun _ => respects_provisionOn _ _ _) _

/-! ## The PI is on the roster -/

/-- Rosters name students that are there, and the PI of a lab is on its roster. -/
structure Db.Enrolled (d : Db) : Prop where
  roster : d.RosterKeys
  pi : ∀ l ∈ d.labs.rows, ∀ sid, l.piStudentId = some sid → d.isMember l.id sid = true

/-- It depends on labs, students and rosters, of which students may be added. -/
theorem SameLabs.enrolled {s s' : Controller} (h : SameLabs s s') (hs : s.db.Enrolled) :
    s'.db.Enrolled where
  roster m hm := h.students.get (hs.roster m (h.labMembers ▸ hm))
  pi l hl sid hsid := by
    rw [Db.isMember_congr h.labMembers]
    exact hs.pi l (h.labs ▸ hl) sid hsid

theorem PiEnsured.enrolled {labId studentId : Nat} {s s' : Controller}
    (h : PiEnsured labId studentId s s') (hs : s.db.Enrolled) : s'.db.Enrolled := by
  obtain ⟨new, hroster, hnew⟩ := h.roster
  constructor
  · intro m hm
    rw [hroster] at hm
    rcases List.mem_append.mp hm with hm | hm
    · exact h.students.get (hs.roster m hm)
    · rw [(hnew m hm).2]
      exact h.student
  · intro l' hl' sid hsid
    obtain ⟨l, hl, hid, ⟨hlab, hpi⟩ | ⟨_, rfl⟩⟩ := h.labs l' hl'
    · rw [hid, hlab]
      rw [Option.some.inj (hsid.symm.trans hpi)]
      exact h.member
    · obtain ⟨m, hm, hml⟩ := Db.isMember_eq_true.mp (hs.pi l' hl sid hsid)
      exact Db.isMember_eq_true.mpr ⟨m, hroster ▸ List.mem_append_left _ hm, hml⟩

/-- The PI a plan names is on the roster once the plan is committed. -/
theorem Imported.newPi {labId : Nat} {plan : RosterPlan} {s s' : Controller}
    (hi : Imported labId plan s s') (hfits : plan.Fits s.db labId) {sid : Nat}
    (hsid : plan.newPi s'.db = some sid) : s'.db.isMember labId sid = true := by
  obtain ⟨r, hr, rfl⟩ := Option.map_eq_some_iff.mp hsid
  obtain ⟨name, hname, hfind⟩ := Option.bind_eq_some_iff.mp hr
  obtain ⟨hmem, hru⟩ := Db.studentByName_eq_some.mp hfind
  rcases hfits.pi name hname with hadd | ⟨r₀, hr₀, hname₀, hmember⟩
  · exact hi.added hmem (hru ▸ hadd)
  · obtain ⟨r', hr', hid, huser⟩ := hi.kept hr₀
    have heq : r' = r :=
      s'.db.students.eq_of_clash hr' hmem (.inl ((huser.trans hname₀).trans hru.symm))
    rw [← heq, hid]
    exact hi.stays hmember

theorem Imported.enrolled {labId : Nat} {plan : RosterPlan} {s s' : Controller}
    (hi : Imported labId plan s s') (hfits : plan.Fits s.db labId) (hs : s.db.Enrolled) :
    s'.db.Enrolled := by
  constructor
  · intro m hm
    obtain ⟨rows, new, hroster, hknown, _, hpairs⟩ := hi.roster
    rw [hroster] at hm
    rcases List.mem_append.mp hm with hm | hm
    · obtain ⟨r, hr, hid⟩ := hs.roster m hm
      obtain ⟨r', hr', hid', _⟩ := hi.kept hr
      exact ⟨r', hr', hid'.trans hid⟩
    · have hpair : (m.labId, m.studentId) ∈ rows.map fun r => (labId, r.id) :=
        hpairs ▸ List.mem_map_of_mem hm
      obtain ⟨r, hr, heq⟩ := List.mem_map.mp hpair
      exact ⟨r, hknown r hr, (Prod.mk.inj heq).2⟩
  · intro l' hl' sid hsid
    rw [hi.labs] at hl'
    obtain ⟨l, hl, rfl⟩ := List.mem_map.mp hl'
    split at hsid
    · rename_i hlab
      have hlab : l.id = labId := beq_iff_eq.mp hlab
      rw [if_pos (beq_iff_eq.mpr hlab), RosterPlan.relabel_id]
      unfold RosterPlan.relabel at hsid
      cases hp : plan.piUpdate with
      | none =>
          rw [hp] at hsid
          exact hi.stays (hs.pi l hl sid hsid)
      | some pi =>
          rw [hp] at hsid
          dsimp only at hsid
          cases hnew : plan.newPi s'.db with
          | none =>
              rw [hnew] at hsid
              exact hi.stays (hs.pi l hl sid hsid)
          | some new =>
              rw [hnew] at hsid
              cases hsid
              rw [hlab]
              exact hi.newPi hfits hnew
    · rename_i hlab
      rw [if_neg hlab]
      exact hi.stays (hs.pi l hl sid hsid)

/-- A lab goes with its placements and its roster. -/
theorem deleteLabRow_run (labId : Nat) (s : Controller) : ∃ s',
    (deleteLabRow labId).run s = (.ok (), s') ∧
      s'.db.labs = s.db.labs.delete (fun l => l.id == labId) ∧
      s'.db.labMembers = s.db.labMembers.delete (fun m => m.labId == labId) ∧
      s'.db.students = s.db.students ∧
      s'.db.labPlacements = s.db.labPlacements.delete (fun p => p.labId == labId) ∧
      s'.issued = s.issued :=
  ⟨_, rfl, rfl, rfl, rfl, rfl, rfl⟩

/-- A student goes with the memberships, unless a lab has it as PI. -/
theorem deleteStudentRow_run (studentId : Nat) (s : Controller) :
    ((s.db.labs.rows.any fun l => l.piStudentId == some studentId) = true ∧
      (deleteStudentRow studentId).run s =
        (.error (.sqliteError "FOREIGN KEY constraint failed"), s)) ∨
    ((∀ l ∈ s.db.labs.rows, l.piStudentId ≠ some studentId) ∧
      ∃ s', (deleteStudentRow studentId).run s = (.ok (), s') ∧
        s'.db.labs = s.db.labs ∧
        s'.db.labMembers = s.db.labMembers.delete (fun m => m.studentId == studentId) ∧
        s'.db.students = s.db.students.delete (fun r => r.id == studentId) ∧
        s'.db.labPlacements = s.db.labPlacements ∧ s'.issued = s.issued) := by
  unfold deleteStudentRow
  rw [Op.query, run_read_bind]
  cases hpi : s.db.labs.rows.any fun l => l.piStudentId == some studentId with
  | true => exact .inl ⟨rfl, rfl⟩
  | false =>
      refine .inr ⟨fun l hl heq => ?_, _, rfl, rfl, rfl, rfl, rfl, rfl⟩
      have := List.any_eq_false.mp hpi l hl
      simp [heq] at this

/-- Rosters and PIs are carried through the controller. -/
theorem enrolledWalk : LabWalk (Keeping fun s : Controller => s.db.Enrolled) where
  toMemberWalk := memberWalk_of_rows
    (fun _ _ h => SameLabs.enrolled ⟨h.labs, h.students ▸ .refl _, h.labMembers⟩)
    fun _ _ _ _ s => SameLabs.enrolled ⟨rfl, .refl _, rfl⟩
  anyLists := lists_of_rows
    fun _ _ h => SameLabs.enrolled ⟨h.labs, h.students ▸ .refl _, h.labMembers⟩
  nodes _ _ := SameLabs.enrolled ⟨rfl, .refl _, rfl⟩
  labPlacements _ _ := SameLabs.enrolled ⟨rfl, .refl _, rfl⟩
  deleteTasks _ _ := SameLabs.enrolled ⟨rfl, .refl _, rfl⟩
  updateLab labId f h hpi s hs := by
    refine ⟨hs.roster, fun l' hl' sid hsid => ?_⟩
    obtain ⟨l, hl, rfl⟩ := (Table.mem_update (h := keeps_lab _ f h)).mp hl'
    show s.db.isMember _ sid = true
    split at hsid
    · rw [if_pos ‹_›, (h l).1]
      exact hs.pi l hl sid ((hpi l).symm.trans hsid)
    · rw [if_neg ‹_›]
      exact hs.pi l hl sid hsid
  insertLab mk hmk hnew s hs := by
    rcases Slot.labs.insert_cases mk hmk s with hrun | ⟨T, hrun, hrows, _⟩
    · rw [hrun]
      exact hs
    · rw [hrun]
      refine ⟨hs.roster, fun l hl sid hsid => ?_⟩
      have hl : l ∈ T.rows := hl
      rw [hrows] at hl
      rcases List.mem_append.mp hl with hl | hl
      · exact hs.pi l hl sid hsid
      · rw [List.mem_singleton.mp hl, (hnew _).2] at hsid
        cases hsid
  updateStudents p f h _ := SameLabs.enrolled ⟨rfl, .of_update _ p f h, rfl⟩
  tryUpdateStudents p f h := .exchange fun s a s' hup => by
    split at hup
    · cases hup
      exact SameLabs.enrolled ⟨rfl, .of_tryUpdate ‹_›, rfl⟩
    · cases hup
  insertStudentRow mk hmk := .exchange fun s a s' hins => by
    split at hins
    · cases hins
      exact SameLabs.enrolled ⟨rfl, .of_insert ‹_›, rfl⟩
    · cases hins
  insertLabMember labId studentId := by
    refine .read_bind fun s hs => ?_
    dsimp only [id]
    split
    · rename_i student _ hstudent
      rw [run_bind]
      rcases Slot.labMembers.insert_cases (fun i => { id := i, labId, studentId, createdAt := s.now })
        (fun _ => rfl) s with hrun | ⟨T, hrun, hrows, _⟩
      · rw [hrun]
        exact hs
      · rw [hrun]
        constructor
        · intro m hm
          have hm : m ∈ T.rows := hm
          rw [hrows] at hm
          rcases List.mem_append.mp hm with hm | hm
          · exact hs.roster m hm
          · rw [List.mem_singleton.mp hm]
            obtain ⟨hmem, hid⟩ := Table.get_eq_some.mp hstudent
            exact ⟨_, hmem, hid⟩
        · intro l hl sid hsid
          obtain ⟨m, hm, hml⟩ := Db.isMember_eq_true.mp (hs.pi l hl sid hsid)
          refine Db.isMember_eq_true.mpr ⟨m, ?_, hml⟩
          show m ∈ T.rows
          rw [hrows]
          exact List.mem_append_left _ hm
    · exact hs
  deleteLabRow labId s hs := by
    obtain ⟨s', hrun, hlabs, hroster, hstudents, _⟩ := deleteLabRow_run labId s
    rw [hrun]
    constructor
    · intro m hm
      rw [hroster] at hm
      rw [hstudents]
      exact hs.roster m (Table.mem_delete.mp hm).1
    · intro l hl sid hsid
      rw [hlabs] at hl
      obtain ⟨hl, hne⟩ := Table.mem_delete.mp hl
      obtain ⟨m, hm, hml, hms⟩ := Db.isMember_eq_true.mp (hs.pi l hl sid hsid)
      refine Db.isMember_eq_true.mpr ⟨m, ?_, hml, hms⟩
      rw [hroster]
      exact Table.mem_delete.mpr ⟨hm, by rw [hml]; exact hne⟩
  deleteStudentRow studentId s hs := by
    rcases deleteStudentRow_run studentId s with ⟨_, hrun⟩ |
      ⟨hpi, s', hrun, hlabs, hroster, hstudents, _⟩
    · rw [hrun]
      exact hs
    · rw [hrun]
      constructor
      · intro m hm
        rw [hroster] at hm
        obtain ⟨hm, hne⟩ := Table.mem_delete.mp hm
        obtain ⟨r, hr, hid⟩ := hs.roster m hm
        rw [hstudents]
        exact ⟨r, Table.mem_delete.mpr ⟨hr, by rw [hid]; exact hne⟩, hid⟩
      · intro l hl sid hsid
        rw [hlabs] at hl
        obtain ⟨m, hm, hml, hms⟩ := Db.isMember_eq_true.mp (hs.pi l hl sid hsid)
        refine Db.isMember_eq_true.mpr ⟨m, ?_, hml, hms⟩
        rw [hroster]
        refine Table.mem_delete.mpr ⟨hm, ?_⟩
        -- the student is no PI
        have hne : sid ≠ studentId := fun heq => hpi l hl (heq ▸ hsid)
        simpa [hms] using hne

/-- The removal of a student refuses to take the PI off. -/
theorem enrolled_removeStudentFromLab (labId studentId : Nat) (deleteData : Bool)
    (actor : Option String) : Respects (Keeping fun s : Controller => s.db.Enrolled)
      (removeStudentFromLab labId studentId deleteData actor) := by
  intro s hs
  by_cases hpi : ∀ l ∈ s.db.labs.rows, l.id = labId → l.piStudentId ≠ some studentId
  · have hmember : MemberWalk (Keeping fun s : Controller => s.db.Enrolled ∧
        ∀ l ∈ s.db.labs.rows, l.id = labId → l.piStudentId ≠ some studentId) :=
      memberWalk_of_rows
        (fun s s' h hs => ⟨SameLabs.enrolled ⟨h.labs, h.students ▸ .refl _, h.labMembers⟩ hs.1,
          h.labs ▸ hs.2⟩)
        fun _ _ _ _ _ hs => ⟨⟨hs.1.roster, hs.1.pi⟩, hs.2⟩
    refine (hmember.removeStudentFromLab labId studentId deleteData actor (fun s hs => ?_) s
      ⟨hs, hpi⟩).1
    obtain ⟨hs, hpi⟩ := hs
    refine ⟨⟨fun m hm => hs.roster m (Table.mem_delete.mp hm).1, fun l hl sid hsid => ?_⟩, hpi⟩
    obtain ⟨m, hm, hml, hms⟩ := Db.isMember_eq_true.mp (hs.pi l hl sid hsid)
    refine Db.isMember_eq_true.mpr ⟨m, Table.mem_delete.mpr ⟨hm, ?_⟩, hml, hms⟩
    have hne : ¬ (m.labId = labId ∧ m.studentId = studentId) := by
      rintro ⟨hl', hs'⟩
      exact hpi l hl (hml.symm.trans hl') (hsid.trans (congrArg some (hms.symm.trans hs')))
    simpa using hne
  · push Not at hpi
    obtain ⟨lab, hl, hid, hlpi⟩ := hpi
    unfold removeStudentFromLab
    rw [Op.query, run_read_bind, Table.get_eq_some.mpr ⟨hl, hid⟩]
    dsimp only
    rw [if_pos hlpi]
    exact hs

/-- What a call does up to its first `await` is what it does to labs, students and rosters. -/
theorem start_sameRoster (x : Op Thread) (s : Controller) :
    SameRoster (x.after s) ((start x).after s) := by
  unfold start Prog.after
  rw [run_bind]
  rcases x.run s with ⟨e | waiting, s'⟩
  · exact refl_of SameRoster s'
  · show SameRoster s' ((suspend waiting).run s').2
    unfold suspend
    split
    · exact refl_of SameRoster s'
    · exact ⟨rfl, rfl, rfl⟩

/-- **Every act leaves the PIs on the rosters.** -/
theorem enrolled_step {s : Controller} (hs : s.db.Enrolled) (a : Act) : (step s a).db.Enrolled := by
  by_cases ha : a.Designates
  · cases a with
    | ensurePiAccess labId input actor =>
        refine (start_sameRoster _ s).sameLabs.enrolled ?_
        rcases ensurePiAccess_effect labId input actor s with h | ⟨studentId, h⟩
        · exact h.enrolled hs
        · exact h.enrolled hs
    | applyRosterImport labId text actor =>
        refine (start_sameRoster _ s).sameLabs.enrolled ?_
        unfold Prog.after
        rcases applyRosterImport_run labId text actor hs.roster with ⟨e, h⟩ |
          ⟨hok, _, rest, s₁, hi, h, hsame, _⟩
        · rw [h]
          exact hs
        · rw [h]
          exact (hsame s₁).sameLabs.enrolled (hi.enrolled (planRosterImport_fits hok) hs)
    | _ => exact ha.elim
  · refine enrolledWalk.act ha (fun labId studentId deleteData actor heq => ?_) s hs
    rw [heq]
    exact enrolled_removeStudentFromLab _ _ _ _

theorem enrolled_init (host : Host) : (Controller.init host).db.Enrolled :=
  ⟨fun _ hm => absurd hm List.not_mem_nil, fun _ hl => absurd hl List.not_mem_nil⟩

/-- **In every state a run reaches, the PI of a lab is on its roster.** -/
theorem enrolled_run (host : Host) (acts : List Act) :
    (Run.run step (.init host) acts).db.Enrolled :=
  Run.invariant_all (I := fun s : Controller => s.db.Enrolled) (fun _ a h => enrolled_step h a)
    (enrolled_init host)

/-! ## The PI stays -/

/-- The lab has been there, and if it still is, the student is its PI. -/
def PiOf (labId studentId : Nat) (s : Controller) : Prop :=
  labId ≤ s.db.labs.seq ∧ ∀ l ∈ s.db.labs.rows, l.id = labId → l.piStudentId = some studentId

theorem SameLabs.piOf {s s' : Controller} (h : SameLabs s s') {labId studentId : Nat}
    (hs : PiOf labId studentId s) : PiOf labId studentId s' := by
  unfold PiOf
  rw [h.labs]
  exact hs

/-- The form does not replace a PI. -/
theorem PiEnsured.piOf {labId labId' studentId studentId' : Nat} {s s' : Controller}
    (h : PiEnsured labId' studentId' s s') (hs : PiOf labId studentId s) :
    PiOf labId studentId s' := by
  refine ⟨h.seq ▸ hs.1, fun l' hl' hid' => ?_⟩
  obtain ⟨l, hl, hid, ⟨hlab, hpi⟩ | ⟨_, rfl⟩⟩ := h.labs l' hl'
  · rw [hpi, ← h.same l hl hlab studentId (hs.2 l hl (hid.symm.trans hid'))]
  · exact hs.2 l' hl hid'

/-- The import goes through, and names a PI the lab does not have: the act that replaces a PI. -/
def Act.Replaces (s : Controller) : Act → Prop
  | .applyRosterImport labId text _ =>
    (planRosterImport s.host s.db labId text).ok = true ∧
      (planRosterImport s.host s.db labId text).studentsToCreate.length ≤ s.db.freeUids.length ∧
      ∃ lab ∈ s.db.labs.rows, lab.id = labId ∧ ∃ sid name, lab.piStudentId = some sid ∧
        (piRows (fileRows s.host text)).username = some name ∧
        ∀ r ∈ s.db.students.rows, r.id = sid → r.username ≠ name
  | _ => False

/-- A plan has no PI for a lab whose PI the file names. -/
theorem planRows_newPi {d : Db} (d' : Db) {lab : LabRow} {valid : List ValidRow} {studentId : Nat}
    (hpi : lab.piStudentId = some studentId)
    (hsame : ∀ name, (piRows valid).username = some name →
      ∃ r ∈ d.students.rows, r.id = studentId ∧ r.username = name) :
    (planRows d lab valid []).newPi d' = none := by
  have hname : changed (piRows valid).username
      ((lab.piStudentId.bind d.students.get).map StudentRow.username) = none := by
    cases hu : (piRows valid).username with
    | none => rfl
    | some name =>
        obtain ⟨r, hr, hid, rfl⟩ := hsame name hu
        have hget : d.students.get studentId = some r := Table.get_eq_some.mpr ⟨hr, hid⟩
        rw [hpi, Option.bind_some, hget]
        exact changed_self _
  have hupdate : (planRows d lab valid []).piUpdate.bind PiUpdate.piUsername = none := by
    show (piUpdate d lab (piRows valid)).bind PiUpdate.piUsername = none
    unfold piUpdate
    dsimp only
    split
    · exact hname
    · rfl
  unfold RosterPlan.newPi
  rw [hupdate]
  rfl

/-- An import replaces the PI only where the file names another. -/
theorem Imported.piOf {labId labId' studentId : Nat} {s s' : Controller} {lab : LabRow}
    {valid : List ValidRow} (hi : Imported labId' (planRows s.db lab valid []).toRosterPlan s s')
    (hlab : s.db.labs.get labId' = some lab)
    (hsame : ∀ sid name, lab.piStudentId = some sid → (piRows valid).username = some name →
      ∃ r ∈ s.db.students.rows, r.id = sid ∧ r.username = name)
    (hs : ∀ l ∈ s.db.labs.rows, l.id = labId → l.piStudentId = some studentId) :
    ∀ l ∈ s'.db.labs.rows, l.id = labId → l.piStudentId = some studentId := by
  intro l' hl' hid'
  rw [hi.labs] at hl'
  obtain ⟨l, hl, rfl⟩ := List.mem_map.mp hl'
  split at hid'
  · rename_i heq
    rw [RosterPlan.relabel_id] at hid'
    rw [if_pos heq]
    have hpi := hs l hl hid'
    obtain ⟨hmem, hid⟩ := Table.get_eq_some.mp hlab
    have hll : l = lab := s.db.labs.eq_of_id hl hmem ((beq_iff_eq.mp heq).trans hid.symm)
    have hnone := planRows_newPi s'.db (hll ▸ hpi) fun name => hsame _ name (hll ▸ hpi)
    rw [hnone]
    unfold RosterPlan.relabel
    split
    · exact hpi
    · exact hpi
  · rename_i hne
    rw [if_neg hne]
    exact hs l hl hid'

/-- The PI of one lab is carried through the controller. -/
theorem piWalk (labId studentId : Nat) : LabWalk (Keeping (PiOf labId studentId)) where
  toMemberWalk := memberWalk_of_rows
    (fun _ _ h => SameLabs.piOf ⟨h.labs, h.students ▸ .refl _, h.labMembers⟩)
    fun _ _ _ _ _ => SameLabs.piOf ⟨rfl, .refl _, rfl⟩
  anyLists := lists_of_rows
    fun _ _ h => SameLabs.piOf ⟨h.labs, h.students ▸ .refl _, h.labMembers⟩
  nodes _ _ := SameLabs.piOf ⟨rfl, .refl _, rfl⟩
  labPlacements _ _ := SameLabs.piOf ⟨rfl, .refl _, rfl⟩
  deleteTasks _ _ := SameLabs.piOf ⟨rfl, .refl _, rfl⟩
  updateLab id f h hpi s hs := by
    refine ⟨hs.1, fun l' hl' hid => ?_⟩
    obtain ⟨l, hl, rfl⟩ := (Table.mem_update (h := keeps_lab _ f h)).mp hl'
    split
    · rw [if_pos ‹_›, (h l).1] at hid
      exact (hpi l).trans (hs.2 l hl hid)
    · rw [if_neg ‹_›] at hid
      exact hs.2 l hl hid
  insertLab mk hmk _ s hs := by
    rcases Slot.labs.insert_cases mk hmk s with hrun | ⟨T, hrun, hrows, hseq⟩
    · rw [hrun]
      exact hs
    · rw [hrun]
      have hle : labId < T.seq := by
        rw [hseq]
        exact Nat.lt_succ_of_le hs.1
      refine ⟨hle.le, fun l hl hid => ?_⟩
      have hl : l ∈ T.rows := hl
      rw [hrows] at hl
      rcases List.mem_append.mp hl with hl | hl
      · exact hs.2 l hl hid
      · -- a new lab has a new id
        rw [List.mem_singleton.mp hl] at hid
        exact absurd (hid.symm.trans (hmk T.seq)) hle.ne
  updateStudents := respects_update fun _ _ hs => hs
  tryUpdateStudents := respects_tryUpdate fun _ _ hs => hs
  insertStudentRow := respects_insert fun _ _ hs => hs
  insertLabMember := respects_insertLabMember (respects_insert fun _ _ hs => hs)
  deleteLabRow id s hs := by
    obtain ⟨s', hrun, hlabs, _⟩ := deleteLabRow_run id s
    rw [hrun]
    show PiOf labId studentId s'
    unfold PiOf
    rw [hlabs]
    exact ⟨hs.1, fun l hl => hs.2 l (Table.mem_delete.mp hl).1⟩
  deleteStudentRow id s hs := by
    rcases deleteStudentRow_run id s with ⟨_, hrun⟩ | ⟨_, s', hrun, hlabs, _⟩
    · rw [hrun]
      exact hs
    · rw [hrun]
      show PiOf labId studentId s'
      unfold PiOf
      rw [hlabs]
      exact hs

/-- **Every act but an import that names another leaves the PI of a lab.** -/
theorem piOf_step {labId studentId : Nat} {s : Controller} (hkeys : s.db.Enrolled) {a : Act}
    (ha : ¬ a.Replaces s) (hs : PiOf labId studentId s) : PiOf labId studentId (step s a) := by
  by_cases hdes : a.Designates
  · cases a with
    | ensurePiAccess labId' input actor =>
        refine (start_sameRoster _ s).sameLabs.piOf ?_
        rcases ensurePiAccess_effect labId' input actor s with h | ⟨_, h⟩
        · exact h.piOf hs
        · exact h.piOf hs
    | applyRosterImport labId' text actor =>
        refine (start_sameRoster _ s).sameLabs.piOf ?_
        have hev := (applyRosterImport labId' text actor).keeps s
        unfold Prog.after
        rcases applyRosterImport_run labId' text actor hkeys.roster with ⟨e, h⟩ |
          ⟨hok, hle, rest, s₁, hi, h, hsame, _⟩
        · rw [h]
          exact hs
        · rw [h] at hev ⊢
          obtain ⟨lab, hlab, hplan, _⟩ := planRosterImport_ok hok
          obtain ⟨hmem, hid⟩ := Table.get_eq_some.mp hlab
          refine ⟨hs.1.trans hev.labs.seq, ?_⟩
          rw [(hsame s₁).labs]
          rw [hplan] at hi
          refine hi.piOf hlab (fun sid name hsid hname => ?_) hs.2
          by_contra hother
          push Not at hother
          exact ha ⟨hok, hle, lab, hmem, hid, sid, name, hsid, hname, hother⟩
    | _ => exact hdes.elim
  · refine (piWalk labId studentId).act hdes (fun labId' sid deleteData actor heq => ?_) s hs
    rw [heq]
    exact (piWalk labId studentId).toMemberWalk.removeStudentFromLab _ _ _ _ fun _ hs => hs

/-- **The PI of a lab is on its roster, and stays.** In every run, a lab's PI is a student of
its roster; and along a run in which no import names another PI, a lab that has a PI keeps
it. -/
theorem pi_invariant (host : Host) (before after : List Act)
    (h : Run.Along step (fun s a => ¬ a.Replaces s) (.init host) (before ++ after)) :
    (∀ l ∈ (Run.run step (.init host) before).db.labs.rows, ∀ sid, l.piStudentId = some sid →
      (Run.run step (.init host) before).db.isMember l.id sid = true ∧
        ∃ r ∈ (Run.run step (.init host) before).db.students.rows, r.id = sid) ∧
    ∀ l ∈ (Run.run step (.init host) before).db.labs.rows,
      ∀ l' ∈ (Run.run step (.init host) (before ++ after)).db.labs.rows, l'.id = l.id →
        ∀ sid, l.piStudentId = some sid → l'.piStudentId = some sid := by
  have hbefore := enrolled_run host before
  constructor
  · intro l hl sid hsid
    have hmember := hbefore.pi l hl sid hsid
    obtain ⟨m, hm, _, hms⟩ := Db.isMember_eq_true.mp hmember
    obtain ⟨r, hr, hid⟩ := hbefore.roster m hm
    exact ⟨hmember, r, hr, hid.trans hms⟩
  · intro l hl l' hl' hid sid hsid
    rw [Run.run_append] at hl'
    have hafter := (Run.along_append.mp h).2
    have hpi : PiOf l.id sid (Run.run step (.init host) before) := by
      refine ⟨Table.bounded _ l hl, fun x hx hxid => ?_⟩
      rw [Table.eq_of_id _ hx hl hxid]
      exact hsid
    have hend := Run.invariant
      (I := fun s : Controller => s.db.Enrolled ∧ PiOf l.id sid s)
      (fun s a hs ha => ⟨enrolled_step hs.1 a, piOf_step hs.1 ha hs.2⟩) ⟨hbefore, hpi⟩ hafter
    exact hend.2.2 l' hl' hid

/-- A lab whose PI the form designated. -/
def formPi : List Act :=
  [.createLab "lab" none none none, .ensurePiAccess 1 { username := "alice" } none]

/-- The PI is on the roster, and stays while another student is added. -/
theorem pi_invariant_alice :
    (∀ l ∈ (Run.run step (.init .plain) formPi).db.labs.rows, ∀ sid, l.piStudentId = some sid →
      (Run.run step (.init .plain) formPi).db.isMember l.id sid = true ∧
        ∃ r ∈ (Run.run step (.init .plain) formPi).db.students.rows, r.id = sid) ∧
    ∀ l ∈ (Run.run step (.init .plain) formPi).db.labs.rows,
      ∀ l' ∈ (Run.run step (.init .plain)
        (formPi ++ [.addStudentToLab 1 { username := "bob" } none])).db.labs.rows,
        l'.id = l.id → ∀ sid, l.piStudentId = some sid → l'.piStudentId = some sid :=
  pi_invariant .plain formPi [.addStudentToLab 1 { username := "bob" } none] ⟨id, id, id, trivial⟩

/-- **The import replaces a PI**: the file has a `pi` row for another student. -/
theorem import_replaces_pi :
    ∃ l ∈ (Run.run step (.init .plain) formPi).db.labs.rows,
      ∃ l' ∈ (Run.run step (.init .plain) (formPi ++
        [.applyRosterImport 1 "role,username,email\npi,bob,b@c.d" none])).db.labs.rows,
        l'.id = l.id ∧ l.piStudentId = some 1 ∧ l'.piStudentId = some 2 := by
  decide +kernel

end MassDeployment
