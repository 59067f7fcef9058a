import MassDeployment.Controller.ImportCommit
import Mathlib.Data.List.Nodup

set_option autoImplicit false

/-! # Importing a roster twice

After an import has completed, its text says nothing that the database does not say already:
planned again, it is `ok` and asks for nothing. The merged rows of the text are the same both
times; each student they name is stored with what they say, and is on the roster.
-/

namespace MassDeployment

open Js Prog

/-! ## What is stored -/

theorem changed_self (value : Option String) : changed value value = none := by
  cases value with
  | none => rfl
  | some v => simp [changed]

/-- A value that was stored because it differed does not differ any more. -/
theorem changed_stored (value stored : Option String) :
    changed value ((changed value stored).orElse fun _ => stored) = none := by
  cases value with
  | none => rfl
  | some v =>
      by_cases h : stored = some v
      · rw [h, changed_self]
        exact changed_self _
      · have hnew : changed (some v) stored = some v := by simp [changed, h]
        rw [hnew]
        exact changed_self _

/-- Two names that are stored alike differ alike from the file. -/
theorem changed_none {value stored stored' : Option String} (h : changed value stored = none)
    (hsame : ∀ v, stored = some v → stored' = some v) : changed value stored' = none := by
  cases value with
  | none => rfl
  | some v =>
      have hv : stored = some v := by
        by_contra hne
        simp [changed, hne] at h
      rw [hsame v hv]
      exact changed_self _

/-- The row of a student says what the file says. -/
structure BatchStudent.Stored (user : String) (info : BatchStudent) (r : StudentRow) : Prop where
  username : r.username = user
  sid : ∀ sid, info.sid = some sid → r.studentId = some sid
  name : changed info.name r.name = none
  email : changed info.email r.email = none

/-- A student that is stored is neither changed nor in conflict. -/
theorem BatchStudent.Stored.resolve {d : Db} {user : String} {info : BatchStudent} {r : StudentRow}
    (h : info.Stored user r) (hr : r ∈ d.students.rows) (hfilled : Filled info.sid) :
    resolve d user info = .unchanged := by
  have hres : Resolved d user info (info.compare user r) := by
    refine .existing r hr h.username (fun sid hs r' hr' hrs => ?_) fun sid hs _ => h.sid sid hs
    refine d.students.eq_of_clash hr' hr (.inr (.inr ⟨hrs.trans (h.sid sid hs).symm, ?_⟩))
    rw [hrs]
    nofun
  have hmissing : info.missingSid r = none := by
    unfold missingSid
    cases hs : info.sid with
    | none => split <;> rfl
    | some sid =>
        rw [h.sid sid hs]
        simp [hfilled sid hs]
  rw [resolved_resolve hfilled hres]
  exact info.compare_unchanged h.name h.email hmissing

/-! ## After the transaction -/

/-- A student that was there has kept key and name. -/
theorem Imported.kept {labId : Nat} {plan : RosterPlan} {s s' : Controller}
    (hi : Imported labId plan s s') {r : StudentRow} (hr : r ∈ s.db.students.rows) :
    ∃ r' ∈ s'.db.students.rows, r'.id = r.id ∧ r'.username = r.username := by
  obtain ⟨created, hrows, _, _⟩ := hi.students
  obtain ⟨hid, hname, _⟩ := applyUpdates_same s.now plan.studentsToUpdate r
  exact ⟨_, hrows ▸ List.mem_append_left _ (List.mem_map_of_mem hr), hid, hname⟩

/-- Whoever was on a roster still is. -/
theorem Imported.stays {labId : Nat} {plan : RosterPlan} {s s' : Controller}
    (hi : Imported labId plan s s') {labId' studentId : Nat}
    (h : s.db.isMember labId' studentId = true) : s'.db.isMember labId' studentId = true := by
  obtain ⟨_, new, hroster, _⟩ := hi.roster
  obtain ⟨m, hm, hml⟩ := Db.isMember_eq_true.mp h
  exact Db.isMember_eq_true.mpr ⟨m, hroster ▸ List.mem_append_left _ hm, hml⟩

/-- Whoever the plan adds to the roster is on it. -/
theorem Imported.added {labId : Nat} {plan : RosterPlan} {s s' : Controller}
    (hi : Imported labId plan s s') {r : StudentRow} (hr : r ∈ s'.db.students.rows)
    (hadd : r.username ∈ plan.membershipsToAdd) : s'.db.isMember labId r.id = true := by
  obtain ⟨rows, new, hroster, hknown, hnames, hpairs⟩ := hi.roster
  have hadd : r.username ∈ rows.map StudentRow.username := hnames ▸ hadd
  obtain ⟨r', hr', hname⟩ := List.mem_map.mp hadd
  have heq : r' = r := s'.db.students.eq_of_clash (hknown r' hr') hr (.inl hname)
  have hpair : (labId, r'.id) ∈ new.map fun m => (m.labId, m.studentId) :=
    hpairs ▸ List.mem_map_of_mem hr'
  obtain ⟨m, hm, hmp⟩ := List.mem_map.mp hpair
  refine Db.isMember_eq_true.mpr ⟨m, hroster ▸ List.mem_append_right _ hm, ?_⟩
  rw [← heq]
  exact Prod.mk.inj hmp

section

variable {s s' : Controller} {lab : LabRow} {valid : List ValidRow}
  (hc : Committable s.db lab valid) (hchecked : ∀ r ∈ valid, r.Checked)
  (hi : Imported lab.id (planRows s.db lab valid []).toRosterPlan s s')

include hc hchecked hi

/-- **Every student of the file is stored.** -/
theorem Imported.stored {user : String} {info : BatchStudent}
    (he : (user, info) ∈ (batchOf valid).1) :
    ∃ r ∈ s'.db.students.rows, info.Stored user r := by
  obtain ⟨created, hrows, hcreated, _⟩ := hi.students
  have hmem : resolve s.db user info ∈ (batchOf valid).1.map fun e => resolve s.db e.1 e.2 :=
    List.mem_map.mpr ⟨(user, info), he, rfl⟩
  have hres := hc.at hchecked he
  generalize hx : resolve s.db user info = res at hres hmem
  cases hres with
  | create _ _ =>
      have hnew : ({ username := user, studentId := info.sid, name := info.name,
                     email := info.email } : StudentCreate) ∈
          (planRows s.db lab valid []).studentsToCreate :=
        List.mem_filterMap.mpr ⟨_, hmem, rfl⟩
      rw [← hcreated] at hnew
      obtain ⟨r, hr, heq⟩ := List.mem_map.mp hnew
      have heq : r.asCreate = _ := heq
      refine ⟨r, hrows ▸ List.mem_append_right _ hr, ?_⟩
      injection heq with husername hsid hname hemail
      refine ⟨husername, fun sid hs => hsid.trans hs, ?_, ?_⟩
      · rw [hname]
        exact changed_self _
      · rw [hemail]
        exact changed_self _
  | existing r hr hname _ hsame =>
      refine ⟨applyUpdates s.now (planRows s.db lab valid []).studentsToUpdate r,
        hrows ▸ List.mem_append_left _ (List.mem_map_of_mem hr), ?_⟩
      obtain ⟨_, hupdated, _⟩ := @planRows_nodup s.db lab _ hchecked
      rcases info.compare_cases user r with hupdate | ⟨hsame', hn, hem, hsid⟩
      · rw [hupdate] at hmem
        have hu : _ ∈ (planRows s.db lab valid []).studentsToUpdate :=
          List.mem_filterMap.mpr ⟨_, hmem, rfl⟩
        rw [applyUpdates_of_mem hu hupdated hname, StudentUpdate.apply,
          if_pos (beq_iff_eq.mpr hname)]
        refine ⟨hname, fun sid hs => ?_, changed_stored _ _, changed_stored _ _⟩
        dsimp only [BatchStudent.missingSid]
        split
        · exact hsame sid hs ‹_›
        · rw [hs]
          rfl
      · rw [applyUpdates_of_not_mem]
        · refine ⟨hname, fun sid hs => ?_, hn, hem⟩
          unfold BatchStudent.missingSid at hsid
          split at hsid
          · exact hsame sid hs ‹_›
          · cases hs.symm.trans hsid
        · -- the only update of that name would be this student's
          intro hmem'
          obtain ⟨u, hu, huser⟩ := List.mem_map.mp hmem'
          obtain ⟨info', he', r', hr', hname', hcompare, _⟩ := hc.mem_updates hchecked hu
          have hrr : r' = r :=
            s.db.students.eq_of_clash hr' hr (.inl (hname'.trans huser))
          have hinfo : info' = info := by
            have hkeys := (batchOf_checked hchecked).nodup
            rw [huser, hname] at he'
            exact (Prod.mk.inj (List.inj_on_of_nodup_map hkeys he' he rfl)).2
          rw [hrr, hinfo, huser, hname, hsame'] at hcompare
          cases hcompare

/-- **Every student of the file is on the roster.** -/
theorem Imported.member {user : String} {info : BatchStudent}
    (he : (user, info) ∈ (batchOf valid).1) {r : StudentRow} (hr : r ∈ s'.db.students.rows)
    (hname : r.username = user) : s'.db.isMember lab.id r.id = true := by
  by_cases hadd : user ∈ (planRows s.db lab valid []).membershipsToAdd
  · exact hi.added hr (hname ▸ hadd)
  · -- the plan leaves out who is on the roster
    have hany : ((s.db.studentByName user).orElse fun _ => s.db.studentBySid info.sid).any
        (fun x => s.db.isMember lab.id x.id) = true := by
      by_contra hnot
      refine hadd (List.mem_map.mpr ⟨(user, info), List.mem_filter.mpr ⟨he, ?_⟩, rfl⟩)
      simpa using hnot
    rw [hc.byName hchecked he] at hany
    obtain ⟨x, hx, hmember⟩ := Option.any_eq_true _ _ |>.mp hany
    obtain ⟨hxr, hxu⟩ := Db.studentByName_eq_some.mp hx
    obtain ⟨x', hx', hid, huser⟩ := hi.kept hxr
    have heq : x' = r :=
      s'.db.students.eq_of_clash hx' hr (.inl ((huser.trans hxu).trans hname.symm))
    rw [← heq, hid]
    exact hi.stays hmember

omit hc hchecked in
/-- The lab of the plan, as the import leaves it. -/
theorem Imported.getLab (hlab : s.db.labs.get lab.id = some lab) :
    s'.db.labs.get lab.id = some
      ((planRows s.db lab valid []).relabel s.now ((planRows s.db lab valid []).newPi s'.db) lab) := by
  obtain ⟨hmem, _⟩ := Table.get_eq_some.mp hlab
  refine Table.get_eq_some.mpr ⟨?_, RosterPlan.relabel_id _ _ _ _⟩
  rw [hi.labs]
  exact List.mem_map.mpr ⟨lab, hmem, if_pos (beq_self_eq_true _)⟩

/-- **The `pi` rows say what the lab says.** -/
theorem Imported.piUpdate :
    piUpdate s'.db ((planRows s.db lab valid []).relabel s.now
      ((planRows s.db lab valid []).newPi s'.db) lab) (piRows valid) = none := by
  -- the PI that is kept has kept the name
  have hkept : ∀ value, changed value
      ((lab.piStudentId.bind s.db.students.get).map StudentRow.username) = none →
      changed value ((lab.piStudentId.bind s'.db.students.get).map StudentRow.username) = none := by
    intro value h
    refine changed_none h fun v hv => ?_
    obtain ⟨r, hr, rfl⟩ := Option.map_eq_some_iff.mp hv
    obtain ⟨sid, hsid, hget⟩ := Option.bind_eq_some_iff.mp hr
    obtain ⟨hmem, hid⟩ := Table.get_eq_some.mp hget
    obtain ⟨r', hr', hid', hname⟩ := hi.kept hmem
    rw [hsid, Option.bind_some, Table.get_eq_some.mpr ⟨hr', hid'.trans hid⟩]
    exact congrArg some hname
  have hplan : (planRows s.db lab valid []).piUpdate =
    MassDeployment.piUpdate s.db lab (piRows valid) := rfl
  have hnewPi : (planRows s.db lab valid []).newPi s'.db =
    (((MassDeployment.piUpdate s.db lab (piRows valid)).bind PiUpdate.piUsername).bind
      s'.db.studentByName).map StudentRow.id := rfl
  rw [hnewPi]
  unfold RosterPlan.relabel
  rw [hplan]
  generalize hp : MassDeployment.piUpdate s.db lab (piRows valid) = p
  unfold MassDeployment.piUpdate at hp ⊢
  dsimp only at hp ⊢
  split at hp
  · subst hp
    have hname : changed (piRows valid).username
        (((((changed (piRows valid).username
            ((lab.piStudentId.bind s.db.students.get).map StudentRow.username)).bind
          s'.db.studentByName).map StudentRow.id).orElse fun _ => lab.piStudentId).bind
            s'.db.students.get |>.map StudentRow.username) = none := by
      cases hch : changed (piRows valid).username
          ((lab.piStudentId.bind s.db.students.get).map StudentRow.username) with
      | none => exact hkept _ hch
      | some name =>
          have hpi : (piRows valid).username = some name := (Option.filter_eq_some_iff.mp hch).1
          obtain ⟨row, hrow, rfl⟩ := (piRows_from valid).username name hpi
          obtain ⟨⟨user, info⟩, he, huser⟩ := List.mem_map.mp (mem_batchOf hrow)
          dsimp only at huser
          subst huser
          obtain ⟨r, hr, hstored⟩ := hi.stored hc hchecked he
          rw [Option.bind_some, Db.studentByName_eq_some.mpr ⟨hr, hstored.username⟩]
          have hget : s'.db.students.get r.id = some r := Table.get_eq_some.mpr ⟨hr, rfl⟩
          show changed _ ((s'.db.students.get r.id).map StudentRow.username) = none
          rw [hget, hpi]
          show changed _ (some r.username) = none
          rw [hstored.username]
          exact changed_self _
    refine if_neg ?_
    rintro (h | h | h)
    · rw [Option.bind_some, hname] at h
      cases h
    · dsimp only at h
      rw [changed_stored] at h
      cases h
    · dsimp only at h
      rw [changed_stored] at h
      cases h
  · rename_i hnone
    subst hp
    simp only [not_or, Option.not_isSome_iff_eq_none] at hnone
    refine if_neg ?_
    dsimp only
    rw [hkept _ hnone.1, hnone.2.1, hnone.2.2]
    simp

/-- **The text asks for nothing more.** -/
theorem Imported.planRows_again (hlab : s.db.labs.get lab.id = some lab) :
    ∃ lab', s'.db.labs.get lab.id = some lab' ∧ Committable s'.db lab' valid ∧ (planRows s'.db lab' valid []).piUpdate = none ∧
      (planRows s'.db lab' valid []).studentsToCreate = [] ∧
      (planRows s'.db lab' valid []).studentsToUpdate = [] ∧
      (planRows s'.db lab' valid []).membershipsToAdd = [] := by
  have hunchanged : ∀ e ∈ (batchOf valid).1, resolve s'.db e.1 e.2 = .unchanged := by
    intro e he
    obtain ⟨r, hr, hstored⟩ := hi.stored hc hchecked he
    exact hstored.resolve hr ((batchOf_checked hchecked).entry e he).sid
  have hresolved : ∀ x ∈ (batchOf valid).1.map (fun e => resolve s'.db e.1 e.2),
      x = .unchanged := by
    intro x hx
    obtain ⟨e, he, rfl⟩ := List.mem_map.mp hx
    exact hunchanged e he
  refine ⟨_, hi.getLab hlab, ⟨hc.pi, hc.merged, hc.shared, fun e he => ?_⟩,
    hi.piUpdate hc hchecked, ?_, ?_, ?_⟩
  · rw [hunchanged e he]
    rfl
  · refine List.filterMap_eq_nil_iff.mpr fun x hx => ?_
    rw [hresolved x hx]
    rfl
  · refine List.filterMap_eq_nil_iff.mpr fun x hx => ?_
    rw [hresolved x hx]
    rfl
  · refine List.map_eq_nil_iff.mpr (List.filter_eq_nil_iff.mpr fun e he => ?_)
    obtain ⟨user, info⟩ := e
    obtain ⟨r, hr, hstored⟩ := hi.stored hc hchecked he
    have hmember := hi.member hc hchecked he hr hstored.username
    dsimp only
    rw [Db.studentByName_eq_some.mpr ⟨hr, hstored.username⟩, RosterPlan.relabel_id]
    simp [hmember]

end

/-- A plan depends on students and rosters. -/
theorem planRows_congr {d d' : Db} (hstudents : d'.students = d.students)
    (hroster : d'.labMembers = d.labMembers) {lab : LabRow} {valid : List ValidRow}
    {invalid : List ImportIssue} : planRows d' lab valid invalid = planRows d lab valid invalid := by
  have hsid : d'.studentBySid = d.studentBySid := by
    funext sid
    unfold Db.studentBySid
    rw [hstudents]
  have hname : d'.studentByName = d.studentByName := by
    funext username
    unfold Db.studentByName
    rw [hstudents]
  have hresolve : resolve d' = resolve d := by
    funext user info
    unfold resolve
    rw [hsid, hname]
  have hadd : membershipsToAdd d' = membershipsToAdd d := by
    funext labId batch
    unfold membershipsToAdd
    simp only [hsid, hname, Db.isMember_congr hroster]
  have hpi : piUpdate d' = piUpdate d := by
    funext lab pi
    unfold piUpdate
    rw [hstudents]
  unfold planRows
  rw [hresolve, hadd, hpi]

/-! ## The whole call -/

/-- A call that waits in `thread` runs to its end, with nothing thrown. What happens while it
waits leaves labs, students and rosters alone. -/
inductive Completes : Thread → Controller → Controller → Prop
  | done (s : Controller) : Completes [] s s
  | next {await : Await} {callers waiting : Thread} {s₀ s₁ s₂ s₃ : Controller} (answer : Answer)
      (evolves : s₀.Evolves s₁) (meanwhile : SameRoster s₀ s₁)
      (resumed : (await.resume answer).run s₁ = (.ok waiting, s₂))
      (rest : Completes (waiting ++ callers) s₂ s₃) : Completes (await :: callers) s₀ s₃

/-- One more step of the provisioning. -/
theorem importing_resume {await : Await} (h : await.Importing) (answer : Answer) :
    Returns Thread.Importing (await.resume answer) ∧
      Respects SameRoster (await.resume answer) := by
  cases await with
  | importRest labId placements student rest actor =>
      cases placements with
      | nil => exact ⟨provisionImported_waits _ _ _, respects_provisionImported _ _ _⟩
      | cons placement others =>
          refine ⟨.bind fun _ => .pure fun a ha => ?_,
            .bind (memberWalk_roster.provisionMember _ _ _) fun _ => .pure _⟩
          rw [List.mem_singleton.mp ha]
          exact trivial
  | _ => exact h.elim

/-- The whole provisioning leaves labs, students and rosters alone. -/
theorem Completes.sameRoster {thread : Thread} {s s' : Controller} (h : Completes thread s s')
    (hthread : thread.Importing) : s.Evolves s' ∧ SameRoster s s' := by
  induction h with
  | done s => exact ⟨.refl s, refl_of SameRoster s⟩
  | @next await callers waiting s₀ s₁ s₂ s₃ answer hevolves hsame hrun _ ih =>
      obtain ⟨hwaits, hkeeps⟩ := importing_resume (hthread await List.mem_cons_self) answer
      have hwaiting : waiting.Importing := hwaits s₁ waiting (by rw [hrun])
      have hstep : s₁.Evolves s₂ ∧ SameRoster s₁ s₂ := by
        have hs₂ : s₂ = ((await.resume answer).run s₁).2 := by rw [hrun]
        rw [hs₂]
        exact ⟨(await.resume answer).keeps s₁, hkeeps s₁⟩
      have hrest : Thread.Importing (waiting ++ callers) := by
        intro a ha
        rcases List.mem_append.mp ha with ha | ha
        · exact hwaiting a ha
        · exact hthread a (List.mem_cons_of_mem _ ha)
      obtain ⟨hevolves', hsame'⟩ := ih hrest
      exact ⟨(hevolves.trans hstep.1).trans hevolves',
        trans_of SameRoster (trans_of SameRoster hsame hstep.2) hsame'⟩

/-- **A roster import is idempotent.** Where the plan of a text is `ok` and the import of the
text completes, the plan of the same text is `ok` again, and empty. -/
theorem roster_import_idempotent {s s' s'' : Controller} {labId : Nat} {text : String}
    {actor : Option String} {waiting : Thread} (hkeys : s.db.RosterKeys)
    (hok : (planRosterImport s.host s.db labId text).ok = true)
    (hrun : (applyRosterImport labId text actor).run s = (.ok waiting, s'))
    (hdone : Completes waiting s' s'') :
    let again := planRosterImport s''.host s''.db labId text
    again.ok = true ∧ again.piUpdate = none ∧ again.studentsToCreate = [] ∧
      again.studentsToUpdate = [] ∧ again.membershipsToAdd = [] := by
  intro again
  have hstarted : ∃ s₁, Imported labId (planRosterImport s.host s.db labId text).toRosterPlan s s₁ ∧
      s'.host = s.host ∧ SameRoster s₁ s' ∧ waiting.Importing := by
    have hkeeps := (applyRosterImport labId text actor).keeps s
    rcases applyRosterImport_run labId text actor hkeys with ⟨e, h⟩ |
      ⟨_, _, rest, s₁, hi, h, hsame, hwaits⟩
    · cases hrun.symm.trans h
    · have hrest := h.symm.trans hrun
      have hsame := hsame s₁
      rw [hrun] at hkeeps
      rw [hrest] at hsame
      exact ⟨s₁, hi, hkeeps.host, hsame, hwaits s₁ waiting (by rw [hrest])⟩
  obtain ⟨s₁, hi, hhost, hsame, hwaiting⟩ := hstarted
  obtain ⟨hevolves, hsame'⟩ := hdone.sameRoster hwaiting
  have hsame := trans_of SameRoster hsame hsame'
  obtain ⟨lab, hlab, hplan, hc, hreplan⟩ := planRosterImport_ok hok
  have hid : lab.id = labId := (Table.get_eq_some.mp hlab).2
  subst hid
  rw [hplan] at hi
  have hchecked : ∀ r ∈ fileRows s.host text, r.Checked := fun r hr => validRows_checked hr
  obtain ⟨lab', hlab', hcommit, hempty⟩ := hi.planRows_again hc hchecked hlab
  have hagain : again = planRows s₁.db lab' (fileRows s.host text) [] := by
    have hread : again = planRosterImport s.host s''.db lab.id text := by
      show planRosterImport s''.host s''.db lab.id text = _
      rw [hevolves.host, hhost]
    rw [hread, hreplan s''.db lab' (hsame.labs ▸ hlab')]
    exact planRows_congr hsame.students hsame.labMembers
  rw [hagain]
  exact ⟨planRows_ok.mpr ⟨hcommit, rfl⟩, hempty⟩

/-- The import of one student into a lab without placements, and the plan of the same text. -/
theorem roster_import_idempotent_alice :
    ∃ s', (applyRosterImport 1 aliceCsv none).run emptyLab = (.ok [], s') ∧
      (planRosterImport s'.host s'.db 1 aliceCsv).studentsToCreate = [] := by
  have hkeys : emptyLab.db.RosterKeys := fun m hm => absurd hm List.not_mem_nil
  have hempty : (match (applyRosterImport 1 aliceCsv none).run emptyLab with
      | (.ok waiting, _) => waiting.isEmpty
      | (.error _, _) => false) = true := by decide +kernel
  rcases hrun : (applyRosterImport 1 aliceCsv none).run emptyLab with ⟨e | waiting, s'⟩
  · rw [hrun] at hempty
    cases hempty
  · rw [hrun] at hempty
    obtain rfl : waiting = [] := List.isEmpty_iff.mp hempty
    exact ⟨s', rfl, (roster_import_idempotent hkeys (by decide +kernel) hrun (.done s')).2.2.1⟩

end MassDeployment
