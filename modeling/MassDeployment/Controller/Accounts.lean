import MassDeployment.Agent.Users
import MassDeployment.Controller.Refusals
import MassDeployment.Lib.Triple

set_option autoImplicit false

/-! # The accounts that are sent to the nodes

Usernames come into the controller through a member form, through the form of a PI, through the
copy of a roster and through a CSV file; they are sent to nodes by every operation on placements
since. Only the file is checked against the pattern of the agent. Where the forms name students
that pass it, every account that is sent to a node can be made there.
-/

namespace MassDeployment

open Js Prog

/-! ## The forms -/

/-- The fields of a submitted form. -/
abbrev Form := String → Option String

/-- `String(formData.get(k) ?? "").trim()`. -/
def Form.text (h : Host) (form : Form) (k : String) : String := h.trim ((form k).getD "")

/-- `addMemberAction`: the call it makes. -/
def addMemberAction (h : Host) (form : Form) (labId : Nat) (who : String) : Except Error Act :=
  let username := h.toLowerCase (form.text h "username")
  if username = "" then .error (.error "Username required")
  else
    .ok (.addStudentToLab labId
      { username, email := nonEmpty (form.text h "email"), name := nonEmpty (form.text h "name"),
        studentId := nonEmpty (form.text h "studentId") } (some who))

/-- `createLabAction`: the calls it makes, in their order; the lab gets the key `labId`. -/
def createLabAction (h : Host) (form : Form) (labId copyFromLabId : Nat) (who : String) :
    Except Error (List Act) :=
  let name := form.text h "name"
  let piName := nonEmpty (form.text h "piName")
  let piEmail := nonEmpty (form.text h "piEmail")
  let piUsername := h.toLowerCase (form.text h "piUsername")
  if name = "" then .error (.error "Lab name is required")
  else
    .ok (.createLab name piName piEmail (some who) ::
      ((if piUsername = "" then []
        else [.ensurePiAccess labId { username := piUsername, name := piName, email := piEmail }
          (some who)]) ++
      if copyFromLabId ≠ 0 ∧ form "copyStudents" = some "on" then
        [.copyMembers copyFromLabId labId (some who)]
      else []))

/-- `updateLabMetaAction`: the call it makes. -/
def updateLabMetaAction (h : Host) (form : Form) (labId : Nat) (who : String) : Act :=
  let piName := form.text h "piName"
  let piEmail := form.text h "piEmail"
  let piUsername := h.toLowerCase (form.text h "piUsername")
  if piUsername = "" then .updateLabMeta labId (some (some piName)) (some (some piEmail)) (some who)
  else .ensurePiAccess labId { username := piUsername, name := some piName, email := some piEmail }
    (some who)

/-! ## Accounts the agent makes -/

/-- The agent makes an account of this name and this numeric id. -/
structure Accepted (username : String) (uid : Nat) : Prop where
  username : Agent.validateUsername username = .ok ()
  uid : Agent.validateUid uid uid = .ok ()

/-- A task asks for an account the agent makes. -/
def TaskFrame.Accepted (frame : TaskFrame) : Prop :=
  ∃ (username : String) (uid : Nat), frame.param "username" = some username ∧
    frame.params.lookup "uid" = some (jsonInt uid) ∧
    frame.params.lookup "gid" = some (jsonInt uid) ∧ MassDeployment.Accepted username uid

def ProvisionStudent.Accepted (student : ProvisionStudent) : Prop :=
  MassDeployment.Accepted student.username student.linuxUid

def StudentRow.Accepted (r : StudentRow) : Prop := MassDeployment.Accepted r.username r.linuxUid

/-- The students a suspended call is going to provision. -/
def Await.Accepted : Await → Prop
  | .provisionRoster _ rest _ => ∀ student ∈ rest, student.Accepted
  | .provisionOn _ student _ => student.Accepted
  | .copyRest _ rest _ => ∀ m ∈ rest, m.student.Accepted
  | .importRest _ _ student rest _ => student.Accepted ∧ ∀ student ∈ rest, student.Accepted
  | .credentialSent .. | .completionSent .. => True

def Thread.Accepted (thread : Thread) : Prop := ∀ await ∈ thread, await.Accepted

/-- The platform's `trim` and `toLowerCase` leave an accepted username one. -/
def Host.KeepsUsernames (h : Host) : Prop :=
  ∀ s, Agent.validateUsername s = .ok () → Agent.validateUsername (h.toLowerCase (h.trim s)) = .ok ()

/-- **Nobody is unprovisionable**: not in the table, not in a call that is under way, not in a
task. -/
structure Provisionable (s : Controller) : Prop where
  host : s.host.KeepsUsernames
  students : ∀ r ∈ s.db.students.rows, r.Accepted
  threads : ∀ t ∈ s.threads, Thread.Accepted t
  tasks : ∀ x ∈ s.issued, x.2.action = .studentAdd → x.2.Accepted

/-- What keeps it. -/
abbrev KeepsAccounts : Controller → Controller → Prop := Keeping Provisionable

theorem provisionable_init {host : Host} (h : host.KeepsUsernames) :
    Provisionable (.init host) where
  host := h
  students r hr := by cases hr
  threads t ht := by cases ht
  tasks x hx := by cases hx

/-- Students, suspended calls and tasks are at most those that were. -/
theorem Provisionable.fewer {s s' : Controller} (h : Provisionable s) (hhost : s'.host = s.host)
    (hstudents : ∀ r' ∈ s'.db.students.rows, ∃ r ∈ s.db.students.rows,
      r'.username = r.username ∧ r'.linuxUid = r.linuxUid)
    (hthreads : ∀ t ∈ s'.threads, t ∈ s.threads) (hissued : s'.issued = s.issued) :
    Provisionable s' where
  host := hhost ▸ h.host
  students r' hr' := by
    obtain ⟨r, hr, hname, huid⟩ := hstudents r' hr'
    unfold StudentRow.Accepted
    rw [hname, huid]
    exact h.students r hr
  threads t ht := h.threads t (hthreads t ht)
  tasks x hx := h.tasks x (hissued ▸ hx)

theorem Provisionable.same {s s' : Controller} (h : Provisionable s) (hhost : s'.host = s.host)
    (hstudents : s'.db.students = s.db.students) (hthreads : s'.threads = s.threads)
    (hissued : s'.issued = s.issued) : Provisionable s' :=
  h.fewer hhost (fun r hr => ⟨r, hstudents ▸ hr, rfl, rfl⟩) (fun _ ht => hthreads ▸ ht) hissued

/-! ## The writes -/

theorem accounts_lists (f : Db → Db) (h) : Respects KeepsAccounts (Op.writeLists f h) :=
  fun s hs => hs.same rfl (h s.db).2.2.1 rfl rfl

theorem accounts_emit (e : Event) : Respects KeepsAccounts (Op.emit e) :=
  fun _ hs => hs.same rfl rfl rfl rfl

theorem accounts_draw {α : Type} (f : Host → Nat → α) : Respects KeepsAccounts (Op.draw f) :=
  fun _ hs => hs.same rfl rfl rfl rfl

theorem accounts_spawn {thread : Thread} (h : thread.Accepted) :
    Respects KeepsAccounts (Op.spawn thread) := by
  intro s hs
  refine { hs.same rfl rfl rfl rfl with threads := fun t ht => ?_ }
  rcases List.mem_append.mp ht with ht | ht
  · exact hs.threads t ht
  · exact List.mem_singleton.mp ht ▸ h

theorem accounts_takeThread (i : Nat) : Respects KeepsAccounts (takeThread i) :=
  fun _ hs => hs.fewer rfl (fun r hr => ⟨r, hr, rfl, rfl⟩)
    (fun _ ht => List.mem_of_mem_eraseIdx ht) rfl

theorem accounts_updateTasks (p : TaskRow → Bool) (f : TaskRow → TaskRow) (h) :
    Respects KeepsAccounts (updateTasks p f h) := fun _ hs => hs.same rfl rfl rfl rfl

theorem accounts_enqueueTask (node : String) (action : Action) (params : Params)
    (requestedBy : Option String)
    (h : action = .studentAdd →
      ∀ frame : TaskFrame, frame.params = params → frame.Accepted) :
    Respects KeepsAccounts (enqueueTask node action params requestedBy) := by
  intro s hs
  simp only [enqueueTask]
  split
  · refine { hs.same rfl rfl rfl rfl with tasks := fun x hx haction => ?_ }
    rcases List.mem_cons.mp hx with rfl | hx
    · exact h haction _ rfl
    · exact hs.tasks x hx haction
  · exact hs.same rfl rfl rfl rfl

theorem accounts_claimTask (node workerId : String) :
    Respects KeepsAccounts (claimTask node workerId) := by
  refine .bind (.read _) fun claimed => ?_
  split
  · exact .pure _
  · exact .bind (fun _ hs => hs.same rfl rfl rfl rfl) fun _ =>
      .bind (respects_lift _) fun _ => .pure _

/-- Students are renamed by no statement, and lose their uid by none. -/
theorem accounts_updateStudents (p : StudentRow → Bool) (f : StudentRow → StudentRow) (h) :
    Respects KeepsAccounts (Slot.students.update p f h) := by
  intro s hs
  refine hs.fewer rfl (fun r' hr' => ?_) (fun _ ht => ht) rfl
  obtain ⟨r, hr, rfl⟩ := List.mem_map.mp hr'
  refine ⟨r, hr, ?_⟩
  split
  next hp => exact (h.grows r hp).2
  next => exact ⟨rfl, rfl⟩

theorem accounts_tryUpdateStudents (p : StudentRow → Bool) (f : StudentRow → StudentRow) (hg) :
    Respects KeepsAccounts (Slot.students.tryUpdate p f hg) := by
  refine .exchange fun s a s' hrun hs => ?_
  split at hrun
  next T hT =>
    cases hrun
    refine hs.fewer rfl (fun r' hr' => ?_) (fun _ ht => ht) rfl
    have hrows := (Table.tryUpdate_eq_some hT).1
    replace hr' : r' ∈ T.rows := hr'
    rw [hrows] at hr'
    obtain ⟨r, hr, rfl⟩ := List.mem_map.mp hr'
    refine ⟨r, hr, ?_⟩
    split
    next hp => exact (hg r hp).2
    next => exact ⟨rfl, rfl⟩
  next => cases hrun

theorem accounts_deleteStudents (p : StudentRow → Bool) :
    Respects KeepsAccounts (Slot.students.delete p) :=
  fun _ hs => hs.fewer rfl (fun r hr => ⟨r, (Table.mem_delete.mp hr).1, rfl, rfl⟩)
    (fun _ ht => ht) rfl

/-! ## The functions that add nobody -/

theorem accounts_audit (actor : Option String) (action : String) (target detail : Option String) :
    Respects KeepsAccounts (audit actor action target detail) :=
  .bind (.read _) fun _ => accounts_lists _ _

/-- A write to a table that is not the table of students. -/
theorem accounts_other {x : Op Unit} (h : ∀ s, (x.run s).2.host = s.host ∧
      (x.run s).2.db.students = s.db.students ∧ (x.run s).2.threads = s.threads ∧
      (x.run s).2.issued = s.issued) : Respects KeepsAccounts x :=
  fun s hs => hs.same (h s).1 (h s).2.1 (h s).2.2.1 (h s).2.2.2

theorem accounts_deletePlacements (victim : PlacementRow → Bool) :
    Respects KeepsAccounts (deletePlacements victim) :=
  .bind (.read _) fun _ => .bind (accounts_other fun _ => ⟨rfl, rfl, rfl, rfl⟩) fun _ =>
    .bind (accounts_other fun _ => ⟨rfl, rfl, rfl, rfl⟩) fun _ => accounts_lists _ _

theorem accounts_clearCredential (memberId : Nat) :
    Respects KeepsAccounts (clearCredential memberId) :=
  .bind (.read _) fun _ => accounts_other fun _ => ⟨rfl, rfl, rfl, rfl⟩

theorem Thread.accepted_nil : Thread.Accepted [] := by
  intro await h
  cases h

theorem Thread.accepted_singleton {await : Await} (h : await.Accepted) :
    Thread.Accepted [await] := by
  intro await' h'
  rw [List.mem_singleton.mp h']
  exact h

theorem yields_deliverPlacementCredential (labName : Value) (node : String) (username : Value) :
    Yields Provisionable Thread.Accepted (deliverPlacementCredential labName node username) := by
  unfold deliverPlacementCredential
  refine .after (.bind (.read _) fun _ => respects_lift _) fun pending => ?_
  split
  · exact .pure Thread.accepted_nil
  · split
    · refine .after (.read _) fun password => .ite (fun _ => .pure Thread.accepted_nil) fun _ => ?_
      exact .after (accounts_emit _) fun _ => .pure (Thread.accepted_singleton trivial)
    · exact .pure Thread.accepted_nil

theorem accounts_insertLog (row : LogRow) : Respects KeepsAccounts (insertLog row) :=
  accounts_lists _ _

theorem accounts_logMailFailure (source msg node : String) (lab user : Value) (e : Js.Error) :
    Respects KeepsAccounts (logMailFailure source msg node lab user e) := by
  refine .bind (.read _) fun _ => ?_
  split
  · exact accounts_insertLog _
  · exact .pure _

theorem accounts_suspend {waiting : Thread} (h : waiting.Accepted) :
    Respects KeepsAccounts (suspend waiting) :=
  .ite (fun _ => .pure _) fun _ => accounts_spawn h

theorem accounts_startCredentialMail (labName : Value) (node : String) (username : Value) :
    Respects KeepsAccounts (startCredentialMail labName node username) := by
  have hmail := (yields_deliverPlacementCredential labName node username).tryCatch fun e =>
    .after (accounts_logMailFailure "credential" "credential delivery failed" node labName username e)
      fun _ => .pure Thread.accepted_nil
  exact .bind_yields hmail fun _ hwaiting => accounts_suspend hwaiting

theorem accounts_retryPlacement (placementId : Nat) (actor : Option String) :
    Respects KeepsAccounts (retryPlacement placementId actor) :=
  respects_retryPlacement
    (fun _ _ _ _ h => accounts_enqueueTask _ _ _ _ fun haction =>
      absurd haction (not_studentAdd_of_upkeep h))
    accounts_audit (fun _ _ _ _ hs => hs.same rfl rfl rfl rfl) placementId actor

theorem accounts_forceDeletePlacement (placementId : Nat) (actor : Option String) :
    Respects KeepsAccounts (forceDeletePlacement placementId actor) :=
  respects_forceDeletePlacement
    (fun _ _ _ _ h => accounts_enqueueTask _ _ _ _ fun haction =>
      absurd haction (not_studentAdd_of_upkeep h))
    accounts_audit accounts_deletePlacements placementId actor

theorem accounts_deleteLabRow (labId : Nat) : Respects KeepsAccounts (deleteLabRow labId) :=
  .bind (accounts_deletePlacements _) fun _ =>
    .bind (accounts_other fun _ => ⟨rfl, rfl, rfl, rfl⟩) fun _ =>
      .bind (accounts_lists _ _) fun _ => accounts_other fun _ => ⟨rfl, rfl, rfl, rfl⟩

theorem accounts_deleteStudentRow (studentId : Nat) :
    Respects KeepsAccounts (deleteStudentRow studentId) :=
  .bind (.read _) fun _ => .ite (fun _ => .throw _) fun _ =>
    .bind (accounts_other fun _ => ⟨rfl, rfl, rfl, rfl⟩) fun _ =>
      .bind (accounts_other fun _ => ⟨rfl, rfl, rfl, rfl⟩) fun _ =>
        .bind (accounts_lists _ _) fun _ => accounts_deleteStudents _

/-- A task may be issued that asks for no account, or for an accepted one. -/
def AsksAccepted (_ : String) (frame : TaskFrame) : Prop :=
  frame.action = .studentAdd → frame.Accepted

/-- The functions that add nobody keep accounts accepted. -/
theorem accountsWalk : Walk AsksAccepted KeepsAccounts where
  lists f h _ := accounts_lists f h
  emit e _ := accounts_emit e
  alertState _ _ := accounts_other fun _ => ⟨rfl, rfl, rfl, rfl⟩
  gpuMailState _ _ := accounts_other fun _ => ⟨rfl, rfl, rfl, rfl⟩
  draw := accounts_draw
  clock f h hf := accounts_other fun s => by
    obtain ⟨now, settings, -, he⟩ := hf s
    rw [run_write, he]
    exact ⟨rfl, rfl, rfl, rfl⟩
  claimTask := accounts_claimTask
  ackTask _ _ _ := accounts_other fun _ => ⟨rfl, rfl, rfl, rfl⟩
  retryTask _ _ _ := .bind (.read _) fun _ => accounts_other fun _ => ⟨rfl, rfl, rfl, rfl⟩
  updateTasks p f h _ := accounts_updateTasks p f h
  enqueueTask node action params requestedBy h :=
    accounts_enqueueTask node action params requestedBy fun haction frame hparams =>
      h { frame with action := action } rfl hparams haction
  updateNode _ _ _ _ := accounts_other fun _ => ⟨rfl, rfl, rfl, rfl⟩
  updateLab _ _ _ _ := accounts_other fun _ => ⟨rfl, rfl, rfl, rfl⟩
  insertLab mk hmk _ := respects_insert (fun _ _ hs => hs.same rfl rfl rfl rfl) mk hmk
  updatePlacements _ _ _ _ _ _ := accounts_other fun _ => ⟨rfl, rfl, rfl, rfl⟩
  retryPlacement _ := accounts_retryPlacement
  forceDeletePlacement _ := accounts_forceDeletePlacement
  deleteLabRow := accounts_deleteLabRow
  deleteStudentRow := accounts_deleteStudentRow
  startCredentialMail := accounts_startCredentialMail

/-! ## The functions that provision -/

theorem studentAddParams_accepted {placement : Placement} {username password : String} {uid : Nat}
    (h : Accepted username uid) {frame : TaskFrame}
    (hparams : frame.params = studentAddParams placement username password uid) :
    frame.Accepted := by
  refine ⟨username, uid, ?_, ?_, ?_, h⟩
  · rw [TaskFrame.param, hparams]
    rfl
  · rw [hparams]
    rfl
  · rw [hparams]
    rfl

theorem accounts_provisionMember (placement : Placement) {student : ProvisionStudent}
    (h : student.Accepted) (actor : Option String) :
    Respects KeepsAccounts (provisionMemberOnPlacement placement student actor) := by
  refine .bind (.read _) fun _ => .ite (fun _ => .pure _) fun _ => .bind (accounts_draw _) fun _ =>
    .bind (accounts_draw _) fun _ => .bind (.bind (.read _) fun s => ?_) fun _ =>
      .bind (accounts_enqueueTask _ _ _ _ fun _ _ hparams => studentAddParams_accepted h hparams)
        fun _ => .pure _
  split
  · exact .bind (respects_insert (t := Slot.placementMembers)
      (fun _ _ hs => hs.same rfl rfl rfl rfl) _ _) fun _ => .pure _
  · exact .throw _

theorem accounts_reprovisionMember (placement : Placement) (actor : Option String)
    {m : PlacementMemberRow × StudentRow} (h : m.2.Accepted) :
    Respects KeepsAccounts (reprovisionMember placement actor m) :=
  .bind (accounts_draw _) fun _ => .bind (accounts_draw _) fun _ => .bind (.read _) fun _ =>
    .bind (accounts_other fun _ => ⟨rfl, rfl, rfl, rfl⟩) fun _ =>
      .bind (accounts_enqueueTask _ _ _ _ fun _ _ hparams => studentAddParams_accepted h hparams)
        fun _ => .pure _

theorem Db.mem_membersOf {d : Db} {placementId : Nat} {m : PlacementMemberRow × StudentRow}
    (h : m ∈ d.membersOf placementId) : m.2 ∈ d.students.rows := by
  obtain ⟨row, _, hrow⟩ := List.mem_filterMap.mp (mem_orderBy h)
  obtain ⟨r, hr, heq⟩ := Option.map_eq_some_iff.mp hrow
  rw [← heq]
  exact (Table.get_eq_some.mp hr).1

theorem accounts_reprovisionPlacementMembers (placement : Placement) (actor : Option String) :
    Respects KeepsAccounts (reprovisionPlacementMembers placement actor) := by
  refine .bind_yields (P := fun members => ∀ m ∈ members, m.2.Accepted) (.read ?_) fun members h => ?_
  · exact fun s hs m hm => hs.students m.2 (Db.mem_membersOf hm)
  · exact .forM _ fun m hm => accounts_reprovisionMember placement actor (h m hm)

theorem yields_provisionRoster (placement : Placement) {students : List ProvisionStudent}
    (h : ∀ student ∈ students, student.Accepted) (actor : Option String) :
    Yields Provisionable Thread.Accepted (provisionRoster placement students actor) := by
  cases students with
  | nil => exact .pure Thread.accepted_nil
  | cons student rest =>
      refine .after (accounts_provisionMember placement (h student List.mem_cons_self) actor)
        fun _ => .pure (Thread.accepted_singleton ?_)
      exact fun student' h' => h student' (List.mem_cons_of_mem _ h')

theorem yields_provisionOn (placements : List Placement) {student : ProvisionStudent}
    (h : student.Accepted) (actor : Option String) :
    Yields Provisionable Thread.Accepted (provisionOn placements student actor) := by
  cases placements with
  | nil => exact .pure Thread.accepted_nil
  | cons placement rest =>
      exact .after (accounts_provisionMember placement h actor) fun _ =>
        .pure (Thread.accepted_singleton h)

theorem yields_provisionImported (labId : Nat) (actor : Option String)
    {students : List ProvisionStudent} (h : ∀ student ∈ students, student.Accepted) :
    Yields Provisionable Thread.Accepted (provisionImported labId actor students) := by
  induction students with
  | nil => exact .pure Thread.accepted_nil
  | cons student rest ih =>
      have hrest : ∀ student ∈ rest, student.Accepted :=
        fun student' h' => h student' (List.mem_cons_of_mem _ h')
      refine .after (.read _) fun placements => ?_
      split
      · exact ih hrest
      · exact .after (accounts_provisionMember _ (h student List.mem_cons_self) actor) fun _ =>
          .pure (Thread.accepted_singleton ⟨h student List.mem_cons_self, hrest⟩)

theorem Db.roster_mem {d : Db} {labId : Nat} {r : StudentRow} (h : r ∈ d.roster labId) :
    r ∈ d.students.rows := by
  obtain ⟨m, _, hr⟩ := List.mem_filterMap.mp h
  exact (Table.get_eq_some.mp hr).1

theorem yields_createPlacement (input : CreatePlacementInput) (actor : Option String) :
    Yields Provisionable Thread.Accepted (createPlacement input actor) := by
  unfold createPlacement
  refine .after (.read _) fun node => ?_
  split
  · exact .throw _
  · refine .after (respects_validateContainerConfig _ _) fun _ => .after ?_ fun _ => ?_
    · exact .ite (fun _ => respects_checkSmbClient _ _) fun _ =>
        .ite (fun _ => respects_failWith _) fun _ => .pure _
    · refine .ite (fun _ => .throw _) fun _ => .ite (fun _ => .throw _) fun _ => ?_
      refine .after (.read _) fun now => .after ?_ fun i => .after (.read _) fun placement => ?_
      · refine .bind (.read _) fun s => ?_
        split
        · exact respects_insert (t := Slot.labPlacements)
            (fun _ _ hs => hs.same rfl rfl rfl rfl) _ _
        · exact .throw _
      · split
        · exact .throw _
        · refine .after (walk_enqueuePlacementCreate accountsWalk (fun _ _ h ha => absurd ha h.2) _ _)
            fun _ => .after (accounts_audit _ _ _ _) fun _ => .read_bind fun s hs => ?_
          refine yields_provisionRoster _ (fun student hstudent => ?_) actor
          obtain ⟨r, hr, rfl⟩ := List.mem_map.mp hstudent
          exact hs.students r (Db.roster_mem (mem_orderBy hr))

theorem accounts_recreatePlacement (placementId : Nat) (input : RecreateInput)
    (actor : Option String) : Respects KeepsAccounts (recreatePlacement placementId input actor) := by
  have placement : ∀ f h, Respects KeepsAccounts (updatePlacement placementId f h) :=
    fun _ _ => accounts_other fun _ => ⟨rfl, rfl, rfl, rfl⟩
  refine .bind (.read _) fun p => ?_
  split
  · exact respects_failWith _
  · refine .bind (respects_validateContainerConfig _ _) fun _ => ?_
    refine .ite (fun _ => respects_failWith _) fun _ => .ite (fun _ => respects_failWith _) fun _ =>
      .ite (fun _ => respects_failWith _) fun _ => ?_
    refine .bind (placement _ _) fun _ => .bind (.bind (.read _) fun _ => placement _ _) fun _ =>
      .bind (placement _ _) fun _ => .bind (.read _) fun fresh => ?_
    split
    · exact .throw _
    · exact .bind (accounts_enqueueTask _ _ _ _ nofun) fun _ =>
        .bind (accounts_reprovisionPlacementMembers _ _) fun _ => accounts_audit _ _ _ _

/-! ## The functions that name students -/

theorem freeUid_accepted {d : Db} {uid : Nat} (h : uid ∈ d.freeUids) :
    Agent.validateUid uid uid = .ok () := by
  have hrange := (Db.mem_freeUids.mp h).1
  rw [Agent.validateUid_eq_ok]
  omega

/-- A new student under a free uid. -/
theorem Provisionable.insert {s : Controller} (hs : Provisionable s) {r : StudentRow}
    {T : Table StudentRow} (hrows : T.rows = s.db.students.rows ++ [r]) (h : r.Accepted) :
    Provisionable (Slot.students.set s T) := by
  refine { hs.same rfl rfl rfl rfl with students := fun r' hr' => ?_ }
  replace hr' : r' ∈ T.rows := hr'
  rw [hrows] at hr'
  rcases List.mem_append.mp hr' with hr' | hr'
  · exact hs.students r' hr'
  · exact List.mem_singleton.mp hr' ▸ h

theorem yields_insertStudent {username : String} (studentId email name : Option String)
    (h : Agent.validateUsername username = .ok ()) :
    Yields Provisionable StudentRow.Accepted (insertStudent username studentId email name) := by
  intro s hs
  unfold YieldsAt
  rcases insertStudent_cases username studentId email name s with
    ⟨e, hrun⟩ | ⟨r, T, hrun, hrows, huid, _, hname⟩
  · rw [hrun]
    exact ⟨hs, nofun⟩
  · have hr : r.Accepted := ⟨hname ▸ h, freeUid_accepted huid⟩
    rw [hrun]
    refine ⟨hs.insert hrows hr, fun a ha => ?_⟩
    cases ha
    exact hr

/-- A call names a student: whom it creates has a username the agent accepts. -/
def StudentInput.Names (input : StudentInput) (s : Controller) : Prop :=
  input.Creates s →
    Agent.validateUsername (s.host.toLowerCase (s.host.trim input.username)) = .ok ()

theorem yields_findOrCreateStudent {input : StudentInput} {s : Controller} (hs : Provisionable s)
    (h : input.Names s) :
    YieldsAt Provisionable StudentRow.Accepted (findOrCreateStudent input) s := by
  unfold YieldsAt
  cases hk : s.db.knownStudent s.host input with
  | some r =>
      obtain ⟨hrun, hr⟩ := findOrCreateStudent_known hk
      rw [hrun]
      refine ⟨hs, fun a ha => ?_⟩
      cases ha
      exact hs.students _ hr
  | none =>
      rcases findOrCreateStudent_cases input s with ⟨hnew, _⟩ | ⟨_, hsame⟩
      · rw [findOrCreateStudent_run hk]
        exact (yields_insertStudent _ _ _ (h hnew)).atomically s hs
      · rcases findOrCreateStudent_unknown hk with ⟨e, hrun⟩ | ⟨r, T, hrun, hrows, _⟩
        · rw [hrun]
          exact ⟨hs, nofun⟩
        · -- nobody was created
          rw [hrun] at hsame
          have hlength := congrArg (fun s : Controller => s.db.students.rows.length) hsame
          replace hlength : T.rows.length = s.db.students.rows.length := hlength
          rw [hrows, List.length_append, List.length_singleton] at hlength
          omega

theorem accounts_insertLabMember (labId studentId : Nat) :
    Respects KeepsAccounts (insertLabMember labId studentId) :=
  respects_insertLabMember (respects_insert (t := Slot.labMembers)
    fun _ _ hs => hs.same rfl rfl rfl rfl) labId studentId

theorem yields_addStudentToLab (labId : Nat) {student : StudentInput} (actor : Option String)
    {s : Controller} (hs : Provisionable s)
    (h : (∃ lab, s.db.labs.get labId = some lab) → student.Names s) :
    YieldsAt Provisionable Thread.Accepted (addStudentToLab labId student actor) s := by
  refine .read_bind ?_
  dsimp only
  split
  next => exact .throw hs _
  next lab hlab =>
    refine (yields_findOrCreateStudent hs (h ⟨lab, hlab⟩)).bind fun record hrecord => ?_
    refine .after (.read _) fun _ => .ite (fun _ => .throw _) fun _ => ?_
    exact .after (accounts_insertLabMember _ _) fun _ => .after (accounts_audit _ _ _ _) fun _ =>
      .after (.read _) fun _ => @yields_provisionOn _ (.ofRow record) hrecord actor

/-- The members of a roster that is copied have accounts already. -/
theorem yields_copyEach (toLabId : Nat) (actor : Option String) {members : List Member}
    (h : ∀ m ∈ members, m.student.Accepted) :
    Yields Provisionable Thread.Accepted (copyEach toLabId actor members) := by
  induction members with
  | nil => exact .pure Thread.accepted_nil
  | cons m rest ih =>
      have hrest : ∀ m ∈ rest, m.student.Accepted := fun m' h' => h m' (List.mem_cons_of_mem _ h')
      unfold copyEach
      refine .after (.read _) fun _ => .ite (fun _ => ih hrest) fun _ => ?_
      refine .bind (fun s hs => yields_addStudentToLab toLabId actor hs fun _ _ => ?_)
        fun waiting hwaiting => .pure ?_
      · exact hs.host _ (h m List.mem_cons_self).username
      · intro await hawait
        rcases List.mem_append.mp hawait with hawait | hawait
        · exact hwaiting await hawait
        · rw [List.mem_singleton.mp hawait]
          exact hrest

theorem yields_copyMembers (fromLabId toLabId : Nat) (actor : Option String) :
    Yields Provisionable Thread.Accepted (copyMembers fromLabId toLabId actor) := by
  refine .read_bind fun s hs => yields_copyEach toLabId actor fun m hm => ?_
  obtain ⟨row, _, hrow⟩ := List.mem_filterMap.mp (mem_orderBy hm)
  split at hrow
  next r lab hr _ =>
    cases hrow
    exact hs.students r (Table.get_eq_some.mp hr).1
  next => cases hrow

theorem accounts_updateLab (labId : Nat) (f : LabRow → LabRow) (h) :
    Respects KeepsAccounts (updateLab labId f h) := accounts_other fun _ => ⟨rfl, rfl, rfl, rfl⟩

theorem yields_ensurePiAccess (labId : Nat) {input : StudentInput} (actor : Option String)
    {s : Controller} (hs : Provisionable s)
    (h : (∃ lab, s.db.labs.get labId = some lab) → s.host.trim input.username ≠ "" →
      input.Names s) :
    YieldsAt Provisionable Thread.Accepted (ensurePiAccess labId input actor) s := by
  refine .read_bind ?_
  dsimp only
  split
  next => exact .throw hs _
  next lab hlab =>
    refine .read_bind (.ite (fun _ => .throw hs _) fun hname => ?_)
    refine (yields_findOrCreateStudent hs (h ⟨lab, hlab⟩ hname)).bind fun record hrecord => ?_
    refine .ite (fun _ => .throw _) fun _ => .after (.read _) fun _ =>
      .after (accounts_updateStudents _ _ _) fun _ => .after (accounts_updateLab _ _ _) fun _ =>
        .after (.bind (.read _) fun _ => .ite (fun _ => .pure _) fun _ =>
          accounts_insertLabMember _ _) fun _ => ?_
    exact .after (accounts_audit _ _ _ _) fun _ => .after (.read _) fun _ =>
      @yields_provisionOn _ (.ofRow record) hrecord actor

/-! ## The roster import -/

/-- The students of a plan that is committable have usernames of the pattern. -/
theorem planned_usernames {h : Host} {d : Db} {labId : Nat} {text : String}
    (hok : (planRosterImport h d labId text).ok = true) :
    ∀ c ∈ (planRosterImport h d labId text).studentsToCreate,
      Agent.validateUsername c.username = .ok () := by
  obtain ⟨lab, _, hplan, hc, _⟩ := planRosterImport_ok hok
  rw [hplan]
  intro c hmem
  have hchecked : ∀ r ∈ fileRows h text, r.Checked := fun r hr => validRows_checked hr
  obtain ⟨info, he, _⟩ := hc.mem_creates hchecked hmem
  rw [Agent.validateUsername_eq_ok]
  exact Agent.matchesUsername_of_isUsername ((batchOf_checked hchecked).entry _ he).user

/-- A membership of the plan: the student is known by now. -/
theorem yields_addImported (labId : Nat) (username : String) :
    Yields Provisionable (fun added => ∀ student ∈ added, student.Accepted)
      (addImported labId username) := by
  refine .read_bind fun s hs => ?_
  dsimp only
  split
  next => exact .throw _
  next row hrow =>
    have hr := hs.students row (Table.find_some hrow).1
    refine .after (.read _) fun _ => .ite (fun _ => .pure ?_) fun _ => ?_
    · exact fun _ h => absurd h List.not_mem_nil
    · refine .after (accounts_insertLabMember _ _) fun _ => .pure fun student hstudent => ?_
      rw [List.mem_singleton.mp hstudent]
      exact hr

theorem yields_commitRosterPlan (labId : Nat) (plan : RosterPlan)
    (h : ∀ c ∈ plan.studentsToCreate, Agent.validateUsername c.username = .ok ()) :
    Yields Provisionable (fun added => ∀ student ∈ added, student.Accepted)
      (commitRosterPlan labId plan) := by
  refine .after (.read _) fun _ =>
    .after (.optionForM _ fun _ _ => accounts_updateLab _ _ _) fun _ => ?_
  refine .after (.forM _ fun c hc => .bind (yields_insertStudent _ _ _ (h c hc)).respects
    fun _ => .pure _) fun _ => ?_
  refine .after (.forM _ fun u _ => ?_) fun _ => .after (.optionForM _ fun username _ => ?_)
    fun _ => ?_
  · exact .bind (.read _) fun _ =>
      .bind (.optionForM _ fun _ _ => accounts_tryUpdateStudents _ _ _) fun _ =>
        accounts_updateStudents _ _ _
  · refine .bind (.read _) fun row => ?_
    split
    · exact respects_failWith _
    · exact accounts_updateLab _ _ _
  · refine .bind (.mapM _ fun username _ => yields_addImported labId username) fun added h => ?_
    refine .pure fun student hstudent => ?_
    obtain ⟨l, hl, hmem⟩ := List.mem_flatten.mp hstudent
    exact h l hl student hmem

theorem yields_applyRosterImport (labId : Nat) (text : String) (actor : Option String) :
    Yields Provisionable Thread.Accepted (applyRosterImport labId text actor) := by
  refine .read_bind fun s hs => .ite (fun hok => ?_) fun _ => .throw _
  refine .bind (yields_commitRosterPlan labId _ (planned_usernames hok)).atomically
    fun added hadded => ?_
  exact .after (.read _) fun _ => .after (accounts_audit _ _ _ _) fun _ =>
    yields_provisionImported labId actor hadded

/-! ## Calls that continue -/

theorem yields_resume (answer : Answer) {await : Await} (h : await.Accepted) :
    Yields Provisionable Thread.Accepted (await.resume answer) := by
  cases await with
  | provisionRoster placement rest actor => exact yields_provisionRoster _ h _
  | provisionOn rest student actor => exact yields_provisionOn _ h _
  | copyRest toLabId rest actor => exact yields_copyEach _ _ h
  | importRest labId placements student rest actor =>
      cases placements with
      | nil => exact yields_provisionImported _ _ h.2
      | cons placement others =>
          exact .after (accounts_provisionMember _ h.1 _) fun _ =>
            .pure (Thread.accepted_singleton h)
  | credentialSent memberId password node lab username =>
      cases answer with
      | sent =>
          exact .after (accounts_emit _) fun _ => .after (accounts_clearCredential _) fun _ =>
            .pure Thread.accepted_nil
      | notSent => exact .pure Thread.accepted_nil
      | threw e =>
          exact .after (accounts_logMailFailure _ _ _ _ _ _) fun _ => .pure Thread.accepted_nil
  | completionSent placementId node lab =>
      have placement : ∀ f h, Respects KeepsAccounts (updatePlacement placementId f h) :=
        fun _ _ => accounts_other fun _ => ⟨rfl, rfl, rfl, rfl⟩
      cases answer with
      | sent =>
          exact .after (.read _) fun _ => .after (placement _ _) fun _ =>
            .pure Thread.accepted_nil
      | notSent => exact .after (placement _ _) fun _ => .pure Thread.accepted_nil
      | threw e =>
          exact .after (accounts_logMailFailure _ _ _ _ _ _) fun _ => .pure Thread.accepted_nil

theorem accounts_resumeThread (i : Nat) (answer : Answer) :
    Respects KeepsAccounts (resumeThread i answer) := by
  refine Respects.bind_yields (P := fun thread => ∀ t, thread = some t → Thread.Accepted t)
    (.read fun s hs t ht => hs.threads t (List.mem_of_getElem? ht)) fun thread h => ?_
  split
  · exact .pure _
  · exact .pure _
  · next await callers =>
      have hthread := h _ rfl
      refine .bind (accounts_takeThread i) fun _ => Respects.bind_yields
        (yields_resume answer (hthread await List.mem_cons_self)) fun waiting hwaiting => ?_
      refine accounts_suspend fun await' h' => ?_
      rcases List.mem_append.mp h' with h' | h'
      · exact hwaiting await' h'
      · exact hthread await' (List.mem_cons_of_mem _ h')

/-! ## Every run -/

/-- **The act names no student the agent refuses**: the forms of a member and of a PI are the
only way a new name comes in unchecked. -/
def Act.Names (s : Controller) : Act → Prop
  | .addStudentToLab labId input _ => (∃ lab, s.db.labs.get labId = some lab) → input.Names s
  | .ensurePiAccess labId input _ =>
    (∃ lab, s.db.labs.get labId = some lab) → s.host.trim input.username ≠ "" → input.Names s
  | _ => True

/-- The agent accepts the usernames on a form, as the actions read them. -/
def Form.Accepted (h : Host) (form : Form) : Prop :=
  ∀ k, (k = "username" ∨ k = "piUsername") → h.toLowerCase (form.text h k) ≠ "" →
    Agent.validateUsername (h.toLowerCase (form.text h k)) = .ok ()

section

variable {h : Host} {form : Form} {s : Controller}

/-- A student named by a form is accepted, although the name is trimmed once more. -/
theorem Form.Accepted.names (hform : form.Accepted h) (hhost : h.KeepsUsernames) (hs : s.host = h)
    {k : String} (hk : k = "username" ∨ k = "piUsername")
    (hne : h.toLowerCase (form.text h k) ≠ "") {input : StudentInput}
    (hinput : input.username = h.toLowerCase (form.text h k)) : input.Names s := by
  intro _
  rw [hs, hinput]
  exact hhost _ (hform k hk hne)

/-- The call of `addMemberAction` names a student the agent accepts where its form does. -/
theorem names_addMemberAction (hform : form.Accepted h) (hhost : h.KeepsUsernames)
    (hs : s.host = h) {labId : Nat} {who : String} {a : Act}
    (hact : addMemberAction h form labId who = .ok a) : a.Names s := by
  unfold addMemberAction at hact
  dsimp only at hact
  split at hact
  next => cases hact
  next hne =>
    cases hact
    exact fun _ => hform.names hhost hs (.inl rfl) hne rfl

/-- The calls of `createLabAction` name a PI the agent accepts where its form does; the copy of a
roster names nobody. -/
theorem names_createLabAction (hform : form.Accepted h) (hhost : h.KeepsUsernames)
    (hs : s.host = h) {labId copyFromLabId : Nat} {who : String} {acts : List Act}
    (hacts : createLabAction h form labId copyFromLabId who = .ok acts) :
    ∀ a ∈ acts, a.Names s := by
  unfold createLabAction at hacts
  dsimp only at hacts
  split at hacts
  next => cases hacts
  next =>
    cases hacts
    intro a ha
    rcases List.mem_cons.mp ha with rfl | ha
    · trivial
    rcases List.mem_append.mp ha with ha | ha
    · split at ha
      next => cases ha
      next hne =>
        rw [List.mem_singleton.mp ha]
        exact fun _ _ => hform.names hhost hs (.inr rfl) hne rfl
    · split at ha
      next =>
        rw [List.mem_singleton.mp ha]
        trivial
      next => cases ha

/-- The call of `updateLabMetaAction` names a PI the agent accepts where its form does. -/
theorem names_updateLabMetaAction (hform : form.Accepted h) (hhost : h.KeepsUsernames)
    (hs : s.host = h) (labId : Nat) (who : String) :
    (updateLabMetaAction h form labId who).Names s := by
  unfold updateLabMetaAction
  dsimp only
  split
  next => trivial
  next hne => exact fun _ _ => hform.names hhost hs (.inr rfl) hne rfl

end

theorem Provisionable.start {x : Op Thread} {s : Controller}
    (h : YieldsAt Provisionable Thread.Accepted x s) : Provisionable ((start x).after s) :=
  (h.bind fun _ hwaiting s hs =>
    ⟨accounts_suspend hwaiting s hs, fun _ _ => trivial⟩).1

theorem accounts_consumePlacementCredential (placementId studentId : Nat)
    (actor : Option String) :
    Respects KeepsAccounts (consumePlacementCredential placementId studentId actor) :=
  respects_consumePlacementCredential accounts_clearCredential accounts_audit
    (fun _ _ _ _ _ => accounts_emit _) _ _ _

theorem accounts_startCompletionMail (labName : Value) (node : String) :
    Respects KeepsAccounts (startCompletionMail labName node) :=
  respects_startCompletionMail (fun _ => accounts_other fun _ => ⟨rfl, rfl, rfl, rfl⟩)
    (fun _ _ _ _ _ => accounts_emit _)
    (fun _ _ _ => accounts_spawn (Thread.accepted_singleton trivial))
    (fun f h _ => accounts_lists f h) labName node

theorem accounts_handleResult (node : String) (frame : ResultFrame) :
    Respects KeepsAccounts (handleResult node frame) :=
  walk_handleResult accountsWalk (fun _ _ h ha => absurd (h.symm.trans ha) nofun)
    accounts_updateTasks accounts_deletePlacements (fun _ _ _ => accounts_emit _)
    (fun _ _ _ _ _ => accounts_other fun _ => ⟨rfl, rfl, rfl, rfl⟩)
    (fun _ _ _ _ => accounts_other fun _ => ⟨rfl, rfl, rfl, rfl⟩) accounts_startCompletionMail node
    frame

/-- One act keeps everybody provisionable. -/
theorem Provisionable.step {s : Controller} (hs : Provisionable s) {a : Act} (h : a.Names s) :
    Provisionable (step s a) := by
  have upkeep : ∀ {a : Act}, a.Upkeep → Provisionable (MassDeployment.step s a) := fun ha =>
    walk_upkeep accountsWalk (fun _ _ h ha => absurd ha h.2)
      (fun _ => accounts_startCompletionMail)
      (fun _ _ _ _ _ => accounts_other fun _ => ⟨rfl, rfl, rfl, rfl⟩)
      (walk_telemetry accountsWalk accounts_lists) ha s hs
  have registry : ∀ {a : Act}, a.Registry → Provisionable (MassDeployment.step s a) := fun ha =>
    walk_registryAct accountsWalk (fun _ _ hs => hs.same rfl rfl rfl rfl) accounts_deletePlacements
      (fun _ _ _ _ => accounts_other fun _ => ⟨rfl, rfl, rfl, rfl⟩) ha s hs
  cases a with
  | frame node received =>
      cases received with
      | result frame => exact accounts_handleResult node frame s hs
      | _ => exact upkeep trivial
  | createPlacement input actor => exact .start (yields_createPlacement _ _ s hs)
  | recreatePlacement id input actor => exact accounts_recreatePlacement _ _ _ s hs
  | addStudentToLab labId student actor => exact .start (yields_addStudentToLab _ _ hs h)
  | ensurePiAccess labId student actor => exact .start (yields_ensurePiAccess _ _ hs h)
  | copyMembers fromLabId toLabId actor => exact .start (yields_copyMembers _ _ _ s hs)
  | applyRosterImport labId text actor => exact .start (yields_applyRosterImport _ _ _ s hs)
  | removeStudentFromLab labId studentId deleteData actor =>
      exact walk_removeStudentFromLab accountsWalk
        (fun _ _ h ha => absurd (h.symm.trans ha) nofun)
        (fun _ => accounts_other fun _ => ⟨rfl, rfl, rfl, rfl⟩)
        (fun _ => accounts_other fun _ => ⟨rfl, rfl, rfl, rfl⟩) _ _ _ _ s hs
  | consumePlacementCredential placementId studentId actor =>
      exact respects_discard (accounts_consumePlacementCredential _ _ _) s hs
  | resume i answer => exact accounts_resumeThread i answer s hs
  | provisionNode | rotateNodeToken | revokeNode | deleteNode | setNodeColdStorage
  | registerNode | deregisterNode => exact registry trivial
  | _ => exact upkeep trivial

/-- **Every account that is sent to a node can be made there**, and every student of the
controller can get one, along a run whose forms name students the agent accepts. -/
theorem accounts_provisionable (host : Host) (hhost : host.KeepsUsernames) (acts : List Act)
    (h : Run.Along step (fun s a => a.Names s) (.init host) acts) :
    (∀ x ∈ (Run.run step (.init host) acts).issued, x.2.action = .studentAdd → x.2.Accepted) ∧
      ∀ r ∈ (Run.run step (.init host) acts).db.students.rows, r.Accepted := by
  have hend := Run.invariant (I := Provisionable) (fun s a hs ha => hs.step ha)
    (provisionable_init hhost) h
  exact ⟨hend.tasks, hend.students⟩

/-- A member is added to a placed lab. -/
def addedMember (username : String) : List Act :=
  placedLab ++ [.addStudentToLab 1 { username } (some "admin")]

theorem accounts_provisionable_alice :
    (∀ x ∈ (Run.run step (.init .plain) (addedMember "alice")).issued,
      x.2.action = .studentAdd → x.2.Accepted) ∧
      ∀ r ∈ (Run.run step (.init .plain) (addedMember "alice")).db.students.rows, r.Accepted :=
  accounts_provisionable .plain (fun _ h => h) (addedMember "alice")
    ⟨trivial, trivial, trivial, fun _ _ => rfl, trivial⟩

/-- The form of a member whose username is that of a mail account. -/
def dottedForm : Form := fun k => if k = "username" then some "jane.doe" else none

/-- **A username the agent refuses is sent to a node**: the form of a member lets it in. -/
theorem dotted_username_sent :
    addMemberAction .plain dottedForm 1 "admin" =
        .ok (.addStudentToLab 1 { username := "jane.doe" } (some "admin")) ∧
      ∃ x ∈ (Run.run step (.init .plain) (addedMember "jane.doe")).issued,
        x.2.action = .studentAdd ∧ ¬ x.2.Accepted := by
  have hsent : ∃ x ∈ (Run.run step (.init .plain) (addedMember "jane.doe")).issued,
      x.2.action = .studentAdd ∧ x.2.param "username" = some "jane.doe" := by
    decide +kernel
  obtain ⟨x, hx, haction, hname⟩ := hsent
  refine ⟨rfl, x, hx, haction, ?_⟩
  rintro ⟨username, uid, hname', _, _, haccepted⟩
  cases hname.symm.trans hname'
  cases haccepted.username

end MassDeployment
