import MassDeployment.Controller.Walk

set_option autoImplicit false

/-! # Walking through the calls that enroll

The calls that put students on rosters and accounts on placements, and those that continue
after an `await`. `Enrols A Q` adds to `Walk A Q` what they write. The shorter structures at
the end of the file build a walk for relations that look at few tables.
-/

namespace MassDeployment

open Js Prog

/-- The writes of the calls that enroll respect `Q` too. -/
structure Enrols (A : String → TaskFrame → Prop) (Q : Controller → Controller → Prop) : Prop
    extends Walk A Q where
  spawn : ∀ thread, Thread.Working thread → Respects Q (Op.spawn thread)
  takeThread : ∀ i, Respects Q (takeThread i)
  updateStudents : ∀ p f h, Respects Q (Slot.students.update p f h)
  tryUpdateStudents : ∀ p f h, Respects Q (Slot.students.tryUpdate p f h)
  insertStudentRow : ∀ mk hmk, Respects Q (Slot.students.insert mk hmk)
  insertLabMember : ∀ labId studentId, Respects Q (insertLabMember labId studentId)
  createPlacement : (∀ node frame, TaskFrame.Ordinary frame → A node frame) →
    ∀ input actor, Respects Q (createPlacement input actor)
  provisionMember : (∀ node frame, TaskFrame.Ordinary frame → A node frame) →
    ∀ placement student actor, Respects Q (provisionMemberOnPlacement placement student actor)
  reprovisionMember : (∀ node frame, TaskFrame.Ordinary frame → A node frame) →
    ∀ placement actor m, Respects Q (reprovisionMember placement actor m)

variable {A : String → TaskFrame → Prop} {Q : Controller → Controller → Prop}
  [IsPreorder Controller Q]

/-- A relation that does not look at who is inserted. -/
theorem respects_insertLabMember (h : ∀ mk hmk, Respects Q (Slot.labMembers.insert mk hmk))
    (labId studentId : Nat) : Respects Q (insertLabMember labId studentId) := by
  refine .bind (.read _) fun s => ?_
  split
  · exact .bind (h _ _) fun _ => .pure _
  · exact .throw _

section

variable (w : Enrols A Q)

include w

/-! ## Members -/

section

variable (hA : ∀ node frame, TaskFrame.Ordinary frame → A node frame)

include hA

theorem walk_provisionRoster (placement : Placement) (students : List ProvisionStudent)
    (actor : Option String) : Respects Q (provisionRoster placement students actor) := by
  cases students with
  | nil => exact .pure _
  | cons student rest =>
      exact .bind (w.provisionMember hA _ _ _) fun _ => .pure _

theorem walk_provisionOn (placements : List Placement) (student : ProvisionStudent)
    (actor : Option String) : Respects Q (provisionOn placements student actor) := by
  cases placements with
  | nil => exact .pure _
  | cons placement rest =>
      exact .bind (w.provisionMember hA _ _ _) fun _ => .pure _

theorem walk_reprovisionPlacementMembers (placement : Placement) (actor : Option String) :
    Respects Q (reprovisionPlacementMembers placement actor) :=
  .bind (.read _) fun _ => .forM _ fun _ _ => w.reprovisionMember hA _ _ _

theorem walk_recreatePlacement (placementId : Nat) (input : RecreateInput)
    (actor : Option String)
    (set : ∀ f h, (∀ r, PlacementRow.Quiet r (f r)) →
      Respects Q (updatePlacement placementId f h)) :
    Respects Q (recreatePlacement placementId input actor) := by
  refine .bind (.read _) fun p => ?_
  split
  · exact respects_failWith _
  · refine .bind (respects_validateContainerConfig _ _) fun _ => ?_
    refine .ite (fun _ => respects_failWith _) fun _ => .ite (fun _ => respects_failWith _) fun _ =>
      .ite (fun _ => respects_failWith _) fun _ => ?_
    refine .bind (set _ _ fun _ => .inl rfl) fun _ => ?_
    refine .bind (walk_touch w.toWalk _) fun _ => ?_
    refine .bind (set _ _ fun _ => .inl rfl) fun _ => ?_
    refine .bind (.read _) fun fresh => ?_
    split
    · exact .throw _
    · exact .bind (w.enqueueTask _ _ _ _ fun frame ha hp => hA _ frame
          ⟨ha ▸ nofun, ha ▸ nofun, ha ▸ nofun, fun _ => hp ▸ legible_recreate _⟩) fun _ =>
        .bind (walk_reprovisionPlacementMembers w hA _ _) fun _ => walk_audit w.toWalk _ _ _ _

end

/-! ## Students and rosters -/

theorem walk_insertStudent (username : String) (studentId email name : Option String) :
    Respects Q (insertStudent username studentId email name) := by
  refine .bind (.read _) fun s => ?_
  split
  · exact respects_failWith _
  · exact .bind (w.insertStudentRow _ _) fun _ => .pure _

theorem walk_findOrCreateStudent (input : StudentInput) :
    Respects Q (findOrCreateStudent input) := by
  refine .bind (.read _) fun s => ?_
  dsimp only
  split
  · exact .pure _
  · split
    · exact .pure _
    · exact .atomically (walk_insertStudent w _ _ _ _)

theorem walk_commitRosterPlan (hlab : ∀ labId f h, Respects Q (updateLab labId f h)) (labId : Nat)
    (plan : RosterPlan) :
    Respects Q (commitRosterPlan labId plan) := by
  refine .bind (.read _) fun _ => .bind (.optionForM _ fun _ _ => hlab _ _ _) fun _ => ?_
  refine .bind (.forM _ fun _ _ => .bind (walk_insertStudent w _ _ _ _) fun _ => .pure _) fun _ => ?_
  refine .bind (.forM _ fun u _ => ?_) fun _ => .bind (.optionForM _ fun username _ => ?_) fun _ =>
    .bind (.mapM _ fun username _ => ?_) fun _ => .pure _
  · exact .bind (.read _) fun _ =>
      .bind (.optionForM _ fun _ _ => w.tryUpdateStudents _ _ _) fun _ =>
        w.updateStudents _ _ _
  · refine .bind (.read _) fun row => ?_
    split
    · exact respects_failWith _
    · exact hlab _ _ _
  · refine .bind (.read _) fun row => ?_
    split
    · exact .throw _
    · exact .bind (.read _) fun _ => .ite (fun _ => .pure _) fun _ =>
        .bind (w.insertLabMember _ _) fun _ => .pure _

section

variable (hA : ∀ node frame, TaskFrame.Ordinary frame → A node frame)

include hA

theorem walk_addStudentToLab (labId : Nat) (student : StudentInput) (actor : Option String) :
    Respects Q (addStudentToLab labId student actor) := by
  refine .bind (.read _) fun lab => ?_
  split
  · exact respects_failWith _
  · refine .bind (walk_findOrCreateStudent w _) fun record => .bind (.read _) fun _ => ?_
    refine .ite (fun _ => respects_failWith _) fun _ => .bind (w.insertLabMember _ _) fun _ => ?_
    exact .bind (walk_audit w.toWalk _ _ _ _) fun _ => .bind (.read _) fun _ =>
      walk_provisionOn w hA _ _ _

theorem walk_copyEach (toLabId : Nat) (actor : Option String) (members : List Member) :
    Respects Q (copyEach toLabId actor members) := by
  induction members with
  | nil => exact .pure _
  | cons m rest ih =>
      refine .bind (.read _) fun _ => .ite (fun _ => ih) fun _ => ?_
      exact .bind (walk_addStudentToLab w hA _ _ _) fun _ => .pure _

theorem walk_copyMembers (fromLabId toLabId : Nat) (actor : Option String) :
    Respects Q (copyMembers fromLabId toLabId actor) :=
  .bind (.read _) fun _ => walk_copyEach w hA _ _ _

theorem walk_ensurePiAccess (hlab : ∀ labId f h, Respects Q (updateLab labId f h)) (labId : Nat) (input : StudentInput) (actor : Option String) :
    Respects Q (ensurePiAccess labId input actor) := by
  refine .bind (.read _) fun lab => ?_
  split
  · exact respects_failWith _
  · refine .bind (.read _) fun host => .ite (fun _ => respects_failWith _) fun _ => ?_
    refine .bind (walk_findOrCreateStudent w _) fun record => .ite (fun _ => respects_failWith _) fun _ => ?_
    refine .bind (.read _) fun _ => .bind (w.updateStudents _ _ _) fun _ =>
      .bind (hlab _ _ _) fun _ => ?_
    refine .bind ?_ fun _ => .bind (walk_audit w.toWalk _ _ _ _) fun _ => .bind (.read _) fun _ =>
      walk_provisionOn w hA _ _ _
    exact .bind (.read _) fun _ => .ite (fun _ => .pure _) fun _ => w.insertLabMember _ _

theorem walk_provisionImported (labId : Nat) (actor : Option String)
    (students : List ProvisionStudent) :
    Respects Q (provisionImported labId actor students) := by
  induction students with
  | nil => exact .pure _
  | cons student rest ih =>
      refine .bind (.read _) fun placements => ?_
      split
      · exact ih
      · exact .bind (w.provisionMember hA _ _ _) fun _ => .pure _

theorem walk_applyRosterImport (hcommit : ∀ labId plan, Respects Q (commitRosterPlan labId plan))
    (labId : Nat) (text : String) (actor : Option String) :
    Respects Q (applyRosterImport labId text actor) := by
  refine .bind (.read _) fun s => .ite (fun _ => ?_) fun _ => respects_failWith _
  exact .bind (.atomically (hcommit _ _)) fun _ => .bind (.read _) fun _ =>
    .bind (walk_audit w.toWalk _ _ _ _) fun _ => walk_provisionImported w hA _ _ _

end
/-! ## Resumed calls -/

theorem walk_suspend {waiting : Thread} (h : waiting.Working) : Respects Q (suspend waiting) :=
  .ite (fun _ => .pure _) fun _ => w.spawn _ h

omit w in
theorem Await.Burns.sent {answer : Answer} {await : Await} (h : await.Burns answer) :
    ∃ memberId password node lab username,
      await = .credentialSent memberId password node lab username ∧ answer = .sent := by
  cases await <;> first | exact h.elim | exact ⟨_, _, _, _, _, rfl, h⟩

theorem walk_resume (hA : ∀ node frame, TaskFrame.Ordinary frame → A node frame)
    {answer : Answer} {await : Await} (h : ¬ await.Burns answer)
    (hanswer : ∀ placementId node lab, await = .completionSent placementId node lab → ∀ v,
      Respects Q (updatePlacement placementId fun r => { r with completionEmailSentAt := v })) :
    Respects Q (await.resume answer) := by
  cases await with
  | provisionRoster placement rest actor => exact walk_provisionRoster w hA _ _ _
  | provisionOn rest student actor => exact walk_provisionOn w hA _ _ _
  | copyRest toLabId rest actor => exact walk_copyEach w hA _ _ _
  | importRest labId placements student rest actor =>
      cases placements with
      | nil => exact walk_provisionImported w hA _ _ _
      | cons placement others =>
          exact .bind (w.provisionMember hA _ _ _) fun _ => .pure _
  | credentialSent memberId password node lab username =>
      cases answer with
      | sent => exact absurd rfl h
      | notSent => exact .pure _
      | threw e => exact .bind (walk_logMailFailure w.toWalk _ _ _ _ _ _) fun _ => .pure _
  | completionSent placementId node lab =>
      cases answer with
      | sent =>
          exact .bind (.read _) fun _ => .bind (hanswer _ _ _ rfl _) fun _ => .pure _
      | notSent => exact .bind (hanswer _ _ _ rfl _) fun _ => .pure _
      | threw e => exact .bind (walk_logMailFailure w.toWalk _ _ _ _ _ _) fun _ => .pure _

/-- A suspended call continues, other than to burn a password that was sent. -/
theorem walk_resumeThread (hA : ∀ node frame, TaskFrame.Ordinary frame → A node frame)
    (s : Controller) (i : Nat) (answer : Answer)
    (h : ∀ await callers, s.threads[i]? = some (await :: callers) → ¬ await.Burns answer ∧
      ∀ waiting, Thread.Working waiting → Respects Q (suspend (waiting ++ callers)))
    (hanswer : ∀ placementId v,
      Respects Q (updatePlacement placementId fun r => { r with completionEmailSentAt := v })) :
    Q s ((resumeThread i answer).after s) := by
  unfold resumeThread
  rw [Prog.after, run_read_bind]
  split
  · exact refl_of Q s
  · exact refl_of Q s
  · next await callers heq =>
      obtain ⟨hburn, hcallers⟩ := h _ _ heq
      exact Respects.bind (w.takeThread _) (fun _ =>
        .bind_returns (walk_resume w hA hburn fun _ _ _ _ => hanswer _) (resume_working _ _)
          hcallers) s

/-- It respects `Q` altogether where burning a password does. -/
theorem walk_anyResume (hA : ∀ node frame, TaskFrame.Ordinary frame → A node frame)
    (hspawn : ∀ thread, Respects Q (Op.spawn thread))
    (hmailed : ∀ memberId password, Respects Q (Op.emit (.credentialMailed memberId password)))
    (hclear : ∀ memberId, Respects Q (clearCredential memberId))
    (hanswer : ∀ placementId v,
      Respects Q (updatePlacement placementId fun r => { r with completionEmailSentAt := v }))
    (i : Nat) (answer : Answer) : Respects Q (resumeThread i answer) := by
  refine .bind (.read _) fun thread => ?_
  split
  · exact .pure _
  · exact .pure _
  · next await callers =>
      refine .bind (w.takeThread _) fun _ => .bind ?_ fun _ =>
        .ite (fun _ => .pure _) fun _ => hspawn _
      by_cases h : await.Burns answer
      · obtain ⟨memberId, password, node, lab, username, rfl, rfl⟩ := h.sent
        exact .bind (hmailed _ _) fun _ => .bind (hclear _) fun _ => .pure _
      · exact walk_resume w hA h fun _ _ _ _ => hanswer _

theorem walk_start {x : Op Thread} (h : Respects Q x) (hx : Returns Thread.Working x) :
    Respects Q (start x) := .bind_returns h hx fun _ hwaiting => walk_suspend w hwaiting

/-! ## Acts -/

/-- The acts that enroll students, but for those that name a PI. -/
def Act.Enrolls : Act → Prop
  | .createPlacement .. | .recreatePlacement .. | .addStudentToLab .. | .copyMembers .. => True
  | _ => False

theorem walk_enrolls (hA : ∀ node frame, TaskFrame.Ordinary frame → A node frame) {a : Act}
    (hquotas : a.Requotas → ∀ placementId f h, (∀ r, PlacementRow.Quiet r (f r)) →
      Respects Q (updatePlacement placementId f h))
    (ha : a.Enrolls) : Respects Q a.run := by
  cases a with
  | createPlacement input actor =>
      exact walk_start w (w.createPlacement hA _ _) (createPlacement_working _ _)
  | recreatePlacement id input actor => exact walk_recreatePlacement w hA _ _ _ (hquotas trivial _)
  | addStudentToLab labId student actor =>
      exact walk_start w (walk_addStudentToLab w hA _ _ _) (addStudentToLab_working _ _ _)
  | copyMembers fromLabId toLabId actor =>
      exact walk_start w (walk_copyMembers w hA _ _ _) (.bind fun _ => copyEach_working _ _ _)
  | _ => exact ha.elim

/-- The acts that name a PI. -/
def Act.Designates : Act → Prop
  | .ensurePiAccess .. | .applyRosterImport .. => True
  | _ => False

theorem walk_designates (hA : ∀ node frame, TaskFrame.Ordinary frame → A node frame)
    (hlab : ∀ labId f h, Respects Q (updateLab labId f h)) {a : Act} (ha : a.Designates) :
    Respects Q a.run := by
  cases a with
  | ensurePiAccess labId student actor =>
      exact walk_start w (walk_ensurePiAccess w hA hlab _ _ _) (ensurePiAccess_working _ _ _)
  | applyRosterImport labId text actor =>
      exact walk_start w (walk_applyRosterImport w hA (walk_commitRosterPlan w hlab) _ _ _)
        (applyRosterImport_working _ _ _)
  | _ => exact ha.elim

/-- The acts whose functions are walked through above: all but results, removals of students,
the burning of passwords and the registry of nodes. -/
def Act.Routine (a : Act) : Prop := a.Upkeep ∨ a.Enrolls ∨ a.Designates

/-- **Every routine act respects `Q`.** -/
theorem walk_act (hA : ∀ node frame, TaskFrame.Ordinary frame → A node frame)
    (hlab : ∀ labId f h, Respects Q (updateLab labId f h)) {a : Act}
    (hcompletion : a.Completes → ∀ lab node, Respects Q (startCompletionMail lab node))
    (hquotas : a.Requotas → ∀ placementId f h, (∀ r, PlacementRow.Quiet r (f r)) →
      Respects Q (updatePlacement placementId f h))
    (htelemetry : ∀ node payload, a = .frame node (.telemetry payload) → Respects Q a.run)
    (ha : a.Routine) : Respects Q a.run := by
  rcases ha with ha | ha | ha
  · exact walk_upkeep w.toWalk (fun _ _ h => hA _ _ h.1) hcompletion hquotas htelemetry ha
  · exact walk_enrolls w hA hquotas ha
  · exact walk_designates w hA hlab ha

end

/-! ## Relations that few guards matter for -/

/-- The writes respect `Q` whatever the guards around them say, but for members and mail: `Q`
does not look at labs, students, rosters, placements and tasks. -/
structure TableWalk (Q : Controller → Controller → Prop) : Prop where
  lists : ∀ f h, Respects Q (Op.writeLists f h)
  emit : ∀ e : Event, e.Plain → Respects Q (Op.emit e)
  alertState : ∀ key st, Respects Q (setAlertState key st)
  gpuMailState : ∀ key now, Respects Q (emailGpuEvent.setGpuMailState key now)
  draw : ∀ {α : Type} (f : Host → Nat → α), Respects Q (Op.draw f)
  spawn : ∀ thread, Thread.Silent thread → Respects Q (Op.spawn thread)
  takeThread : ∀ i, Respects Q (takeThread i)
  clock : ∀ f h, (∀ s : Controller, ∃ now settings,
      s.now ≤ now ∧ f s = { s with now := now, settings := settings }) →
    Respects Q (.write f h : Op Unit)
  claimTask : ∀ node workerId, Respects Q (claimTask node workerId)
  ackTask : ∀ node jobId workerId, Respects Q (ackTask node jobId workerId)
  retryTask : ∀ node jobId workerId, Respects Q (retryTask node jobId workerId)
  updateTasks : ∀ p f h, Respects Q (updateTasks p f h)
  enqueueTask : ∀ node action params requestedBy,
    Respects Q (enqueueTask node action params requestedBy)
  updateNode : ∀ name f h, (∀ r, NodeRow.Alike r (f r)) → Respects Q (updateNode name f h)
  labs : ∀ s T, Q s (Slot.labs.set s T)
  students : ∀ s T, Q s (Slot.students.set s T)
  labMembers : ∀ s T, Q s (Slot.labMembers.set s T)
  labPlacements : ∀ s T, Q s (Slot.labPlacements.set s T)
  provisionMember : ∀ placement student actor,
    Respects Q (provisionMemberOnPlacement placement student actor)
  reprovisionMember : ∀ placement actor m, Respects Q (reprovisionMember placement actor m)
  deleteMembers : ∀ p, Respects Q (Slot.placementMembers.delete p)
  startCredentialMail : ∀ labName node username,
    Respects Q (startCredentialMail labName node username)

section

variable {ρ : Type} [Row ρ] {t : Slot ρ} (h : ∀ s T, Q s (t.set s T))

include h

theorem respects_insert (mk : Nat → ρ) (hmk) : Respects Q (t.insert mk hmk) := by
  refine .exchange fun s a s' hs => ?_
  split at hs
  · cases hs
    exact h _ _
  · cases hs

theorem respects_tryUpdate (p : ρ → Bool) (f : ρ → ρ) (hf) : Respects Q (t.tryUpdate p f hf) := by
  refine .exchange fun s a s' hs => ?_
  split at hs
  · cases hs
    exact h _ _
  · cases hs

omit [IsPreorder Controller Q] in
theorem respects_update (p : ρ → Bool) (f : ρ → ρ) (hf) : Respects Q (t.update p f hf) :=
  fun _ => h _ _

omit [IsPreorder Controller Q] in
theorem respects_delete (p : ρ → Bool) : Respects Q (t.delete p) := fun _ => h _ _

end

namespace TableWalk

variable (w : TableWalk Q)

include w

theorem deletePlacements (victim : PlacementRow → Bool) :
    Respects Q (MassDeployment.deletePlacements victim) :=
  .bind (.read _) fun _ => .bind (respects_delete w.labPlacements _) fun _ =>
    .bind (w.deleteMembers _) fun _ => w.lists _ _

theorem deleteLabRow (labId : Nat) : Respects Q (MassDeployment.deleteLabRow labId) :=
  .bind (w.deletePlacements _) fun _ => .bind (respects_delete w.labMembers _) fun _ =>
    .bind (w.lists _ _) fun _ => respects_delete w.labs _

theorem deleteStudentRow (studentId : Nat) :
    Respects Q (MassDeployment.deleteStudentRow studentId) :=
  .bind (.read _) fun _ => .ite (fun _ => .throw _) fun _ =>
    .bind (respects_delete w.labMembers _) fun _ =>
      .bind (w.deleteMembers _) fun _ => .bind (w.lists _ _) fun _ =>
        respects_delete w.students _

theorem insertPlacement (labId nodeId : Nat) (mk : Nat → PlacementRow) (hmk) :
    Respects Q (MassDeployment.insertPlacement labId nodeId mk hmk) := by
  refine .bind (.read _) fun s => ?_
  split
  · exact respects_insert w.labPlacements _ _
  · exact .throw _

theorem retryPlacement (placementId : Nat) (actor : Option String) :
    Respects Q (MassDeployment.retryPlacement placementId actor) := by
  refine .bind (.read _) fun p => ?_
  split
  · exact respects_failWith _
  · refine .ite (fun _ => respects_failWith _) fun _ => .bind (.read _) fun _ => ?_
    exact .bind (respects_update w.labPlacements _ _ _) fun _ =>
      .bind (.bind (w.enqueueTask _ _ _ _) fun _ => .pure _) fun _ =>
        .bind (.read _) fun _ => w.lists _ _

/-- A relation that few guards matter for is carried through the controller. -/
theorem enrols : Enrols (fun _ _ => True) Q where
  lists f h _ := w.lists f h
  emit := w.emit
  alertState := w.alertState
  gpuMailState := w.gpuMailState
  draw := w.draw
  spawn thread h := w.spawn thread h.silent
  takeThread := w.takeThread
  clock := w.clock
  claimTask := w.claimTask
  ackTask := w.ackTask
  retryTask := w.retryTask
  updateTasks p f h _ := w.updateTasks p f h
  enqueueTask node action params requestedBy _ := w.enqueueTask node action params requestedBy
  updateNode := w.updateNode
  updateLab _ _ _ _ := respects_update w.labs _ _ _
  insertLab mk hmk _ := respects_insert w.labs mk hmk
  updateStudents := respects_update w.students
  tryUpdateStudents := respects_tryUpdate w.students
  insertStudentRow := respects_insert w.students
  insertLabMember := respects_insertLabMember (respects_insert w.labMembers)
  updatePlacements p f h _ _ _ := respects_update w.labPlacements p f h
  createPlacement _ := respects_createPlacement (fun _ _ _ _ _ => w.enqueueTask _ _ _ _)
    (fun _ _ _ _ => .bind (.read _) fun _ => w.lists _ _)
    (fun labId nodeId mk hmk _ => w.insertPlacement labId nodeId mk hmk) w.provisionMember
  forceDeletePlacement _ := respects_forceDeletePlacement (fun _ _ _ _ _ => w.enqueueTask _ _ _ _)
    (fun _ _ _ _ => .bind (.read _) fun _ => w.lists _ _) w.deletePlacements
  provisionMember _ := w.provisionMember
  reprovisionMember _ := w.reprovisionMember
  deleteLabRow := w.deleteLabRow
  deleteStudentRow := w.deleteStudentRow
  retryPlacement _ := w.retryPlacement
  startCredentialMail := w.startCredentialMail

end TableWalk

/-! ## Relations that look at few rows -/

/-- `Q` does not look at members, tasks, mail and threads. It may look at quota alerts. -/
structure MemberWalk (Q : Controller → Controller → Prop) : Prop where
  lists : ∀ f h, (∀ d, Db.SameAlerts d (f d)) → Respects Q (Op.writeLists f h)
  emit : ∀ e : Event, Respects Q (Op.emit e)
  alertState : ∀ key st, Respects Q (setAlertState key st)
  gpuMailState : ∀ key now, Respects Q (emailGpuEvent.setGpuMailState key now)
  draw : ∀ {α : Type} (f : Host → Nat → α), Respects Q (Op.draw f)
  spawn : ∀ thread, Respects Q (Op.spawn thread)
  takeThread : ∀ i, Respects Q (takeThread i)
  clock : ∀ f h, (∀ s : Controller, ∃ now settings,
      s.now ≤ now ∧ f s = { s with now := now, settings := settings }) →
    Respects Q (.write f h : Op Unit)
  claimTask : ∀ node workerId, Respects Q (claimTask node workerId)
  ackTask : ∀ node jobId workerId, Respects Q (ackTask node jobId workerId)
  retryTask : ∀ node jobId workerId, Respects Q (retryTask node jobId workerId)
  updateTasks : ∀ p f h, Respects Q (updateTasks p f h)
  enqueueTask : ∀ node action params requestedBy,
    Respects Q (enqueueTask node action params requestedBy)
  updateNode : ∀ name f h, (∀ r, NodeRow.Alike r (f r)) → Respects Q (updateNode name f h)
  placementMembers : ∀ s T, Q s (Slot.placementMembers.set s T)

/-- Nodes, labs, students, rosters and placements are what they were. -/
structure SameRows (s s' : Controller) : Prop where
  nodes : s'.db.nodes = s.db.nodes
  labs : s'.db.labs = s.db.labs
  students : s'.db.students = s.db.students
  labMembers : s'.db.labMembers = s.db.labMembers
  labPlacements : s'.db.labPlacements = s.db.labPlacements

omit [IsPreorder Controller Q] in
theorem lists_of_rows (hsame : ∀ s s', SameRows s s' → Q s s') (f : Db → Db) (h) :
    Respects Q (Op.writeLists f h) := fun s =>
  have he := h s.db
  hsame _ _ ⟨he.1, he.2.1, he.2.2.1, he.2.2.2.1, he.2.2.2.2.1⟩

/-- A relation on these tables does not look at the rest of the state. -/
theorem memberWalk_of_rows (hsame : ∀ s s', SameRows s s' → Q s s')
    (hnode : ∀ name f h, (∀ r, NodeRow.Alike r (f r)) → Respects Q (updateNode name f h)) :
    MemberWalk Q where
  lists f h _ := lists_of_rows hsame f h
  emit _ _ := hsame _ _ ⟨rfl, rfl, rfl, rfl, rfl⟩
  alertState _ _ _ := hsame _ _ ⟨rfl, rfl, rfl, rfl, rfl⟩
  gpuMailState _ _ _ := hsame _ _ ⟨rfl, rfl, rfl, rfl, rfl⟩
  draw _ _ := hsame _ _ ⟨rfl, rfl, rfl, rfl, rfl⟩
  spawn _ _ := hsame _ _ ⟨rfl, rfl, rfl, rfl, rfl⟩
  takeThread _ _ := hsame _ _ ⟨rfl, rfl, rfl, rfl, rfl⟩
  clock f h hf s := by
    obtain ⟨now, settings, -, he⟩ := hf s
    show Q s (f s)
    rw [he]
    exact hsame _ _ ⟨rfl, rfl, rfl, rfl, rfl⟩
  claimTask node workerId := by
    refine .bind (.read _) fun claimed => ?_
    split
    · exact .pure _
    · exact .bind (fun _ => hsame _ _ ⟨rfl, rfl, rfl, rfl, rfl⟩) fun _ =>
        .bind (respects_lift _) fun _ => .pure _
  ackTask _ _ _ _ := hsame _ _ ⟨rfl, rfl, rfl, rfl, rfl⟩
  retryTask _ _ _ := .bind (.read _) fun _ _ => hsame _ _ ⟨rfl, rfl, rfl, rfl, rfl⟩
  updateTasks _ _ _ _ := hsame _ _ ⟨rfl, rfl, rfl, rfl, rfl⟩
  enqueueTask node action params requestedBy s := by
    simp only [enqueueTask]
    split <;> exact hsame _ _ ⟨rfl, rfl, rfl, rfl, rfl⟩
  updateNode := hnode
  placementMembers _ _ := hsame _ _ ⟨rfl, rfl, rfl, rfl, rfl⟩

namespace MemberWalk

variable (w : MemberWalk Q)

include w

theorem audit (actor : Option String) (action : String) (target detail : Option String) :
    Respects Q (MassDeployment.audit actor action target detail) :=
  .bind (.read _) fun _ => w.lists _ _ fun _ => ⟨rfl, rfl⟩

theorem clearCredential (memberId : Nat) : Respects Q (MassDeployment.clearCredential memberId) :=
  .bind (.read _) fun _ => respects_update w.placementMembers _ _ _

theorem provisionMember (placement : Placement) (student : ProvisionStudent)
    (actor : Option String) :
    Respects Q (provisionMemberOnPlacement placement student actor) := by
  refine .bind (.read _) fun _ => .ite (fun _ => .pure _) fun _ => .bind (w.draw _) fun _ =>
    .bind (w.draw _) fun _ => .bind (.bind (.read _) fun s => ?_) fun _ =>
      .bind (w.enqueueTask _ _ _ _) fun _ => .pure _
  split
  · exact .bind (respects_insert w.placementMembers _ _) fun _ => .pure _
  · exact .throw _

theorem reprovisionMember (placement : Placement) (actor : Option String)
    (m : PlacementMemberRow × StudentRow) :
    Respects Q (MassDeployment.reprovisionMember placement actor m) :=
  .bind (w.draw _) fun _ => .bind (w.draw _) fun _ => .bind (.read _) fun _ =>
    .bind (respects_update w.placementMembers _ _ _) fun _ =>
      .bind (w.enqueueTask _ _ _ _) fun _ => .pure _

theorem deliverPlacementCredential (labName : Value) (nodeName : String) (username : Value) :
    Respects Q (MassDeployment.deliverPlacementCredential labName nodeName username) := by
  refine .bind (.bind (.read _) fun _ => respects_lift _) fun pending => ?_
  split
  · exact .pure _
  · split
    · refine .bind (.read _) fun _ => .ite (fun _ => .pure _) fun _ => ?_
      exact .bind (w.emit _) fun _ => .pure _
    · exact .pure _

theorem consumePlacementCredential (placementId studentId : Nat) (actor : Option String) :
    Respects Q (MassDeployment.consumePlacementCredential placementId studentId actor) :=
  respects_consumePlacementCredential w.clearCredential w.audit (fun _ _ _ _ _ => w.emit _) _ _ _

theorem startCredentialMail (labName : Value) (node : String) (username : Value) :
    Respects Q (MassDeployment.startCredentialMail labName node username) := by
  refine .bind (.tryCatch (w.deliverPlacementCredential _ _ _) fun e => ?_) fun _ =>
    .ite (fun _ => .pure _) fun _ => w.spawn _
  refine .bind (.bind (.read _) fun _ => ?_) fun _ => .pure _
  split
  · exact w.lists _ _ fun _ => ⟨rfl, rfl⟩
  · exact .pure _

theorem startCompletionMail
    (hset : ∀ placementId v,
      Respects Q (updatePlacement placementId fun r => { r with completionEmailSentAt := v }))
    (labName : Value) (node : String) :
    Respects Q (MassDeployment.startCompletionMail labName node) :=
  respects_startCompletionMail (fun _ => hset _ _) (fun _ _ _ _ _ => w.emit _) (fun _ _ _ => w.spawn _)
    w.lists labName node

theorem removeStudentFromLab (labId studentId : Nat) (deleteData : Bool) (actor : Option String)
    (hroster : Respects Q
      (Slot.labMembers.delete fun m => m.labId == labId && m.studentId == studentId)) :
    Respects Q (MassDeployment.removeStudentFromLab labId studentId deleteData actor) := by
  refine .bind (.read _) fun lab => ?_
  split
  · exact respects_failWith _
  · refine .ite (fun _ => respects_failWith _) fun _ => .bind (.read _) fun member => ?_
    split
    · exact respects_failWith _
    · refine .bind (.read _) fun placements => .bind ?_ fun removal => .bind (.forM _ fun p _ => ?_)
        fun _ => .bind hroster fun _ => .bind (w.audit _ _ _ _) fun _ => ?_
      · exact .ite (fun _ => .bind (w.draw _) fun _ => .pure _) fun _ => .pure _
      · exact .bind (w.enqueueTask _ _ _ _) fun _ => respects_delete w.placementMembers _
      · unfold removeStudentFromLab.notify
        split
        · exact .ite (fun _ => .pure _) fun _ => w.emit _
        · exact .pure _

/-- The registry of nodes: two of its functions write what a node says of its cold storage, and
one deletes it. -/
theorem registry
    (hupdate : ∀ name f h, (∀ r, (f r).cold = r.cold) →
      Respects Q (MassDeployment.updateNode name f h))
    (hinsert : ∀ mk hmk, (∀ i, (mk i).coldOwnerNodeId = none) →
      Respects Q (Slot.nodes.insert mk hmk))
    (hdelete : ∀ name actor force, Respects Q (deleteNode name actor force))
    (hset : ∀ name backend ownerName actor,
      Respects Q (setNodeColdStorage name backend ownerName actor))
    {a : Act} (ha : a.Registry) : Respects Q a.run := by
  have provision : ∀ name actor, Respects Q (provisionNode name actor) := by
    refine fun name actor => .ite (fun _ => .bind (w.draw _) fun _ => .bind (.read _) fun s => ?_)
      fun _ => respects_failWith _
    dsimp only
    split
    · exact .bind (hupdate _ _ _ fun _ => rfl) fun _ => .bind (w.audit _ _ _ _) fun _ => .pure _
    · exact .bind (hinsert _ _ fun _ => rfl) fun _ => .bind (w.audit _ _ _ _) fun _ => .pure _
  cases a with
  | provisionNode name actor => exact .bind (provision _ _) fun _ => .pure _
  | rotateNodeToken name actor =>
      refine .bind (.bind (.read _) fun row => ?_) fun _ => .pure _
      split
      · exact respects_failWith _
      · exact provision _ _
  | revokeNode name actor => exact .bind (hupdate _ _ _ fun _ => rfl) fun _ => w.audit _ _ _ _
  | deleteNode name actor force => exact hdelete _ _ _
  | setNodeColdStorage name backend ownerName actor => exact hset _ _ _ _
  | registerNode node capabilities =>
      refine .bind (.read _) fun s => ?_
      split
      · exact hupdate _ _ _ fun _ => rfl
      · exact .bind (hinsert _ _ fun _ => rfl) fun _ => .pure _
  | deregisterNode node => exact .bind (.read _) fun _ => hupdate _ _ _ fun _ => rfl
  | _ => exact ha.elim

/-- A relation that does not look at members is carried through the controller by what the
other writes do. -/
theorem enrols
    (updateLab : ∀ labId f h, (∀ r, (f r).piStudentId = r.piStudentId) →
      Respects Q (MassDeployment.updateLab labId f h))
    (insertLab : ∀ mk hmk, (∀ i, (mk i).name ≠ "" ∧ (mk i).piStudentId = none) →
      Respects Q (Slot.labs.insert mk hmk))
    (updateStudents : ∀ p f h, Respects Q (Slot.students.update p f h))
    (tryUpdateStudents : ∀ p f h, Respects Q (Slot.students.tryUpdate p f h))
    (insertStudentRow : ∀ mk hmk, Respects Q (Slot.students.insert mk hmk))
    (insertLabMember : ∀ labId studentId,
      Respects Q (MassDeployment.insertLabMember labId studentId))
    (updatePlacements : ∀ p f h, (∀ r, PlacementRow.Quiet r (f r)) →
      (∀ r, (f r).quotas = r.quotas) → Respects Q (Slot.labPlacements.update p f h))
    (createPlacement : ∀ input actor, Respects Q (MassDeployment.createPlacement input actor))
    (retryPlacement : ∀ placementId actor,
      Respects Q (MassDeployment.retryPlacement placementId actor))
    (forceDeletePlacement : ∀ placementId actor,
      Respects Q (MassDeployment.forceDeletePlacement placementId actor))
    (deleteLabRow : ∀ labId, Respects Q (MassDeployment.deleteLabRow labId))
    (deleteStudentRow : ∀ studentId, Respects Q (MassDeployment.deleteStudentRow studentId)) :
    Enrols (fun _ _ => True) Q where
  lists := w.lists
  emit e _ := w.emit e
  alertState := w.alertState
  gpuMailState := w.gpuMailState
  draw := w.draw
  spawn thread _ := w.spawn thread
  takeThread := w.takeThread
  clock := w.clock
  claimTask := w.claimTask
  ackTask := w.ackTask
  retryTask := w.retryTask
  updateTasks p f h _ := w.updateTasks p f h
  enqueueTask node action params requestedBy _ := w.enqueueTask node action params requestedBy
  updateNode := w.updateNode
  updateLab := updateLab
  insertLab := insertLab
  updateStudents := updateStudents
  tryUpdateStudents := tryUpdateStudents
  insertStudentRow := insertStudentRow
  insertLabMember := insertLabMember
  updatePlacements p f h hf hq _ := updatePlacements p f h hf hq
  createPlacement _ := createPlacement
  forceDeletePlacement _ := forceDeletePlacement
  provisionMember _ := w.provisionMember
  reprovisionMember _ := w.reprovisionMember
  deleteLabRow := deleteLabRow
  deleteStudentRow := deleteStudentRow
  retryPlacement _ := retryPlacement
  startCredentialMail := w.startCredentialMail

end MemberWalk

/-- `Q` looks at placements, and at nothing but them and the registry of nodes. The functions
that create, retry and delete placements respect it by their guards. -/
structure RowWalk (Q : Controller → Controller → Prop) : Prop extends MemberWalk Q where
  anyLists : ∀ f h, Respects Q (Op.writeLists f h)
  labs : ∀ s T, Q s (Slot.labs.set s T)
  students : ∀ s T, Q s (Slot.students.set s T)
  labMembers : ∀ s T, Q s (Slot.labMembers.set s T)
  updatePlacements : ∀ p f h, (∀ r, PlacementRow.Quiet r (f r)) →
    (∀ r, (f r).quotas = r.quotas) → Respects Q (Slot.labPlacements.update p f h)
  createPlacement : ∀ input actor, Respects Q (createPlacement input actor)
  retryPlacement : ∀ placementId actor, Respects Q (retryPlacement placementId actor)
  forceDeletePlacement : ∀ placementId actor, Respects Q (forceDeletePlacement placementId actor)
  deleteLabRow : ∀ labId, Respects Q (deleteLabRow labId)

/-- A relation on placements is carried through the controller. -/
theorem RowWalk.enrols (w : RowWalk Q) : Enrols (fun _ _ => True) Q :=
  w.toMemberWalk.enrols (fun _ _ _ _ => respects_update w.labs _ _ _)
    (fun mk hmk _ => respects_insert w.labs mk hmk) (respects_update w.students)
    (respects_tryUpdate w.students) (respects_insert w.students)
    (respects_insertLabMember (respects_insert w.labMembers)) w.updatePlacements w.createPlacement w.retryPlacement w.forceDeletePlacement w.deleteLabRow
    fun _ =>
      .bind (.read _) fun _ => .ite (fun _ => .throw _) fun _ =>
        .bind (respects_delete w.labMembers _) fun _ =>
          .bind (respects_delete w.placementMembers _) fun _ =>
            .bind (w.anyLists _ _) fun _ => respects_delete w.students _

omit [IsPreorder Controller Q] in
theorem RowWalk.setCompletion (w : RowWalk Q) (placementId : Nat) (v : Option Int) :
    Respects Q (updatePlacement placementId fun r => { r with completionEmailSentAt := v }) :=
  w.updatePlacements _ _ _ (fun _ => .inl rfl) fun _ => rfl

/-- **Every act respects `Q`**, but for results, the registry of nodes and the changes of
quotas. -/
theorem RowWalk.act (w : RowWalk Q) {a : Act} (hreg : ¬ a.Registry)
    (hresult : ∀ node frame, a = .frame node (.result frame) → Respects Q a.run)
    (hquotas : a.Requotas → ∀ placementId f h, (∀ r, PlacementRow.Quiet r (f r)) →
      Respects Q (updatePlacement placementId f h)) : Respects Q a.run := by
  have free : ∀ node frame, TaskFrame.Ordinary frame →
      (fun _ _ => True : String → TaskFrame → Prop) node frame := fun _ _ _ => trivial
  have upkeep : a.Upkeep → Respects Q a.run :=
    walk_upkeep w.enrols.toWalk (fun _ _ _ => trivial)
      (fun _ => w.startCompletionMail w.setCompletion) hquotas
      (walk_telemetry w.enrols.toWalk w.anyLists)
  cases a with
  | provisionNode | rotateNodeToken | revokeNode | deleteNode | setNodeColdStorage
  | registerNode | deregisterNode => exact absurd trivial hreg
  | frame node received =>
      cases received with
      | result frame => exact hresult _ _ rfl
      | _ => exact upkeep trivial
  | removeStudentFromLab labId studentId deleteData actor =>
      exact walk_removeStudentFromLab w.enrols.toWalk (fun _ _ _ => trivial)
        (respects_delete w.placementMembers) (respects_delete w.labMembers) _ _ _ _
  | consumePlacementCredential placementId studentId actor =>
      exact respects_discard (w.consumePlacementCredential _ _ _)
  | resume i answer =>
      exact walk_anyResume w.enrols free w.spawn (fun _ _ => w.emit _) w.clearCredential
        w.setCompletion i answer
  | createPlacement | recreatePlacement | addStudentToLab | copyMembers =>
      exact walk_enrolls w.enrols free hquotas trivial
  | ensurePiAccess | applyRosterImport =>
      exact walk_designates w.enrols free (fun _ _ _ => respects_update w.labs _ _ _) trivial
  | _ => exact upkeep trivial

/-- `Q` looks at labs, students and rosters, and at nothing but them. -/
structure LabWalk (Q : Controller → Controller → Prop) : Prop extends MemberWalk Q where
  anyLists : ∀ f h, Respects Q (Op.writeLists f h)
  nodes : ∀ s T, Q s (Slot.nodes.set s T)
  labPlacements : ∀ s T, Q s (Slot.labPlacements.set s T)
  deleteTasks : ∀ p, Respects Q (deleteTasks p)
  updateLab : ∀ labId f h, (∀ r, (f r).piStudentId = r.piStudentId) →
    Respects Q (updateLab labId f h)
  insertLab : ∀ mk hmk, (∀ i, (mk i).name ≠ "" ∧ (mk i).piStudentId = none) →
    Respects Q (Slot.labs.insert mk hmk)
  updateStudents : ∀ p f h, Respects Q (Slot.students.update p f h)
  tryUpdateStudents : ∀ p f h, Respects Q (Slot.students.tryUpdate p f h)
  insertStudentRow : ∀ mk hmk, Respects Q (Slot.students.insert mk hmk)
  insertLabMember : ∀ labId studentId, Respects Q (insertLabMember labId studentId)
  deleteLabRow : ∀ labId, Respects Q (deleteLabRow labId)
  deleteStudentRow : ∀ studentId, Respects Q (deleteStudentRow studentId)

namespace LabWalk

variable (w : LabWalk Q)

include w

theorem deletePlacements (victim : PlacementRow → Bool) :
    Respects Q (MassDeployment.deletePlacements victim) :=
  .bind (.read _) fun _ => .bind (respects_delete w.labPlacements _) fun _ =>
    .bind (respects_delete w.placementMembers _) fun _ => w.anyLists _ _

omit [IsPreorder Controller Q] in
theorem setCompletion (placementId : Nat) (v : Option Int) :
    Respects Q (updatePlacement placementId fun r => { r with completionEmailSentAt := v }) :=
  respects_update w.labPlacements _ _ _

/-- A relation on labs and rosters is carried through the controller. -/
theorem enrols : Enrols (fun _ _ => True) Q := by
  have henqueue : ∀ node action params requestedBy,
      (∀ frame : TaskFrame, frame.action = action → frame.params = params → frame.Upkeep) →
      Respects Q (MassDeployment.enqueueTask node action params requestedBy) :=
    fun node action params requestedBy _ => w.enqueueTask node action params requestedBy
  refine w.toMemberWalk.enrols w.updateLab w.insertLab w.updateStudents w.tryUpdateStudents
    w.insertStudentRow w.insertLabMember (fun p f h _ _ => respects_update w.labPlacements p f h)
    ?_ ?_ ?_ w.deleteLabRow w.deleteStudentRow
  · refine respects_createPlacement henqueue w.audit (fun _ _ mk hmk _ => ?_) w.provisionMember
    refine .bind (.read _) fun s => ?_
    split
    · exact respects_insert w.labPlacements _ _
    · exact .throw _
  · exact respects_retryPlacement henqueue w.audit fun s _ _ _ => w.labPlacements s _
  · exact respects_forceDeletePlacement henqueue w.audit w.deletePlacements

/-- **Every act but those that name a PI and the removal of a student respects `Q`.** -/
theorem act {a : Act} (ha : ¬ a.Designates)
    (hremove : ∀ labId studentId deleteData actor,
      a = .removeStudentFromLab labId studentId deleteData actor → Respects Q a.run) :
    Respects Q a.run := by
  by_cases hreg : a.Registry
  · exact walk_registryAct w.enrols.toWalk w.nodes w.deletePlacements
      (fun _ _ _ _ => w.deleteTasks _) hreg
  have upkeep : a.Upkeep → Respects Q a.run :=
    walk_upkeep w.enrols.toWalk (fun _ _ _ => trivial)
      (fun _ => w.startCompletionMail w.setCompletion)
      (fun _ _ _ _ _ => respects_update w.labPlacements _ _ _)
      (walk_telemetry w.enrols.toWalk w.anyLists)
  have enrolls : a.Enrolls → Respects Q a.run :=
    walk_enrolls w.enrols (fun _ _ _ => trivial) fun _ _ _ _ _ =>
      respects_update w.labPlacements _ _ _
  cases a with
  | frame node received =>
      cases received with
      | result frame =>
          exact walk_handleResult w.enrols.toWalk (fun _ _ _ => trivial) w.updateTasks
            w.deletePlacements (fun _ _ _ => w.emit _)
            (fun _ _ _ _ _ => respects_update w.labPlacements _ _ _)
            (fun _ _ _ _ => respects_update w.placementMembers _ _ _)
            (w.startCompletionMail w.setCompletion) node frame
      | _ => exact upkeep trivial
  | removeStudentFromLab labId studentId deleteData actor => exact hremove _ _ _ _ rfl
  | consumePlacementCredential placementId studentId actor =>
      exact respects_discard (w.consumePlacementCredential _ _ _)
  | resume i answer =>
      exact walk_anyResume w.enrols (fun _ _ _ => trivial)
        w.spawn (fun _ _ => w.emit _) w.clearCredential w.setCompletion i answer
  | provisionNode | rotateNodeToken | revokeNode | deleteNode | setNodeColdStorage
  | registerNode | deregisterNode => exact absurd trivial hreg
  | ensurePiAccess | applyRosterImport => exact absurd trivial ha
  | createPlacement | recreatePlacement | addStudentToLab | copyMembers => exact enrolls trivial
  | _ => exact upkeep trivial

end LabWalk

/-! ## Relations that no guard matters for -/

/-- The writes respect `Q` whatever the guards around them say: `Q` does not look at labs,
students, rosters, placements, members, tasks or mail. -/
structure FreeWalk (Q : Controller → Controller → Prop) : Prop extends MemberWalk Q where
  anyLists : ∀ f h, Respects Q (Op.writeLists f h)
  lists := fun f h _ => anyLists f h
  labs : ∀ s T, Q s (Slot.labs.set s T)
  students : ∀ s T, Q s (Slot.students.set s T)
  labMembers : ∀ s T, Q s (Slot.labMembers.set s T)
  labPlacements : ∀ s T, Q s (Slot.labPlacements.set s T)

namespace FreeWalk

variable (w : FreeWalk Q)

include w

theorem tables : TableWalk Q :=
  { w.toMemberWalk, w with
    lists := w.anyLists
    emit := fun e _ => w.emit e
    spawn := fun thread _ => w.spawn thread
    provisionMember := w.provisionMember
    reprovisionMember := w.reprovisionMember
    deleteMembers := respects_delete w.placementMembers
    startCredentialMail := w.startCredentialMail }

omit [IsPreorder Controller Q] in
theorem setCompletion (placementId : Nat) (v : Option Int) :
    Respects Q (updatePlacement placementId fun r => { r with completionEmailSentAt := v }) :=
  respects_update w.labPlacements _ _ _

/-- A relation that no guard matters for is carried through the controller. -/
theorem enrols : Enrols (fun _ _ => True) Q := w.tables.enrols

/-- The result of a task, whatever it does to its rows. -/
theorem handleResult (node : String) (frame : ResultFrame) :
    Respects Q (MassDeployment.handleResult node frame) :=
  walk_handleResult w.enrols.toWalk (fun _ _ _ => trivial) w.updateTasks w.tables.deletePlacements (fun _ _ _ => w.emit _)
    (fun _ _ _ _ _ => respects_update w.labPlacements _ _ _)
    (fun _ _ _ _ => respects_update w.placementMembers _ _ _)
    (w.startCompletionMail w.setCompletion) node frame

theorem routine {a : Act} (ha : a.Routine) : Respects Q a.run :=
  walk_act w.enrols (fun _ _ _ => trivial) (fun _ _ _ => respects_update w.labs _ _ _)
    (fun _ => w.startCompletionMail w.setCompletion)
    (fun _ _ _ _ _ => respects_update w.labPlacements _ _ _)
    (walk_telemetry w.enrols.toWalk w.anyLists) ha

/-- **Every act outside the registry of nodes respects `Q`.** -/
theorem act {a : Act} (ha : ¬ a.Registry) : Respects Q a.run := by
  cases a with
  | frame node received =>
      cases received with
      | result frame => exact w.handleResult _ _
      | _ => exact w.routine (.inl trivial)
  | removeStudentFromLab labId studentId deleteData actor =>
      exact walk_removeStudentFromLab w.enrols.toWalk (fun _ _ _ => trivial)
        (respects_delete w.placementMembers) (respects_delete w.labMembers) _ _ _ _
  | consumePlacementCredential placementId studentId actor =>
      exact respects_discard (w.consumePlacementCredential _ _ _)
  | resume i answer =>
      exact walk_anyResume w.enrols (fun _ _ _ => trivial)
        w.spawn (fun _ _ => w.emit _) w.clearCredential w.setCompletion i answer
  | provisionNode | rotateNodeToken | revokeNode | deleteNode | setNodeColdStorage
  | registerNode | deregisterNode => exact absurd trivial ha
  | createPlacement | recreatePlacement | addStudentToLab | copyMembers =>
      exact w.routine (.inr (.inl trivial))
  | ensurePiAccess | applyRosterImport => exact w.routine (.inr (.inr trivial))
  | _ => exact w.routine (.inl trivial)

/-- **Every act respects a relation that does not look at nodes either.** -/
theorem anyAct (hn : ∀ s T, Q s (Slot.nodes.set s T)) {a : Act}
    (hd : ∀ name actor force, a = .deleteNode name actor force →
      Respects Q (deleteTasks fun t => t.node == name)) : Respects Q a.run := by
  by_cases ha : a.Registry
  · exact walk_registryAct w.enrols.toWalk hn w.tables.deletePlacements hd ha
  · exact w.act ha

end FreeWalk

end MassDeployment