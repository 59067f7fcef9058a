import MassDeployment.Controller.Enrols
import MassDeployment.Controller.Writes

set_option autoImplicit false

/-! # Every call but the arrival of a result is quiet

The writes of `Writes` and the functions below make `Quiet` a relation that `Walk` carries
through the whole controller; the functions of the node registry follow.
-/

namespace MassDeployment

open Js Prog

variable {A : String → TaskFrame → Prop} {K : String → Prop}

/-! ## The rest of the writes -/

theorem quiet_audit (actor : Option String) (action : String) (target detail : Option String) :
    Respects (Quiet A K) (audit actor action target detail) :=
  .bind quiet_now fun _ => quiet_writeLists _ _

theorem quiet_setAlertState (key : String) (st : KeyState) :
    Respects (Quiet A K) (setAlertState key st) :=
  fun s => .frame ((setAlertState key st).keeps s) id rfl rfl rfl rfl rfl

theorem quiet_claimTask (node workerId : String) :
    Respects (Quiet A K) (claimTask node workerId) := by
  refine .bind (.read _) fun claimed => ?_
  split
  · exact .pure _
  · exact .bind (quiet_writeQueue _ _) fun _ => .bind (quiet_lift _) fun _ => .pure _

theorem quiet_ackTask (node : String) (jobId : Nat) (workerId : String) :
    Respects (Quiet A K) (ackTask node jobId workerId) := quiet_writeQueue _ _

theorem quiet_retryTask (node : String) (jobId : Nat) (workerId : String) :
    Respects (Quiet A K) (retryTask node jobId workerId) :=
  .bind quiet_now fun _ => quiet_writeQueue _ _

theorem quiet_takeThread (i : Nat) : Respects (Quiet A K) (takeThread i) :=
  fun s => .frame (Prog.keeps _ s) id rfl rfl rfl rfl rfl

/-! ## Guards and writes that speak of one row -/

/-- The mail carries the stored password of an active member. -/
theorem quiet_deliverPlacementCredential (labName : Value) (nodeName : String) (username : Value) :
    Respects (Quiet A K) (deliverPlacementCredential labName nodeName username) := by
  intro s
  unfold deliverPlacementCredential
  rw [run_bind, memberByNames_run]
  cases hj : s.db.lookupMember s.host.conversions labName nodeName username with
  | error e => exact .refl s
  | ok found =>
      rw [andThen_ok]
      cases found with
      | none => exact .refl s
      | some j =>
          dsimp only
          split
          · rename_i secret email hst hsec hmail
            obtain ⟨_, _, hmem, _⟩ := Db.lookupMember_eq_some hj
            rw [run_read_bind]
            split
            · exact .refl s
            · exact (Quiet.refl s).emit
                ⟨j, hmem, rfl, rfl, rfl, rfl, hst, secret, hsec, rfl⟩
          · exact .refl s

theorem quiet_startCredentialMail (labName : Value) (node : String) (username : Value) :
    Respects (Quiet A K) (startCredentialMail labName node username) := by
  refine .bind (.tryCatch (quiet_deliverPlacementCredential _ _ _) fun e => ?_) fun _ =>
    .ite (fun _ => .pure _) fun _ => quiet_spawn _
  refine .bind (.bind quiet_now fun _ => ?_) fun _ => .pure _
  split
  · exact quiet_writeLists _ _
  · exact .pure _

theorem quiet_clearCredential (memberId : Nat) :
    Respects (Quiet A K) (clearCredential memberId) :=
  .bind quiet_now fun _ => quiet_updateMember _ _ _ fun _ h => ⟨h, .inr rfl⟩

theorem quiet_consumePlacementCredential (placementId studentId : Nat) (actor : Option String) :
    Respects (Quiet A K) (consumePlacementCredential placementId studentId actor) := by
  intro s
  unfold consumePlacementCredential
  simp only [Op.query, run_read_bind]
  cases hfind : s.db.joinedMembers.find? fun m =>
      m.member.placementId == placementId && m.member.studentId == studentId with
  | none => exact quiet_failWith _ s
  | some j =>
      by_cases hst : j.member.state = .active
      · simp only [hst, ne_eq, not_true_eq_false, if_false]
        cases hsec : j.member.credentialSecret with
        | none => exact quiet_failWith _ s
        | some secret =>
            simp only [run_read_bind]
            split
            · exact quiet_failWith _ s
            · split
              · exact quiet_failWith _ s
              · have hv : Vouched s (.credentialReveal j.member.id j.placement.labName
                    j.placement.nodeName j.student.username (s.host.decryptSecret secret)) :=
                  ⟨j, List.mem_of_find?_eq_some hfind, rfl, rfl, rfl, rfl, hst, secret, hsec, rfl⟩
                -- the credential is burnt first, and vouched for by the state before
                exact Quiet.emit ((quiet_clearCredential _ s).trans
                  (quiet_audit actor "placement.credential_reveal" _ none _)) hv
      · simp only [ne_eq, hst, not_false_eq_true, if_true]
        exact quiet_failWith _ s

theorem quiet_enqueueUpkeep (hA : ∀ node frame, TaskFrame.Upkeep frame → A node frame)
    (node : String) (action : Action) (params : Params) (requestedBy : Option String)
    (h : ∀ frame : TaskFrame, frame.action = action → frame.params = params → frame.Upkeep) :
    Respects (Quiet A K) (enqueueTask node action params requestedBy) :=
  quiet_enqueueTask _ _ _ _ fun frame ha hp => hA _ frame (h frame ha hp)

section

variable (hA : ∀ node frame, TaskFrame.Ordinary frame → A node frame)

include hA

theorem quiet_studentAdd (node : String) (p : Placement) (username password : String)
    (linuxUid : Nat) (actor : Option String) : Respects (Quiet A K)
      (enqueueTask node .studentAdd (studentAddParams p username password linuxUid) actor) :=
  quiet_enqueueTask _ _ _ _ fun frame ha hp => hA _ frame
    ⟨ha ▸ nofun, ha ▸ nofun, fun _ => ⟨p, username, password, linuxUid, hp⟩,
      fun _ => hp ▸ legible_studentAdd p username password linuxUid⟩

theorem quiet_provisionMember (placement : Placement) (student : ProvisionStudent)
    (actor : Option String) :
    Respects (Quiet A K) (provisionMemberOnPlacement placement student actor) :=
  .bind (.read _) fun _ => .ite (fun _ => .pure _) fun _ =>
    .bind (quiet_draw _) fun _ => .bind (quiet_draw _) fun _ =>
      .bind (quiet_insertMember _ _ _) fun _ => .bind (quiet_studentAdd hA _ _ _ _ _ _) fun _ => .pure _

theorem quiet_reprovisionMember (placement : Placement) (actor : Option String)
    (m : PlacementMemberRow × StudentRow) :
    Respects (Quiet A K) (reprovisionMember placement actor m) :=
  .bind (quiet_draw _) fun _ => .bind (quiet_draw _) fun _ => .bind (.read _) fun _ =>
    .bind (quiet_updateMember _ _ _ fun _ h => by cases h) fun _ =>
      .bind (quiet_studentAdd hA _ _ _ _ _ _) fun _ => .pure _

end

/-- **Quietness is carried through every function of the controller.** -/
theorem quietEnrols : Enrols A (Quiet A K) where
  lists f h _ := quiet_writeLists f h
  emit e he := quiet_emit e fun s => by cases e <;> first | exact trivial | exact he.elim
  alertState := quiet_setAlertState
  gpuMailState key now s := .frame (Prog.keeps _ s) id rfl rfl rfl rfl rfl
  draw := quiet_draw
  spawn thread _ := quiet_spawn thread
  takeThread := quiet_takeThread
  clock f h hf s := by
    obtain ⟨now, settings, -, he⟩ := hf s
    have hk := h s
    show Quiet A K s (f s)
    rw [he] at hk ⊢
    exact .frame hk id rfl rfl rfl rfl rfl
  claimTask := quiet_claimTask
  ackTask := quiet_ackTask
  retryTask := quiet_retryTask
  updateTasks := quiet_updateTasks
  enqueueTask := quiet_enqueueTask
  updateNode name f h _ := quiet_updateNode name f h
  updateLab labId f h _ := quiet_updateLab labId f h
  insertLab mk hmk h := quiet_insertLab mk hmk fun i => (h i).1
  updateStudents := quiet_updateStudents
  tryUpdateStudents := quiet_tryUpdateStudents
  insertStudentRow := quiet_insertStudentRow
  insertLabMember := respects_insertLabMember quiet_insertRoster
  updatePlacements p f h hf _ _ := quiet_updatePlacements p f h hf
  createPlacement hA := respects_createPlacement
    (quiet_enqueueUpkeep fun _ _ h => hA _ _ h.1) quiet_audit
    (fun labId nodeId mk hmk h => quiet_insertPlacement labId nodeId mk hmk fun i =>
      ⟨(h i).1, (h i).2.1, (h i).2.2.1⟩)
    (quiet_provisionMember hA)
  forceDeletePlacement hA := respects_forceDeletePlacement (quiet_enqueueUpkeep hA) quiet_audit
    quiet_deletePlacements
  provisionMember := quiet_provisionMember
  reprovisionMember := quiet_reprovisionMember
  deleteLabRow := quiet_deleteLabRow
  deleteStudentRow := quiet_deleteStudentRow
  retryPlacement hA := respects_retryPlacement (quiet_enqueueUpkeep hA) quiet_audit
    fun s _ _ hr => .of_updatePlacements s _ _ _ fun r hmem hri =>
      .inr (.inl ⟨hr r hmem (by simpa using hri), rfl⟩)
  startCredentialMail := quiet_startCredentialMail

theorem quietWalk : Walk A (Quiet A K) := quietEnrols.toWalk

theorem quiet_setCompletion (placementId : Nat) (v : Option Int) : Respects (Quiet A K)
    (updatePlacement placementId fun r => { r with completionEmailSentAt := v }) :=
  quiet_updatePlacement _ _ _ fun _ => .inl rfl

theorem quiet_startCompletionMail (labName : Value) (node : String) :
    Respects (Quiet A K) (startCompletionMail labName node) :=
  respects_startCompletionMail (fun _ => quiet_setCompletion _ _)
    (fun _ _ _ _ _ => quiet_emit _ fun _ => trivial) (fun _ _ _ => quiet_spawn _)
    (fun f h _ => quiet_writeLists f h) labName node

/-! ## The node registry -/

theorem quiet_provisionNode (name : String) (actor : Option String) :
    Respects (Quiet A K) (provisionNode name actor) := by
  refine .ite (fun _ => ?_) fun _ => quiet_failWith _
  refine .bind (quiet_draw _) fun token => .bind (.read _) fun s => ?_
  dsimp only
  split
  · exact .bind (quiet_updateNode _ _ _) fun _ => .bind (quiet_audit _ _ _ _) fun _ => .pure _
  · exact .bind (quiet_insertNode _ _) fun _ => .bind (quiet_audit _ _ _ _) fun _ => .pure _

theorem quiet_rotateNodeToken (name : String) (actor : Option String) :
    Respects (Quiet A K) (rotateNodeToken name actor) := by
  refine .bind (quiet_query _) fun row => ?_
  split
  · exact quiet_failWith _
  · exact quiet_provisionNode _ _

theorem quiet_revokeNode (name : String) (actor : Option String) :
    Respects (Quiet A K) (revokeNode name actor) :=
  .bind (quiet_updateNode _ _ _) fun _ => quiet_audit _ _ _ _

/-- A node's rows of the log go with it, so it must not be one whose rows have to stay. -/
theorem quiet_deleteNode (name : String) (actor : Option String) (force : Bool)
    (hk : ¬ K name) : Respects (Quiet A K) (deleteNode name actor force) := by
  refine .bind (quiet_query _) fun row => ?_
  dsimp only
  split
  · exact quiet_failWith _
  · refine .ite (fun _ => quiet_failWith _) fun _ => ?_
    refine .bind (quiet_query _) fun _ => .bind (quiet_query _) fun _ => ?_
    refine .ite (fun _ => quiet_failWith _) fun _ => .ite (fun _ => quiet_failWith _) fun _ => ?_
    refine .bind (.atomically ?_) fun _ => quiet_audit _ _ _ _
    have rest : Respects (Quiet A K) (do
        deleteTasks fun t => t.node == name
        Op.writeLists fun d =>
          { d with gpuSnapshot := d.gpuSnapshot.filter fun g => g.node != name }
        deleteNodeRow (NodeRow.id ‹_›)) := by
      refine .bind (quiet_deleteTasks _ fun t ht => ?_) fun _ =>
        .bind (quiet_writeLists _ _) fun _ => quiet_deleteNodeRow _
      rw [show t.node = name by simpa using ht]
      exact hk
    refine .ite (fun _ => ?_) fun _ => rest
    exact .bind (quiet_deletePlacements _) fun _ => .bind (quiet_updateNodes _ _ _) fun _ => rest

theorem quiet_setNodeColdStorage (name : String) (backend : ColdBackend)
    (ownerName actor : Option String) :
    Respects (Quiet A K) (setNodeColdStorage name backend ownerName actor) := by
  refine .bind (quiet_query _) fun row => ?_
  dsimp only
  split
  · exact quiet_failWith _
  · refine .bind (quiet_query _) fun _ => .ite (fun _ => quiet_failWith _) fun _ => ?_
    refine .bind ?_ fun _ => .bind (quiet_updateNodes _ _ _) fun _ => quiet_audit _ _ _ _
    unfold setNodeColdStorage.coldOwner
    split
    · exact .pure _
    · split
      · exact quiet_failWith _
      · refine .ite (fun _ => quiet_failWith _) fun _ => .bind (quiet_query _) fun owner => ?_
        dsimp only
        split
        · exact quiet_failWith _
        · exact .bind (quiet_query _) fun _ => .ite (fun _ => quiet_failWith _) fun _ =>
            .ite (fun _ => quiet_failWith _) fun _ => .ite (fun _ => quiet_failWith _) fun _ =>
              .pure _

theorem quiet_registerNode (name : String) (capabilities : Json) :
    Respects (Quiet A K) (registerNode name capabilities) := by
  refine .bind (.read _) fun s => ?_
  split
  · exact quiet_updateNode _ _ _
  · exact .bind (quiet_insertNode _ _) fun _ => .pure _

theorem quiet_markNodeOffline (name : String) : Respects (Quiet A K) (markNodeOffline name) :=
  .bind quiet_now fun _ => quiet_updateNode _ _ _

/-! ## Acts -/

/-- The acts that are quiet whatever `A` and `K` are asked to be: all but results, removals
of students and deletions of nodes. -/
def Act.Plain : Act → Prop
  | .frame _ (.result _) | .removeStudentFromLab .. | .deleteNode .. => False
  | _ => True

/-- **Everything else is quiet.** -/
theorem quiet_plain (hA : ∀ node frame, TaskFrame.Ordinary frame → A node frame) {a : Act}
    (ha : a.Plain) : Respects (Quiet A K) a.run := by
  have upkeep : ∀ {a : Act}, a.Upkeep → Respects (Quiet A K) a.run := fun ha =>
    walk_upkeep quietWalk (fun _ _ h => hA _ _ h.1) (fun _ => quiet_startCompletionMail)
      (fun _ => quiet_updatePlacement) (walk_telemetry quietWalk quiet_writeLists) ha
  cases a with
  | provisionNode name actor => exact .bind (quiet_provisionNode _ _) fun _ => .pure _
  | rotateNodeToken name actor => exact .bind (quiet_rotateNodeToken _ _) fun _ => .pure _
  | revokeNode name actor => exact quiet_revokeNode _ _
  | setNodeColdStorage name backend ownerName actor => exact quiet_setNodeColdStorage _ _ _ _
  | registerNode node capabilities => exact quiet_registerNode _ _
  | deregisterNode node => exact quiet_markNodeOffline _
  | frame node received =>
      cases received with
      | result frame => exact ha.elim
      | _ => exact upkeep trivial
  | removeStudentFromLab | deleteNode => exact ha.elim
  | consumePlacementCredential placementId studentId actor =>
      exact respects_discard (quiet_consumePlacementCredential _ _ _)
  | resume i answer =>
      exact walk_anyResume quietEnrols hA quiet_spawn (fun _ _ => quiet_emit _ fun _ => trivial)
        quiet_clearCredential quiet_setCompletion i answer
  | createPlacement | recreatePlacement | addStudentToLab | copyMembers =>
      exact walk_enrolls quietEnrols hA (fun _ => quiet_updatePlacement) trivial
  | ensurePiAccess | applyRosterImport => exact walk_designates quietEnrols hA quiet_updateLab trivial
  | _ => exact upkeep trivial

end MassDeployment
