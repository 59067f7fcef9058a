import MassDeployment.Controller.Quiet

set_option autoImplicit false

/-! # Walking through the functions of the controller

A relation between states that the primitive writes respect is respected by every function
made of them. `Walk A Q` collects what has to be shown of `Q`, one field for each kind of
write, with what the code does there; one lemma for each function of the controller, in the
order of the modules, then walks through its text with the rules of `Prog.Respects`.

The functions whose guards and writes speak of the same rows (the creation, the retry and the
forced deletion of a placement, the mail of a password) and those that store a fresh password
are fields of their own. The functions that burn a stored password, those that claim the
completion mail of a placement, and those of the node registry, are left to the relations they
matter for.
-/

namespace MassDeployment

open Js Prog

/-- What a call that continues burns a stored password for: the mailer sent it. -/
def Await.Burns (answer : Answer) : Await → Prop
  | .credentialSent .. => answer = .sent
  | _ => False

/-- What may leave the controller at any time. -/
def Event.Plain : Event → Prop
  | .settled .. | .credentialMail .. | .credentialMailed .. | .credentialReveal ..
  | .completionMail .. => False
  | _ => True

/-- A task any call may issue; removals and cold deletions are reserved. The payload of a GPU policy
is anything. -/
structure TaskFrame.Ordinary (frame : TaskFrame) : Prop where
  remove : frame.action ≠ .studentRemove
  cold : frame.action ≠ .studentDeleteCold
  account : frame.action = .studentAdd → ∃ (p : Placement) (username password : String)
    (linuxUid : Nat), frame.params = studentAddParams p username password linuxUid
  legible : frame.action ≠ .gpuPolicyUpdate → Legible frame.params

/-- A write to a node's row outside the node registry. -/
structure NodeRow.Alike (a b : NodeRow) : Prop where
  allowed : b.allowed = a.allowed
  tokenHash : b.tokenHash = a.tokenHash
  online : b.online = a.online
  coldBackend : b.coldBackend = a.coldBackend
  coldOwner : b.coldOwnerNodeId = a.coldOwnerNodeId

/-- Where a node keeps its cold data. -/
def NodeRow.cold (r : NodeRow) : Nat × ColdBackend × Option Nat :=
  (r.id, r.coldBackend, r.coldOwnerNodeId)

/-- A task that keeps a placement or a node up, and adds nobody to it. -/
def TaskFrame.Upkeep (frame : TaskFrame) : Prop := frame.Ordinary ∧ frame.action ≠ .studentAdd

/-- Nobody was warned about a quota, and no warning was forgotten. -/
def Db.SameAlerts (d d' : Db) : Prop :=
  d'.quotaAlerts = d.quotaAlerts ∧ d'.studentQuotaAlerts = d.studentQuotaAlerts

/-- The primitive writes of the ingestion of telemetry respect `Q`, once the pools are stored. -/
structure IngestWalk (Q : Controller → Controller → Prop) : Prop where
  lists : ∀ f h, Respects Q (Op.writeLists f h)
  emit : ∀ e : Event, e.Plain → Respects Q (Op.emit e)
  alertState : ∀ key st, Respects Q (setAlertState key st)
  updateNode : ∀ name f h, (∀ r, NodeRow.Alike r (f r)) → (∀ r, (f r).pools = r.pools) →
    Respects Q (updateNode name f h)
  updatePlacements : ∀ p f h, (∀ r, PlacementRow.Quiet r (f r)) →
    (∀ r, (f r).quotas = r.quotas) →
    (∀ r, (f r).completionEmailSentAt = r.completionEmailSentAt) →
    Respects Q (Slot.labPlacements.update p f h)

/-- The same without the writes of storage samples, quota alerts and scrub status. -/
structure ReportWalk (Q : Controller → Controller → Prop) : Prop where
  lists : ∀ f h, (∀ d, (f d).storageSamples = d.storageSamples) → (∀ d, Db.SameAlerts d (f d)) →
    Respects Q (Op.writeLists f h)
  emit : ∀ e : Event, e.Plain → Respects Q (Op.emit e)
  alertState : ∀ key st, Respects Q (setAlertState key st)
  updateNode : ∀ name f h, (∀ r, NodeRow.Alike r (f r)) → (∀ r, (f r).pools = r.pools) →
    (∀ r, (f r).scrubStatus = r.scrubStatus) → Respects Q (updateNode name f h)
  updatePlacements : ∀ p f h, (∀ r, PlacementRow.Quiet r (f r)) →
    (∀ r, (f r).quotas = r.quotas) →
    (∀ r, (f r).completionEmailSentAt = r.completionEmailSentAt) →
    Respects Q (Slot.labPlacements.update p f h)

theorem IngestWalk.report {Q : Controller → Controller → Prop} (w : IngestWalk Q) :
    ReportWalk Q where
  lists f h _ _ := w.lists f h
  emit := w.emit
  alertState := w.alertState
  updateNode name f h hf hp _ := w.updateNode name f h hf hp
  updatePlacements := w.updatePlacements

/-- The primitive writes respect `Q`, and so does the issue of a task `A` allows. The ingestion of
telemetry and the deletions write the quota alerts, and are not among them. -/
structure Walk (A : String → TaskFrame → Prop) (Q : Controller → Controller → Prop) : Prop where
  lists : ∀ f h, (∀ d, Db.SameAlerts d (f d)) → Respects Q (Op.writeLists f h)
  emit : ∀ e : Event, e.Plain → Respects Q (Op.emit e)
  alertState : ∀ key st, Respects Q (setAlertState key st)
  gpuMailState : ∀ key now, Respects Q (emailGpuEvent.setGpuMailState key now)
  draw : ∀ {α : Type} (f : Host → Nat → α), Respects Q (Op.draw f)
  clock : ∀ f h, (∀ s : Controller, ∃ now settings,
      s.now ≤ now ∧ f s = { s with now := now, settings := settings }) →
    Respects Q (.write f h : Op Unit)
  claimTask : ∀ node workerId, Respects Q (claimTask node workerId)
  ackTask : ∀ node jobId workerId, Respects Q (ackTask node jobId workerId)
  retryTask : ∀ node jobId workerId, Respects Q (retryTask node jobId workerId)
  updateTasks : ∀ p f h, (∀ t : TaskRow, (f t).state.terminal = true → t.state.terminal = true) →
    Respects Q (updateTasks p f h)
  enqueueTask : ∀ node action params requestedBy,
    (∀ frame : TaskFrame, frame.action = action → frame.params = params → A node frame) →
    Respects Q (enqueueTask node action params requestedBy)
  updateNode : ∀ name f h, (∀ r, NodeRow.Alike r (f r)) → Respects Q (updateNode name f h)
  updateLab : ∀ labId f h, (∀ r, (f r).piStudentId = r.piStudentId) →
    Respects Q (updateLab labId f h)
  insertLab : ∀ mk hmk, (∀ i, (mk i).name ≠ "" ∧ (mk i).piStudentId = none) →
    Respects Q (Slot.labs.insert mk hmk)
  updatePlacements : ∀ p f h, (∀ r, PlacementRow.Quiet r (f r)) →
    (∀ r, (f r).quotas = r.quotas) →
    (∀ r, (f r).completionEmailSentAt = r.completionEmailSentAt) →
    Respects Q (Slot.labPlacements.update p f h)
  retryPlacement : (∀ node frame, TaskFrame.Upkeep frame → A node frame) →
    ∀ placementId actor, Respects Q (retryPlacement placementId actor)
  forceDeletePlacement : (∀ node frame, TaskFrame.Upkeep frame → A node frame) →
    ∀ placementId actor, Respects Q (forceDeletePlacement placementId actor)
  deleteLabRow : ∀ labId, Respects Q (deleteLabRow labId)
  deleteStudentRow : ∀ studentId, Respects Q (deleteStudentRow studentId)
  startCredentialMail : ∀ labName node username,
    Respects Q (startCredentialMail labName node username)

/-! ## What is read back -/

/-- No key that is read back looks secret. -/
theorem open_of_readBack {k : String} (hk : k ∈ readBack) :
    k ≠ "__proto__" ∧ secretKey k = false := by
  simp only [readBack, List.mem_cons, List.not_mem_nil, or_false] at hk
  rcases hk with rfl | rfl | rfl | rfl
  all_goals decide

/-- Parameters are legible where redaction leaves the values alone that are read back. -/
theorem legible_of_forall {params : Params}
    (h : ∀ kv ∈ params, kv.1 ∈ readBack → redactSecrets kv.2 = kv.2) : Legible params := by
  intro k hk
  obtain ⟨hproto, hopen⟩ := open_of_readBack hk
  rw [lookup_redactFields hproto]
  cases hv : params.lookup k with
  | none => rfl
  | some v =>
      obtain ⟨before, after, hparams, -⟩ := List.lookup_eq_some_iff.mp hv
      have hsame := h (k, v) (by simp [hparams]) hk
      simp [hopen, hsame]

theorem redactItems_strings (l : List String) : redactItems (l.map Json.str) = l.map Json.str := by
  induction l with
  | nil => rfl
  | cons a l ih => rw [List.map_cons, redactItems, ih]; rfl

theorem legible_placementCreate (p : Placement) : Legible
    [("lab", .str p.labName), ("fast_quota_bytes", jsonInt p.fastQuotaBytes),
      ("slow_quota_bytes", jsonInt (p.coldQuotaBytes.getD 0)),
      ("student_fast_quota_bytes", jsonIntOrNull p.studentFastQuotaBytes),
      ("student_cold_quota_bytes", jsonIntOrNull p.studentColdQuotaBytes),
      ("image", .str p.image), ("ssh_port", jsonInt p.sshPort),
      ("container_options", taskContainerOptions p)] :=
  legible_of_forall (by simp [readBack, redactSecrets])

theorem legible_setQuota (lab : String) (fast cold : Option Int) : Legible
    ([("lab", .str lab)] ++ (fast.map fun q => ("fast_quota_bytes", jsonInt q)).toList ++
      (cold.map fun q => ("slow_quota_bytes", jsonInt q)).toList) := by
  refine legible_of_forall ?_
  cases fast <;> cases cold <;> simp [readBack, redactSecrets]

theorem legible_recreate (p : Placement) : Legible
    [("lab", .str p.labName), ("image", .str p.image), ("ssh_port", jsonInt p.sshPort),
      ("container_options", taskContainerOptions p),
      ("student_fast_quota_bytes", jsonIntOrNull p.studentFastQuotaBytes),
      ("student_cold_quota_bytes", jsonIntOrNull p.studentColdQuotaBytes)] :=
  legible_of_forall (by simp [readBack, redactSecrets])

theorem legible_lab (lab : String) : Legible [("lab", .str lab)] :=
  legible_of_forall (by simp [redactSecrets])

theorem legible_studentAdd (p : Placement) (username password : String) (linuxUid : Nat) :
    Legible (studentAddParams p username password linuxUid) :=
  legible_of_forall (by simp [studentAddParams, readBack, redactSecrets])

theorem legible_chore (job : Chore) (h : job.action ≠ .gpuPolicyUpdate) : Legible job.params := by
  cases job with
  | check | repair | reboot | scrub => exact fun _ _ => rfl
  | usageScan lab users => exact legible_of_forall (by simp [Chore.params, readBack, redactSecrets])
  | gpuPolicy payload => exact absurd rfl h

/-- A task of upkeep, by its action and its parameters. -/
theorem upkeep_of {action : Action} {params : Params}
    (ha : (action ≠ .studentRemove ∧ action ≠ .studentDeleteCold) ∧ action ≠ .studentAdd)
    (hp : action ≠ .gpuPolicyUpdate → Legible params) (frame : TaskFrame)
    (haction : frame.action = action) (hparams : frame.params = params) : frame.Upkeep := by
  subst haction hparams
  exact ⟨⟨ha.1.1, ha.1.2, fun h => absurd h ha.2, hp⟩, ha.2⟩

theorem not_studentAdd_of_upkeep {action : Action} {params : Params}
    (h : ∀ frame : TaskFrame, frame.action = action → frame.params = params → frame.Upkeep) :
    action ≠ .studentAdd :=
  (h ⟨"", action, params, none, 0⟩ rfl rfl).2

section

variable {Q : Controller → Controller → Prop} [IsPreorder Controller Q]

theorem respects_lift {α : Type} (x : Except Error α) : Respects Q (Op.lift x) := by
  cases x with
  | error e => exact .throw e
  | ok a => exact .pure a

theorem respects_failWith {α : Type} (m : String) : Respects Q (Op.failWith m : Op α) := .throw _

theorem respects_validateContainerConfig (image : String) (opts : ContainerOptions) :
    Respects Q (validateContainerConfig image opts) := by
  refine .ite (fun _ => respects_failWith _) fun _ => .ite (fun _ => respects_failWith _) fun _ => ?_
  refine .ite (fun _ => respects_failWith _) fun _ => .ite (fun _ => respects_failWith _) fun _ => ?_
  exact .ite (fun _ => respects_failWith _) fun _ => .ite (fun _ => respects_failWith _) fun _ => .pure _

theorem respects_checkSmbClient (labId : Nat) (node : NodeRow) :
    Respects Q (checkSmbClient labId node) := by
  unfold checkSmbClient
  dsimp only
  split
  · exact respects_failWith _
  · refine .bind (.read _) fun owner => ?_
    split
    · exact .throw _
    · refine .bind (.read _) fun placement => ?_
      split
      · exact respects_failWith _
      · refine .ite (fun _ => respects_failWith _) fun _ => .ite (fun _ => respects_failWith _) fun _ => ?_
        exact .ite (fun _ => respects_failWith _) fun _ => .pure _

theorem respects_assertNoSmbDependents (p : Placement) :
    Respects Q (assertNoSmbDependents p) :=
  .ite (fun _ => .pure _) fun _ => .bind (.read _) fun _ =>
    .ite (fun _ => .pure _) fun _ => respects_failWith _

theorem respects_getPlacementByLabNode (labName : Value) (nodeName : String) :
    Respects Q (getPlacementByLabNode labName nodeName) :=
  .bind (.read _) fun _ => respects_lift _

theorem respects_studentIdInLab (labId : Nat) (username : Value) :
    Respects Q (studentIdInLab labId username) := by
  refine .bind (.read _) fun s => .bind (respects_lift _) fun values => ?_
  split <;> exact .pure _

theorem respects_placementNamed (labName : Option String) (nodeName : String) :
    Respects Q (placementNamed labName nodeName) := by
  cases labName with
  | none => exact .pure _
  | some l => exact respects_getPlacementByLabNode _ _

section

variable (henqueue : ∀ node action params requestedBy,
    (∀ frame : TaskFrame, frame.action = action → frame.params = params → frame.Upkeep) →
    Respects Q (enqueueTask node action params requestedBy))
  (haudit : ∀ actor action target detail, Respects Q (audit actor action target detail))

include henqueue haudit

/-- A creation whose guards do not matter. -/
theorem respects_createPlacement
    (hinsert : ∀ labId nodeId mk hmk,
      (∀ i, (mk i).labId = labId ∧ (mk i).nodeId = nodeId ∧ (mk i).Pending ∧
        (mk i).completionEmailSentAt = none) →
      Respects Q (insertPlacement labId nodeId mk hmk))
    (hmember : ∀ placement student actor,
      Respects Q (provisionMemberOnPlacement placement student actor))
    (input : CreatePlacementInput) (actor : Option String) :
    Respects Q (createPlacement input actor) := by
  have roster : ∀ placement students actor,
      Respects Q (provisionRoster placement students actor) := by
    intro placement students actor
    cases students with
    | nil => exact .pure _
    | cons student rest => exact .bind (hmember _ _ _) fun _ => .pure _
  refine .bind (.read _) fun node => ?_
  split
  · exact respects_failWith _
  · refine .bind (respects_validateContainerConfig _ _) fun _ => ?_
    refine .bind ?_ fun _ => ?_
    · exact .ite (fun _ => respects_checkSmbClient _ _) fun _ =>
        .ite (fun _ => respects_failWith _) fun _ => .pure _
    · refine .ite (fun _ => respects_failWith _) fun _ => .ite (fun _ => respects_failWith _) fun _ => ?_
      refine .bind (.read _) fun _ => .bind ?_ fun _ => .bind (.read _) fun placement => ?_
      · exact hinsert _ _ _ _ fun _ => ⟨rfl, rfl, .inl rfl, rfl⟩
      · split
        · exact .throw _
        · exact .bind (.bind (henqueue _ _ _ _ (upkeep_of ⟨⟨nofun, nofun⟩, nofun⟩
            fun _ => legible_placementCreate _)) fun _ => .pure _) fun _ =>
            .bind (haudit _ _ _ _) fun _ => .bind (.read _) fun _ => roster _ _ _

/-- A retry: the guard and the update see the same row. -/
theorem respects_retryPlacement
    (hupdate : ∀ (s : Controller) placementId now,
      (∀ r ∈ s.db.labPlacements.rows, r.id = placementId → r.state = .failed) →
      Q s ((updatePlacement placementId fun r =>
        { r with state := .provisioning, lastError := none, updatedAt := now }).after s))
    (placementId : Nat) (actor : Option String) :
    Respects Q (retryPlacement placementId actor) := by
  intro s
  unfold retryPlacement
  simp only [Op.query, run_read_bind]
  cases hp : s.db.getPlacement placementId with
  | none => exact respects_failWith _ s
  | some p =>
      by_cases hst : p.state = .failed
      · simp only [hst, ne_eq, not_true_eq_false, if_false, Op.now, run_read_bind]
        obtain ⟨hmem, hid⟩ := Db.getPlacement_eq_some hp
        have hrow := (Db.mem_placements.mp hmem).1
        refine trans_of Q (hupdate s placementId s.now fun r hr hri => ?_) ?_
        · rw [s.db.labPlacements.eq_of_id hr hrow (hri.trans hid.symm)]
          exact hst
        · refine Respects.bind (.bind (henqueue _ _ _ _ ?_) fun _ => .pure _)
            (fun _ => haudit _ _ _ _) _
          exact upkeep_of ⟨⟨nofun, nofun⟩, nofun⟩ fun _ => legible_placementCreate _
      · simp only [ne_eq, hst, not_false_eq_true, if_true]
        exact respects_failWith _ s

/-- A forced deletion whose guards do not matter. -/
theorem respects_forceDeletePlacement
    (hdelete : ∀ victim, Respects Q (deletePlacements victim)) (placementId : Nat)
    (actor : Option String) : Respects Q (forceDeletePlacement placementId actor) := by
  refine .bind (.read _) fun p => ?_
  split
  · exact .pure _
  · refine .ite (fun _ => respects_failWith _) fun _ =>
      .bind (respects_assertNoSmbDependents _) fun _ => ?_
    exact .bind (henqueue _ _ _ _ (upkeep_of ⟨⟨nofun, nofun⟩, nofun⟩ fun _ => legible_lab _))
      fun _ => .bind (hdelete _) fun _ => haudit _ _ _ _

end

end

/-! ## Telemetry -/

section

variable {Q : Controller → Controller → Prop} [IsPreorder Controller Q]

section

theorem respects_alertAdmins (hemit : ∀ e : Event, e.Plain → Respects Q (Op.emit e))
    (hstate : ∀ key st, Respects Q (setAlertState key st)) (key subject body : String) :
    Respects Q (alertAdmins key subject body) := by
  have mail : ∀ s suppressed,
      Respects Q (alertAdmins.mailAlert key subject body s suppressed) := by
    intro s suppressed
    exact .ite (fun _ => .pure _) fun _ => hemit _ trivial
  refine .bind (.read _) fun s => .ite (fun _ => ?_) fun _ => .pure _
  dsimp only
  split
  · exact .ite (fun _ => hstate _ _) fun _ => .bind (hstate _ _) fun _ => mail _ _
  · exact .bind (hstate _ _) fun _ => mail _ _

variable (w : ReportWalk Q)

include w

section

variable (hwarn : ∀ f h, (∀ d, (f d).storageSamples = d.storageSamples) →
  Respects Q (Op.writeLists f h))

include hwarn

theorem walk_maybeStudentQuotaAlert (placementId labId studentId : Nat) (node pool : String)
    (used : Number) (quota : Value) (now : Nat) :
    Respects Q
      (maybeStudentQuotaAlert placementId labId studentId node pool used quota now) := by
  refine .bind (.read _) fun s => .ite (fun _ => .pure _) fun _ => .ite (fun _ => .pure _) fun _ =>
    .ite (fun _ => .pure _) fun _ => ?_
  split
  · split
    · exact .pure _
    · refine .ite (fun _ => .pure _) fun _ => .ite (fun _ => .throw _) fun _ => ?_
      refine .bind (hwarn _ _ fun _ => rfl) fun _ => .bind (respects_lift _) fun _ =>
        .bind (w.emit _ trivial) fun _ => ?_
      exact .ite (fun _ => .forM _ fun _ _ => w.emit _ trivial) fun _ => .pure _
  · exact .pure _

theorem walk_maybeQuotaAlert (placementId labId : Nat) (pool : String) (used : Number)
    (quota : Value) (now : Nat) :
    Respects Q (maybeQuotaAlert placementId labId pool used quota now) := by
  refine .bind (.read _) fun s => .ite (fun _ => .pure _) fun _ => .ite (fun _ => .pure _) fun _ => ?_
  split
  · exact .pure _
  · refine .ite (fun _ => .throw _) fun _ => .bind (hwarn _ _ fun _ => rfl) fun _ => ?_
    split
    · exact .ite (fun _ => .bind (respects_lift _) fun _ => w.emit _ trivial) fun _ => .pure _
    · exact .pure _

end

theorem walk_ingestUsageScan (node : String) (u : Json) :
    Respects Q (ingestUsageScan node u) := by
  refine .bind (respects_lift _) fun labName => ?_
  split
  · refine .ite (fun _ => .pure _) fun _ => .bind (respects_getPlacementByLabNode _ _) fun ref => ?_
    split
    · exact .pure _
    · exact w.updatePlacements _ _ _ (fun _ => .inl rfl) (fun _ => rfl) fun _ => rfl
  · exact .pure _

theorem walk_ingestColdStorage (node : String) (cold : Value) :
    Respects Q (ingestColdStorage node cold) :=
  .ite (fun _ => .pure _) fun _ =>
    w.updateNode _ _ _ (fun _ => ⟨rfl, rfl, rfl, rfl, rfl⟩) (fun _ => rfl) fun _ => rfl

theorem walk_reportScrub (node : String) (now : Nat) (p : Json) :
    Respects Q (reportScrub node now p) :=
  .bind (.read _) fun _ => .bind (respects_lift _) fun _ => .bind (respects_lift _) fun _ =>
    .bind (respects_lift _) fun _ => .bind (w.lists _ _ (fun _ => rfl) fun _ => ⟨rfl, rfl⟩) fun _ =>
      respects_alertAdmins w.emit w.alertState _ _ _

/-- The reported status is stored as it is. -/
theorem walk_ingestScrub (node : String) (scrub : Value) (now : Nat)
    (hstore : ∀ entries, scrub = some (.arr entries) → ∀ h,
      Respects Q (updateNode node (fun n => { n with scrubStatus := .text (.arr entries) }) h)) :
    Respects Q (ingestScrub node scrub now) := by
  unfold ingestScrub
  split
  · refine .bind (.read _) fun stored => .bind (respects_lift _) fun _ =>
      .bind (respects_lift _) fun _ => .bind (hstore _ rfl _) fun _ => .forM _ fun p _ => ?_
    exact .bind (respects_lift _) fun _ => .ite (fun _ => walk_reportScrub w _ _ _) fun _ => .pure _
  · exact .pure _

theorem walk_ingestGpuProcess (node : String) (now : Nat) (p : Json) :
    Respects Q (ingestGpuProcess node now p) :=
  .bind (respects_lift _) fun _ => .bind (respects_placementNamed _ _) fun _ => .bind (.read _) fun _ =>
    .bind (respects_lift _) fun _ => .bind (respects_lift _) fun _ =>
      w.lists _ _ (fun _ => rfl) fun _ => ⟨rfl, rfl⟩

section

variable (hwarn : ∀ f h, (∀ d, (f d).storageSamples = d.storageSamples) →
    Respects Q (Op.writeLists f h))
  (hinsert : ∀ (row : StorageSampleRow) h, Respects Q
    (Op.writeLists (fun d => { d with storageSamples := d.storageSamples ++ [row] }) h))

include hwarn hinsert

theorem walk_recordSample (node : String) (now : Nat) (ref : Placement) (studentId : Option Nat)
    (tier : String) (used : Number) (user quota : Value) :
    Respects Q (recordSample node now ref studentId tier used user quota) := by
  refine .bind (respects_lift _) fun _ => .bind (hinsert _ _) fun _ => ?_
  refine .bind (.optionForM _ fun _ _ => ?_) fun _ => ?_
  · exact .ite (fun _ => walk_maybeStudentQuotaAlert w hwarn _ _ _ _ _ _ _ _) fun _ => .pure _
  · exact .ite (fun _ => walk_maybeQuotaAlert w hwarn _ _ _ _ _ _) fun _ => .pure _

theorem walk_ingestSample (node : String) (now : Nat) (ds : Json) :
    Respects Q (ingestSample node now ds) := by
  unfold ingestSample
  dsimp only
  split
  · refine .ite (fun _ => .pure _) fun _ => .bind (respects_getPlacementByLabNode _ _) fun ref => ?_
    split
    · exact .pure _
    · refine .bind (.ite (fun _ => respects_studentIdInLab _ _) fun _ => .pure _) fun _ => ?_
      exact .bind (.read _) fun _ => .ite (fun _ => .pure _) fun _ =>
        .ite (fun _ => .pure _) fun _ => walk_recordSample w hwarn hinsert _ _ _ _ _ _ _ _
  · exact .pure _

end

end

variable (w : IngestWalk Q)

include w

theorem IngestWalk.scrub (node : String) (scrub : Value) (now : Nat) :
    Respects Q (ingestScrub node scrub now) :=
  walk_ingestScrub w.report node scrub now fun _ _ h =>
    w.updateNode _ _ h (fun _ => ⟨rfl, rfl, rfl, rfl, rfl⟩) fun _ => rfl

theorem IngestWalk.sample (node : String) (now : Nat) (ds : Json) :
    Respects Q (ingestSample node now ds) :=
  walk_ingestSample w.report (fun f h _ => w.lists f h) (fun _ _ => w.lists _ _) node now ds

/-- The frame's pools are stored first; the rest respects `Q`. -/
theorem walk_ingestTelemetry_rest (node : String) (payload : Json) (s : Controller) :
    Q ((updateNode node fun n =>
        { n with
          pools := stringify ((Value.field "pools" payload).orElse (some (.arr [])))
          lastSeen := some s.now }).after s)
      ((ingestTelemetry node payload).after s) := by
  refine Respects.bind (walk_ingestColdStorage w.report node _) (fun _ =>
    .bind (w.scrub _ _ _) fun _ =>
      .bind (respects_lift _) fun _ => .bind (.forM _ fun _ _ => w.sample _ _ _) fun _ =>
        .bind (respects_lift _) fun _ => .bind (.forM _ fun _ _ => walk_ingestUsageScan w.report _ _) fun _ =>
          .atomically ?_) _
  exact .bind (w.lists _ _) fun _ => .bind (respects_lift _) fun _ =>
    .forM _ fun _ _ => walk_ingestGpuProcess w.report _ _ _

end

variable {A : String → TaskFrame → Prop} {Q : Controller → Controller → Prop}
  [IsPreorder Controller Q]

section

variable (w : Walk A Q)

include w

omit [IsPreorder Controller Q] in
/-- Where the alerts do not matter, the ingestion of telemetry respects `Q` too. -/
theorem Walk.ingest (hlists : ∀ f h, Respects Q (Op.writeLists f h)) : IngestWalk Q where
  lists := hlists
  emit := w.emit
  alertState := w.alertState
  updateNode name f h hf _ := w.updateNode name f h hf
  updatePlacements := w.updatePlacements

omit [IsPreorder Controller Q] in
theorem walk_updatePlacement (i : Nat) (f : PlacementRow → PlacementRow) (h)
    (hf : ∀ r, PlacementRow.Quiet r (f r)) (hq : ∀ r, (f r).quotas = r.quotas)
    (hc : ∀ r, (f r).completionEmailSentAt = r.completionEmailSentAt) :
    Respects Q (updatePlacement i f h) :=
  w.updatePlacements _ f _ hf hq hc

/-! ## Alerts and audit entries -/

theorem walk_audit (actor : Option String) (action : String) (target detail : Option String) :
    Respects Q (audit actor action target detail) :=
  .bind (.read _) fun _ => w.lists _ _ fun _ => ⟨rfl, rfl⟩

omit [IsPreorder Controller Q] in
theorem walk_insertLog (row : LogRow) : Respects Q (insertLog row) :=
  w.lists _ _ fun _ => ⟨rfl, rfl⟩

theorem walk_alertAdmins (key subject body : String) :
    Respects Q (alertAdmins key subject body) := respects_alertAdmins w.emit w.alertState _ _ _

theorem walk_maybeAlertOnLog (node level : String) (source : Option String) (msg : String)
    (detail : Option String) : Respects Q (maybeAlertOnLog node level source msg detail) :=
  .bind (.read _) fun _ => .ite (fun _ => .pure _) fun _ =>
    .bind (.read _) fun _ => walk_alertAdmins w _ _ _

theorem walk_alertTaskFailed (node : String) (action : Action) (error : String) :
    Respects Q (alertTaskFailed node action error) := walk_alertAdmins w _ _ _

/-! ## The queue -/

theorem walk_markSent (node taskUuid : String) :
    Respects Q (markTaskState node taskUuid .sent none none false) :=
  .bind (.read _) fun _ => .bind (.read _) fun _ =>
    .bind (w.updateTasks _ _ _ fun _ h => by cases h) fun _ => .pure _

theorem walk_markTaskReceived (node taskUuid : String) :
    Respects Q (markTaskReceived node taskUuid) :=
  .bind (.read _) fun _ => w.updateTasks _ _ _ fun _ h => h

omit [IsPreorder Controller Q] in
theorem walk_bumpAttempts (node taskUuid : String) :
    Respects Q (bumpAttempts node taskUuid) := w.updateTasks _ _ _ fun _ h => h

theorem walk_drainOne (node : String) (sent : Bool) : Respects Q (drainOne node sent) := by
  refine .bind (w.claimTask _ _) fun claimed => ?_
  split
  · exact .pure _
  · refine .ite (fun _ => ?_) fun _ => .bind (w.retryTask _ _ _) fun _ => .pure _
    exact .bind (w.ackTask _ _ _) fun _ => .bind (walk_markSent w _ _) fun _ =>
      .bind (walk_bumpAttempts w _ _) fun _ => .pure _

theorem walk_drainBatch (node : String) (sends : List Bool) :
    Respects Q (drainBatch node sends) := by
  induction sends with
  | nil => exact .pure _
  | cons sent rest ih =>
      exact .bind (walk_drainOne w _ _) fun _ => .ite (fun _ => ih) fun _ => .pure _

/-! ## The node registry -/

theorem walk_setNodeAlias (name newAlias : String) (actor : Option String) :
    Respects Q (setNodeAlias name newAlias actor) := by
  refine .bind (.read _) fun row => ?_
  dsimp only
  split
  · exact respects_failWith _
  · exact .bind (.read _) fun _ => .bind (w.updateNode _ _ _ fun _ => ⟨rfl, rfl, rfl, rfl, rfl⟩) fun _ => walk_audit w _ _ _ _

/-! ## Lookups by name -/

omit w in
theorem respects_memberByNames (labName : Value) (nodeName : String) (username : Value) :
    Respects Q (memberByNames labName nodeName username) :=
  .bind (.read _) fun _ => respects_lift _

/-! ## Tasks that only one call issues -/

omit [IsPreorder Controller Q] in
theorem walk_enqueueUpkeep (hA : ∀ node frame, TaskFrame.Upkeep frame → A node frame)
    (node : String) (action : Action) (params : Params) (requestedBy : Option String)
    (h : ∀ frame : TaskFrame, frame.action = action → frame.params = params → frame.Upkeep) :
    Respects Q (enqueueTask node action params requestedBy) :=
  w.enqueueTask _ _ _ _ fun frame ha hp => hA _ frame (h frame ha hp)

/-! ## Removal -/

theorem walk_removeMemberFromPlacement (placement : Placement) (studentId : Nat)
    (username : String) (deleteData : Bool) (actor : Option String)
    (removal : Option (String × List String))
    (hA : ∀ frame : TaskFrame, frame.action = .studentRemove →
      frame.params = studentRemoveParams placement username deleteData removal →
      A placement.nodeName frame)
    (hmembers : ∀ p, Respects Q (Slot.placementMembers.delete p)) :
    Respects Q
      (removeMemberFromPlacement placement studentId username deleteData actor removal) :=
  .bind (w.enqueueTask _ _ _ _ hA) fun _ => hmembers _

theorem walk_enqueueColdCleanup (lab username removalId : Json) (requestedBy : Option String)
    (node : String)
    (hA : ∀ frame : TaskFrame, frame.action = .studentDeleteCold →
      frame.params = deleteColdParams lab username removalId → A node frame) :
    Respects Q (enqueueColdCleanup lab username removalId requestedBy node) := by
  refine .bind (.read _) fun s => .bind (respects_lift _) fun values =>
    .bind (respects_lift _) fun cleanups => ?_
  split
  · refine .ite (fun _ => .pure _) fun _ => .bind ?_ fun _ => .pure _
    exact w.enqueueTask _ _ _ _ hA
  · exact .pure _

theorem walk_completeStudentRemoval
    (hA : ∀ (node : String) (frame : TaskFrame), frame.action = .studentDeleteCold → A node frame)
    (taskUuid : String) : Respects Q (completeStudentRemoval taskUuid) := by
  refine .bind (.read _) fun s => ?_
  dsimp only
  split
  · exact .pure _
  · split
    · exact .pure _
    · refine .bind (respects_lift _) fun _ => .bind (respects_lift _) fun _ =>
        .bind (respects_lift _) fun _ => .ite (fun _ => .pure _) fun _ =>
          .bind (respects_lift _) fun values => ?_
      split
      · refine .bind (respects_lift _) fun states => .ite (fun _ => .pure _) fun _ =>
          .bind (respects_lift _) fun nodes => .forM _ fun node _ => ?_
        exact walk_enqueueColdCleanup w _ _ _ _ _ fun frame ha _ => hA _ frame ha
      · exact .pure _

/-! ## Placements -/

theorem walk_touch (placementId : Nat) : Respects Q (touch placementId) :=
  .bind (.read _) fun _ =>
    walk_updatePlacement w _ _ _ (fun _ => .inl rfl) (fun _ => rfl) fun _ => rfl

section

variable (hA : ∀ node frame, TaskFrame.Upkeep frame → A node frame)

include hA

theorem walk_enqueuePlacementCreate (p : Placement) (actor : Option String) :
    Respects Q (enqueuePlacementCreate p actor) :=
  .bind (walk_enqueueUpkeep w hA _ _ _ _
    (upkeep_of ⟨⟨nofun, nofun⟩, nofun⟩ fun _ => legible_placementCreate _)) fun _ => .pure _

theorem walk_updatePlacementQuota (placementId : Nat) (fastQuotaBytes : Option Int)
    (coldQuotaBytes : Option (Option Int)) (actor : Option String)
    (set : ∀ f h, (∀ r, PlacementRow.Quiet r (f r)) →
      (∀ r, (f r).completionEmailSentAt = r.completionEmailSentAt) →
      Respects Q (updatePlacement placementId f h)) :
    Respects Q
      (updatePlacementQuota placementId fastQuotaBytes coldQuotaBytes actor) := by
  refine .bind (.read _) fun p => ?_
  split
  · exact respects_failWith _
  · refine .bind (.read _) fun capacity => ?_
    dsimp only
    refine .ite (fun _ => respects_failWith _) fun _ => .ite (fun _ => respects_failWith _) fun _ => ?_
    refine .bind (.optionForM _ fun _ _ => set _ _ (fun _ => .inl rfl) fun _ => rfl) fun _ => ?_
    refine .bind (.optionForM _ fun _ _ => set _ _ (fun _ => .inl rfl) fun _ => rfl) fun _ =>
      .bind (walk_touch w _) fun _ => ?_
    exact .bind (walk_enqueueUpkeep w hA _ _ _ _
      (upkeep_of ⟨⟨nofun, nofun⟩, nofun⟩ fun _ => legible_setQuota _ _ _)) fun _ =>
        .bind (.read _) fun _ => walk_audit w _ _ _ _

theorem walk_destroyPlacement (placementId : Nat) (actor : Option String) :
    Respects Q (destroyPlacement placementId actor) := by
  refine .bind (.read _) fun p => ?_
  split
  · exact .pure _
  · refine .bind (respects_assertNoSmbDependents _) fun _ => .bind (.read _) fun _ => ?_
    exact .bind (walk_updatePlacement w _ _ _ (fun _ => .inr (.inr rfl)) (fun _ => rfl)
      fun _ => rfl) fun _ => .bind (walk_enqueueUpkeep w hA _ _ _ _
        (upkeep_of ⟨⟨nofun, nofun⟩, nofun⟩ fun _ => legible_lab _)) fun _ => walk_audit w _ _ _ _

end

/-! ## The removal of a student -/

theorem walk_removeStudentFromLab
    (hA : ∀ (node : String) (frame : TaskFrame), frame.action = .studentRemove → A node frame)
    (hmembers : ∀ p, Respects Q (Slot.placementMembers.delete p))
    (hroster : ∀ p, Respects Q (Slot.labMembers.delete p))
    (labId studentId : Nat) (deleteData : Bool) (actor : Option String) :
    Respects Q (removeStudentFromLab labId studentId deleteData actor) := by
  refine .bind (.read _) fun lab => ?_
  split
  · exact respects_failWith _
  · refine .ite (fun _ => respects_failWith _) fun _ => .bind (.read _) fun member => ?_
    split
    · exact respects_failWith _
    · refine .bind (.read _) fun placements => ?_
      refine .bind ?_ fun removal => .bind (.forM _ fun p _ => ?_) fun _ =>
        .bind (hroster _) fun _ => .bind (walk_audit w _ _ _ _) fun _ => ?_
      · exact .ite (fun _ => .bind (w.draw _) fun _ => .pure _) fun _ => .pure _
      · exact walk_removeMemberFromPlacement w _ _ _ _ _ _ (fun frame ha _ => hA _ frame ha) hmembers
      · unfold removeStudentFromLab.notify
        split
        · exact .ite (fun _ => .pure _) fun _ => w.emit _ trivial
        · exact .pure _

/-! ## Labs -/

theorem walk_createLab (name : String) (piName piEmail actor : Option String) :
    Respects Q (createLab name piName piEmail actor) := by
  refine .ite (fun _ => respects_failWith _) fun hvalid => .bind (.read _) fun lab => ?_
  split
  · exact respects_failWith _
  · refine .bind (.read _) fun _ => .bind (w.insertLab _ _ fun _ => ⟨fun hname => ?_, rfl⟩) fun _ =>
      .bind (walk_audit w _ _ _ _) fun _ => .pure _
    -- the empty name is not a valid one
    subst hname
    exact hvalid rfl

theorem walk_updateLabMeta (labId : Nat) (piName piEmail : Option (Option String))
    (actor : Option String) : Respects Q (updateLabMeta labId piName piEmail actor) := by
  refine .bind (.read _) fun lab => ?_
  split
  · exact respects_failWith _
  · exact .bind (.read _) fun _ => .bind (w.updateLab _ _ _ fun _ => rfl) fun _ => walk_audit w _ _ _ _

theorem walk_destroyLab (hA : ∀ node frame, TaskFrame.Upkeep frame → A node frame)
    (labId : Nat) (actor : Option String) (force : Bool) :
    Respects Q (destroyLab labId actor force) := by
  refine .bind (.read _) fun lab => ?_
  split
  · exact .pure _
  · refine .bind (.read _) fun placements => .bind (.forM _ fun p _ => ?_) fun _ =>
      .ite (fun _ => .pure _) fun _ => .bind (.read _) fun _ =>
        .bind (w.deleteLabRow _) fun _ => .bind (.mapM _ fun sid _ => ?_) fun _ =>
          walk_audit w _ _ _ _
    · exact .ite (fun _ => w.forceDeletePlacement hA _ _) fun _ =>
        walk_destroyPlacement w hA _ _
    · exact .bind (.read _) fun _ => .ite (fun _ => .pure _) fun _ =>
        .bind (w.deleteStudentRow _) fun _ => .pure _

/-! ## Telemetry -/

theorem walk_ingestTelemetry (hlists : ∀ f h, Respects Q (Op.writeLists f h)) (node : String)
    (payload : Json) : Respects Q (ingestTelemetry node payload) := by
  intro s
  refine trans_of Q ?_ (walk_ingestTelemetry_rest (w.ingest hlists) node payload s)
  exact w.updateNode node (fun n =>
    { n with
      pools := stringify ((Value.field "pools" payload).orElse (some (.arr [])))
      lastSeen := some s.now })
    (fun _ => ⟨rfl, rfl⟩) (fun _ => ⟨rfl, rfl, rfl, rfl, rfl⟩) s

/-! ## Frames without a result -/

theorem walk_handleLog (node : String) (frame : LogFrame) :
    Respects Q (handleLog node frame) :=
  .bind (.read _) fun _ => .bind (walk_insertLog w _) fun _ => walk_maybeAlertOnLog w _ _ _ _ _

theorem walk_emailGpuEvent (node : String) (user lab : Option String) (state : String) :
    Respects Q (emailGpuEvent node user lab state) := by
  refine .bind (.read _) fun s => ?_
  dsimp only
  split
  · exact .pure _
  · refine .ite (fun _ => .pure _) fun _ => .ite (fun _ => .pure _) fun _ => ?_
    split
    · exact .pure _
    · refine .ite (fun _ => .pure _) fun _ => .ite (fun _ => .pure _) fun _ => ?_
      exact .bind (w.gpuMailState _ _) fun _ => w.emit _ trivial

theorem walk_handleEvent (node : String) (frame : EventFrame) :
    Respects Q (handleEvent node frame) :=
  .ite (fun _ => .pure _) fun _ => .bind (.read _) fun _ => .bind (respects_placementNamed _ _) fun _ =>
    .bind (w.lists _ _ fun _ => ⟨rfl, rfl⟩) fun _ => walk_emailGpuEvent w _ _ _ _

theorem walk_logMailFailure (source msg node : String) (lab user : Value) (e : Error) :
    Respects Q (logMailFailure source msg node lab user e) := by
  refine .bind (.read _) fun _ => ?_
  split
  · exact walk_insertLog w _
  · exact .pure _

/-- The call waits for the mailer's answer about a completion mail, or for nothing. -/
def Thread.Completing (thread : Thread) : Prop :=
  thread = [] ∨ ∃ placementId node lab, thread = [.completionSent placementId node lab]

omit w in
theorem maybeDeliverPlacementCompletion_completing (labName : Value) (nodeName : String) :
    Returns Thread.Completing (maybeDeliverPlacementCompletion labName nodeName) := by
  refine .bind fun p => ?_
  split
  · exact .pure (.inl rfl)
  · refine .bind fun s => ?_
    dsimp only
    split
    · refine .ite (.pure (.inl rfl)) (.ite (.pure (.inl rfl)) ?_)
      exact .bind fun _ => .bind fun _ => .pure (.inr ⟨_, _, _, rfl⟩)
    · exact .pure (.inl rfl)

omit w in
/-- A completion mail: the claim of the timestamp, the mail, and the call that waits for the
answer. -/
theorem respects_startCompletionMail
    (hclaim : ∀ placementId, Respects Q
      (updatePlacement placementId fun r => { r with completionEmailSentAt := some (-1) }))
    (hemit : ∀ placementId lab node recipient usernames,
      Respects Q (Op.emit (.completionMail placementId lab node recipient usernames)))
    (hspawn : ∀ placementId node lab, Respects Q (Op.spawn [.completionSent placementId node lab]))
    (hlists : ∀ f h, (∀ d, Db.SameAlerts d (f d)) → Respects Q (Op.writeLists f h))
    (labName : Value) (node : String) : Respects Q (startCompletionMail labName node) := by
  refine .bind_returns (.tryCatch ?_ fun e => ?_)
    (.tryCatch (maybeDeliverPlacementCompletion_completing _ _) fun e => ?_) ?_
  · refine .bind (respects_getPlacementByLabNode _ _) fun p => ?_
    split
    · exact .pure _
    · refine .bind (.read _) fun s => ?_
      dsimp only
      split
      · exact .ite (fun _ => .pure _) fun _ => .ite (fun _ => .pure _) fun _ =>
          .bind (hclaim _) fun _ => .bind (hemit _ _ _ _ _) fun _ => .pure _
      · exact .pure _
  · refine .bind (.bind (.read _) fun _ => ?_) fun _ => .pure _
    split
    · exact hlists _ _ fun _ => ⟨rfl, rfl⟩
    · exact .pure _
  · exact .bind fun _ => .pure (.inl rfl)
  · rintro _ (rfl | ⟨placementId, node, lab, rfl⟩)
    · exact .pure _
    · exact hspawn _ _ _

omit w in
/-- A reveal of a password: the column is cleared, and the password leaves. -/
theorem respects_consumePlacementCredential
    (hclear : ∀ memberId, Respects Q (clearCredential memberId))
    (haudit : ∀ actor action target detail, Respects Q (audit actor action target detail))
    (hreveal : ∀ memberId lab node username password,
      Respects Q (Op.emit (.credentialReveal memberId lab node username password)))
    (placementId studentId : Nat) (actor : Option String) :
    Respects Q (consumePlacementCredential placementId studentId actor) := by
  refine .bind (.read _) fun row => ?_
  dsimp only
  split
  · exact respects_failWith _
  · refine .ite (fun _ => respects_failWith _) fun _ => ?_
    split
    · exact respects_failWith _
    · refine .bind (.read _) fun _ => .ite (fun _ => respects_failWith _) fun _ =>
        .ite (fun _ => respects_failWith _) fun _ => .bind (hclear _) fun _ => ?_
      exact .bind (haudit _ _ _ _) fun _ => .bind (hreveal _ _ _ _ _) fun _ => .pure _

/-! ## Acts -/

omit w in
theorem respects_markPlacement (node : String)
    (hplacement : ∀ i f h, (∀ r, (f r).quotas = r.quotas) →
      (∀ r, (f r).completionEmailSentAt = r.completionEmailSentAt) →
      Respects Q (updatePlacement i f h))
    (lab : Value) (state : PlacementState) (error : Option String) :
    Respects Q (markPlacementStateByLabNode lab node state error) := by
  refine .bind (respects_getPlacementByLabNode _ _) fun p => ?_
  split
  · exact .pure _
  · exact .bind (.read _) fun _ => hplacement _ _ _ (fun _ => rfl) fun _ => rfl

omit w in
theorem respects_markMember (node : String)
    (hmember : ∀ i state error now, Respects Q
      (updateMember i (PlacementMemberRow.marked state error now) fun _ => ⟨rfl, rfl, rfl⟩))
    (lab username : Value) (state : MemberState) (error : Option String) :
    Respects Q (markPlacementMemberState lab node username state error) := by
  refine .bind (respects_memberByNames _ _ _) fun m => ?_
  split
  · exact .pure _
  · exact .bind (.read _) fun _ => hmember _ _ _ _

omit w in
theorem respects_confirmDestroyed (node : String)
    (hdelete : ∀ victim, Respects Q (deletePlacements victim)) (lab : Value) :
    Respects Q (confirmPlacementDestroyed lab node) := by
  refine .bind (respects_getPlacementByLabNode _ _) fun p => ?_
  split
  · exact .pure _
  · exact .ite (fun _ => hdelete _) fun _ => .pure _

theorem walk_storeCapabilities (node : String) (c : Value) :
    Respects Q (storeCapabilities node c) :=
  .bind (.read _) fun _ => w.updateNode _ _ _ fun _ => ⟨rfl, rfl, rfl, rfl, rfl⟩

omit w in
theorem respects_markDone (htasks : ∀ p f h, Respects Q (updateTasks p f h)) (node : String)
    (frame : ResultFrame) :
    Respects Q
      (markTaskState node frame.id (.done frame.ok) frame.result
        (if frame.ok then none else frame.error) (frame.cached == some true)) :=
  .bind (.read _) fun _ => .bind (.read _) fun _ => .bind (htasks _ _ _) fun _ => .pure _

theorem walk_alertFailure (frame : ResultFrame) (t : TaskRow) : Respects Q (alertFailure frame t) :=
  .ite (fun _ => .pure _) fun _ => walk_alertTaskFailed w _ _ _

theorem walk_logResult (frame : ResultFrame) : Respects Q (logResult frame) := by
  unfold logResult
  split
  · exact .pure _
  · exact .ite (fun _ => .pure _) fun _ => .bind (.read _) fun _ => walk_insertLog w _

/-- The result of a task, where `Q` allows the marks, the mail and the cleanup of cold data. -/
theorem walk_handleResult
    (hA : ∀ (node : String) (frame : TaskFrame), frame.action = .studentDeleteCold → A node frame)
    (htasks : ∀ p f h, Respects Q (updateTasks p f h))
    (hdelete : ∀ victim, Respects Q (deletePlacements victim))
    (hsettled : ∀ node id ok, Respects Q (Op.emit (.settled node id ok)))
    (hplacement : ∀ i f h, (∀ r, (f r).quotas = r.quotas) →
      (∀ r, (f r).completionEmailSentAt = r.completionEmailSentAt) →
      Respects Q (updatePlacement i f h))
    (hmember : ∀ i state error now, Respects Q
      (updateMember i (PlacementMemberRow.marked state error now) fun _ => ⟨rfl, rfl, rfl⟩))
    (hcompletion : ∀ lab node, Respects Q (startCompletionMail lab node))
    (node : String) (frame : ResultFrame) : Respects Q (handleResult node frame) := by
  have lifecycle : ∀ t, Respects Q (applyLifecycle node frame t) := by
    intro t
    refine .bind (respects_lift _) fun lab => .ite (fun _ => walk_storeCapabilities w _ _) fun _ =>
      .ite (fun _ => walk_storeCapabilities w _ _) fun _ =>
        .ite (fun _ => respects_markPlacement node hplacement _ _ _) fun _ =>
          .ite (fun _ => ?_) fun _ => .ite (fun _ => .pure _) fun _ => ?_
    · exact .ite (fun _ => respects_confirmDestroyed node hdelete _) fun _ =>
        respects_markPlacement node hplacement _ _ _
    · refine .bind (respects_lift _) fun username => .ite (fun _ => ?_) fun _ =>
        .ite (fun _ => walk_completeStudentRemoval w hA _) fun _ => .pure _
      exact .bind (respects_markMember node hmember _ _ _ _) fun _ => .ite (fun _ => .bind
        (w.startCredentialMail _ _ _) fun _ => hcompletion _ _) fun _ => .pure _
  refine .bind (respects_markDone htasks node frame) fun changed =>
    .ite (fun _ => ?_) fun _ => .pure _
  refine .bind (hsettled _ _ _) fun _ => .bind (.bind (.read _) fun t => ?_) fun _ =>
    walk_logResult w _
  split
  · exact .pure _
  · exact .bind (walk_alertFailure w _ _) fun _ => lifecycle _

omit w in
theorem respects_discard {α : Type} {x : Op α} (h : Respects Q x) :
    Respects Q (discard x) := .bind h fun _ => .pure _

/-- The acts that add nobody to a placement, and are no results, removals of students, resumed
calls and acts of the registry. -/
def Act.Upkeep : Act → Prop
  | .setNodeAlias .. | .createLab .. | .updateLabMeta .. | .destroyLab .. => True
  | .updatePlacementQuota .. | .retryPlacement .. => True
  | .destroyPlacement .. | .forceDeletePlacement .. => True
  | .deliverPlacementCredential .. | .maybeDeliverPlacementCompletion .. | .maintain .. => True
  | .frame _ (.result _) => False
  | .frame .. | .drainNode .. | .tick .. | .configure .. => True
  | _ => False

/-- The acts that change the quotas of a placement. -/
def Act.Requotas : Act → Prop
  | .updatePlacementQuota .. | .recreatePlacement .. => True
  | _ => False

/-- The act that claims the completion mail of a placement, results apart. -/
def Act.Completes : Act → Prop
  | .maybeDeliverPlacementCompletion .. => True
  | _ => False

/-- The telemetry frames, where the alerts do not matter. -/
theorem walk_telemetry (hlists : ∀ f h, Respects Q (Op.writeLists f h)) {a : Act} (node : String)
    (payload : Option Json) (ha : a = .frame node (.telemetry payload)) : Respects Q a.run := by
  rw [ha]
  exact walk_ingestTelemetry w hlists _ _

/-- **Every act of upkeep respects `Q`.** -/
theorem walk_upkeep (hA : ∀ node frame, TaskFrame.Upkeep frame → A node frame) {a : Act}
    (hcompletion : a.Completes → ∀ lab node, Respects Q (startCompletionMail lab node))
    (hquotas : a.Requotas → ∀ placementId f h, (∀ r, PlacementRow.Quiet r (f r)) →
      Respects Q (updatePlacement placementId f h))
    (htelemetry : ∀ node payload, a = .frame node (.telemetry payload) → Respects Q a.run)
    (ha : a.Upkeep) : Respects Q a.run := by
  cases a with
  | setNodeAlias name newAlias actor => exact walk_setNodeAlias w _ _ _
  | createLab name piName piEmail actor => exact respects_discard (walk_createLab w _ _ _ _)
  | updateLabMeta labId piName piEmail actor => exact walk_updateLabMeta w _ _ _ _
  | destroyLab labId actor force => exact walk_destroyLab w hA _ _ _
  | updatePlacementQuota id fast cold actor => exact walk_updatePlacementQuota w hA _ _ _ _ fun f h hf _ => hquotas trivial _ f h hf
  | retryPlacement id actor => exact w.retryPlacement hA _ _
  | destroyPlacement id actor => exact walk_destroyPlacement w hA _ _
  | forceDeletePlacement id actor => exact w.forceDeletePlacement hA _ _
  | deliverPlacementCredential lab node username => exact w.startCredentialMail _ _ _
  | maybeDeliverPlacementCompletion lab node => exact hcompletion trivial _ _
  | maintain node job actor =>
      refine respects_discard (walk_enqueueUpkeep w hA _ _ _ _ (upkeep_of ?_ (legible_chore job)))
      cases job <;> exact ⟨⟨nofun, nofun⟩, nofun⟩
  | frame node received =>
      cases received with
      | hello frame => exact .pure _
      | result frame => exact ha.elim
      | receipt id => exact walk_markTaskReceived w _ _
      | log frame => exact walk_handleLog w _ _
      | event frame => exact walk_handleEvent w _ _
      | telemetry payload => exact htelemetry _ _ rfl
  | drainNode node sends => exact walk_drainBatch w _ _
  | tick ms => exact w.clock _ _ fun _ => ⟨_, _, Nat.le_add_right _ _, rfl⟩
  | configure settings => exact w.clock _ _ fun _ => ⟨_, _, le_rfl, rfl⟩
  | _ => exact ha.elim

/-- The acts of the registry of nodes. -/
def Act.Registry : Act → Prop
  | .provisionNode .. | .rotateNodeToken .. | .revokeNode .. | .deleteNode .. => True
  | .setNodeColdStorage .. | .registerNode .. | .deregisterNode .. => True
  | _ => False

omit w in
/-- The checks of an owner only read. -/
theorem respects_coldOwner (name : String) (backend : ColdBackend) (ownerName : Option String)
    (node : NodeRow) : Respects Q (setNodeColdStorage.coldOwner name backend ownerName node) := by
  unfold setNodeColdStorage.coldOwner
  split
  · exact .pure _
  · split
    · exact respects_failWith _
    · refine .ite (fun _ => respects_failWith _) fun _ => .bind (.read _) fun owner => ?_
      dsimp only
      split
      · exact respects_failWith _
      · exact .bind (.read _) fun _ => .ite (fun _ => respects_failWith _) fun _ =>
          .ite (fun _ => respects_failWith _) fun _ =>
            .ite (fun _ => respects_failWith _) fun _ => .pure _

/-- The acts of the registry of nodes, where `Q` does not look at the table of nodes. -/
theorem walk_registryAct (hn : ∀ s T, Q s (Slot.nodes.set s T))
    (hp : ∀ victim, Respects Q (deletePlacements victim)) {a : Act}
    (hd : ∀ name actor force, a = .deleteNode name actor force →
      Respects Q (deleteTasks fun t => t.node == name))
    (ha : a.Registry) : Respects Q a.run := by
  have update : ∀ p f h, Respects Q (Slot.nodes.update p f h) := fun _ _ _ _ => hn _ _
  have insert : ∀ mk hmk, Respects Q (Slot.nodes.insert mk hmk) := by
    refine fun mk hmk => .exchange fun s a s' hs => ?_
    split at hs
    · cases hs
      exact hn _ _
    · cases hs
  have provision : ∀ name actor, Respects Q (provisionNode name actor) := by
    intro name actor
    refine .ite (fun _ => .bind (w.draw _) fun _ => .bind (.read _) fun s => ?_) fun _ =>
      respects_failWith _
    dsimp only
    split
    · exact .bind (update _ _ _) fun _ => .bind (walk_audit w _ _ _ _) fun _ => .pure _
    · exact .bind (insert _ _) fun _ => .bind (walk_audit w _ _ _ _) fun _ => .pure _
  cases a with
  | provisionNode name actor => exact .bind (provision _ _) fun _ => .pure _
  | rotateNodeToken name actor =>
      refine .bind (.bind (.read _) fun row => ?_) fun _ => .pure _
      split
      · exact respects_failWith _
      · exact provision _ _
  | revokeNode name actor => exact .bind (update _ _ _) fun _ => walk_audit w _ _ _ _
  | deleteNode name actor force =>
      refine .bind (.read _) fun row => ?_
      dsimp only
      split
      · exact respects_failWith _
      · refine .ite (fun _ => respects_failWith _) fun _ => .bind (.read _) fun _ =>
          .bind (.read _) fun _ => .ite (fun _ => respects_failWith _) fun _ =>
            .ite (fun _ => respects_failWith _) fun _ =>
              .bind (.atomically ?_) fun _ => walk_audit w _ _ _ _
        have rest : ∀ nodeId, Respects Q (do
            deleteTasks fun t => t.node == name
            Op.writeLists fun d =>
              { d with gpuSnapshot := d.gpuSnapshot.filter fun g => g.node != name }
            deleteNodeRow nodeId) := fun _ =>
          .bind (hd _ _ _ rfl) fun _ => .bind (w.lists _ _ fun _ => ⟨rfl, rfl⟩) fun _ =>
            .bind (.read _) fun _ => .ite (fun _ => .throw _) fun _ s => hn s _
        exact .ite (fun _ => .bind (hp _) fun _ =>
          .bind (update _ _ _) fun _ => rest _) fun _ => rest _
  | setNodeColdStorage name backend ownerName actor =>
      refine .bind (.read _) fun row => ?_
      dsimp only
      split
      · exact respects_failWith _
      · refine .bind (.read _) fun _ => .ite (fun _ => respects_failWith _) fun _ =>
          .bind (respects_coldOwner _ _ _ _) fun _ =>
            .bind (update _ _ _) fun _ => walk_audit w _ _ _ _
  | registerNode node capabilities =>
      refine .bind (.read _) fun s => ?_
      split
      · exact update _ _ _
      · exact .bind (insert _ _) fun _ => .pure _
  | deregisterNode node => exact .bind (.read _) fun _ => update _ _ _
  | _ => exact ha.elim

end

end MassDeployment
