import MassDeployment.Controller.Sampling
import MassDeployment.Lib.Dedup

set_option autoImplicit false

/-! # Quota alerts are a window apart (`ingest.ts`, `maintenance.ts`)

The tables of alerts are the memory that keeps a heartbeat from warning twice within a window. An
alert goes with its placement or student, which do not come back, and when it is past the retention
of a day or more. Everything else leaves the alerts there are, and only heartbeats add some.
-/

namespace MassDeployment

open Js Prog

/-! ## What keeps the alerts -/

/-- An alert of a placement that was there, which is remembered as long as the placement is. -/
structure QuotaHeld (r : QuotaAlertRow) (d : Db) : Prop where
  placed : r.placementId ≤ d.labPlacements.seq
  lab : ∀ p ∈ d.labPlacements.rows, p.id = r.placementId → p.labId = r.labId
  held : (∃ p ∈ d.labPlacements.rows, p.id = r.placementId) → r ∈ d.quotaAlerts

/-- The same for an alert of a student on a placement. -/
structure StudentHeld (r : StudentQuotaAlertRow) (d : Db) : Prop where
  placed : r.placementId ≤ d.labPlacements.seq
  known : r.studentId ≤ d.students.seq
  held : (∃ p ∈ d.labPlacements.rows, p.id = r.placementId) →
    (∃ st ∈ d.students.rows, st.id = r.studentId) → r ∈ d.studentQuotaAlerts

/-- Nobody is warned, and who was warned is not forgotten as long as he could be warned again. -/
structure Retains (s s' : Controller) : Prop where
  now : s.now ≤ s'.now
  quota : s'.db.quotaAlerts.Sublist s.db.quotaAlerts
  student : s'.db.studentQuotaAlerts.Sublist s.db.studentQuotaAlerts
  quotaHeld : ∀ r, QuotaHeld r s.db → QuotaHeld r s'.db
  studentHeld : ∀ r, StudentHeld r s.db → StudentHeld r s'.db

/-- The clock does not go back, and the alerts are what they were. -/
def KeepsAlerts (s s' : Controller) : Prop := s.now ≤ s'.now ∧ s.db.SameAlerts s'.db

instance : IsPreorder Controller KeepsAlerts where
  refl _ := ⟨le_rfl, rfl, rfl⟩
  trans _ _ _ h h' := ⟨h.1.trans h'.1, h'.2.1.trans h.2.1, h'.2.2.trans h.2.2⟩

instance : IsPreorder Controller Retains where
  refl _ := ⟨le_rfl, .refl _, .refl _, fun _ => id, fun _ => id⟩
  trans _ _ _ h h' := ⟨h.now.trans h'.now, h'.quota.trans h.quota, h'.student.trans h.student,
    fun r => h'.quotaHeld r ∘ h.quotaHeld r, fun r => h'.studentHeld r ∘ h.studentHeld r⟩

section

variable {s s' : Controller}

/-- The tables move on, and alerts are kept as far as their placement and student are. -/
theorem QuotaHeld.evolves {r : QuotaAlertRow} (h : QuotaHeld r s.db) (he : s.Evolves s')
    (hkept : r ∈ s.db.quotaAlerts → (∃ p ∈ s'.db.labPlacements.rows, p.id = r.placementId) →
      r ∈ s'.db.quotaAlerts) : QuotaHeld r s'.db where
  placed := h.placed.trans he.labPlacements.seq
  lab p hp hid := by
    obtain ⟨q, hq, hqid, hg⟩ := he.labPlacements.old h.placed hp hid
    exact hg.2.1.trans (h.lab q hq hqid)
  held hlive := by
    obtain ⟨p, hp, hid⟩ := hlive
    obtain ⟨q, hq, hqid, -⟩ := he.labPlacements.old h.placed hp hid
    exact hkept (h.held ⟨q, hq, hqid⟩) ⟨p, hp, hid⟩

theorem StudentHeld.evolves {r : StudentQuotaAlertRow} (h : StudentHeld r s.db) (he : s.Evolves s')
    (hkept : r ∈ s.db.studentQuotaAlerts →
      (∃ p ∈ s'.db.labPlacements.rows, p.id = r.placementId) →
      (∃ st ∈ s'.db.students.rows, st.id = r.studentId) → r ∈ s'.db.studentQuotaAlerts) :
    StudentHeld r s'.db where
  placed := h.placed.trans he.labPlacements.seq
  known := h.known.trans he.students.seq
  held hlive hknown := by
    obtain ⟨p, hp, hid⟩ := hlive
    obtain ⟨st, hst, hsid⟩ := hknown
    obtain ⟨q, hq, hqid, -⟩ := he.labPlacements.old h.placed hp hid
    obtain ⟨st', hst', hsid', -⟩ := he.students.old h.known hst hsid
    exact hkept (h.held ⟨q, hq, hqid⟩ ⟨st', hst', hsid'⟩) ⟨p, hp, hid⟩ ⟨st, hst, hsid⟩

theorem Retains.of_evolves (he : s.Evolves s') (h : KeepsAlerts s s') : Retains s s' where
  now := h.1
  quota := h.2.1 ▸ .refl _
  student := h.2.2 ▸ .refl _
  quotaHeld _ hr := hr.evolves he fun hmem _ => h.2.1 ▸ hmem
  studentHeld _ hr := hr.evolves he fun hmem _ _ => h.2.2 ▸ hmem

theorem Retains.frame (hnow : s.now ≤ s'.now) (hp : s'.db.labPlacements = s.db.labPlacements)
    (hs : s'.db.students = s.db.students) (ha : s.db.SameAlerts s'.db) : Retains s s' where
  now := hnow
  quota := ha.1 ▸ .refl _
  student := ha.2 ▸ .refl _
  quotaHeld _ h := ⟨hp ▸ h.placed, hp ▸ h.lab, fun hlive => ha.1 ▸ h.held (hp ▸ hlive)⟩
  studentHeld _ h := ⟨hp ▸ h.placed, hs ▸ h.known,
    fun hlive hknown => ha.2 ▸ h.held (hp ▸ hlive) (hs ▸ hknown)⟩

end

theorem retains_of {α : Type} {x : Op α} (h : Respects KeepsAlerts x) : Respects Retains x :=
  fun s => .of_evolves (x.keeps s) (h s)

/-! ## Acts other than heartbeats -/

theorem retains_members : MemberWalk Retains where
  lists f h hf s :=
    have he := h s.db
    .frame le_rfl he.2.2.2.2.1 he.2.2.1 (hf s.db)
  emit _ _ := .frame le_rfl rfl rfl ⟨rfl, rfl⟩
  alertState _ _ _ := .frame le_rfl rfl rfl ⟨rfl, rfl⟩
  gpuMailState _ _ _ := .frame le_rfl rfl rfl ⟨rfl, rfl⟩
  draw _ _ := .frame le_rfl rfl rfl ⟨rfl, rfl⟩
  spawn _ _ := .frame le_rfl rfl rfl ⟨rfl, rfl⟩
  takeThread _ _ := .frame le_rfl rfl rfl ⟨rfl, rfl⟩
  clock f h hf s := by
    obtain ⟨now, settings, hle, he⟩ := hf s
    show Retains s (f s)
    rw [he]
    exact .frame hle rfl rfl ⟨rfl, rfl⟩
  claimTask node workerId := by
    refine .bind (.read _) fun claimed => ?_
    split
    · exact .pure _
    · exact .bind (fun _ => .frame le_rfl rfl rfl ⟨rfl, rfl⟩) fun _ =>
        .bind (respects_lift _) fun _ => .pure _
  ackTask _ _ _ _ := .frame le_rfl rfl rfl ⟨rfl, rfl⟩
  retryTask _ _ _ := .bind (.read _) fun _ _ => .frame le_rfl rfl rfl ⟨rfl, rfl⟩
  updateTasks _ _ _ _ := .frame le_rfl rfl rfl ⟨rfl, rfl⟩
  enqueueTask node action params requestedBy s := by
    simp only [enqueueTask]
    split <;> exact .frame le_rfl rfl rfl ⟨rfl, rfl⟩
  updateNode _ _ _ _ _ := .frame le_rfl rfl rfl ⟨rfl, rfl⟩
  placementMembers _ _ := .frame le_rfl rfl rfl ⟨rfl, rfl⟩

theorem retains_labs (s : Controller) (T : Table LabRow) : Retains s (Slot.labs.set s T) :=
  .frame le_rfl rfl rfl ⟨rfl, rfl⟩

theorem retains_labMembers (s : Controller) (T : Table LabMemberRow) :
    Retains s (Slot.labMembers.set s T) := .frame le_rfl rfl rfl ⟨rfl, rfl⟩

theorem keepsAlerts_students (s : Controller) (T : Table StudentRow) :
    KeepsAlerts s (Slot.students.set s T) := ⟨le_rfl, rfl, rfl⟩

theorem keepsAlerts_labPlacements (s : Controller) (T : Table PlacementRow) :
    KeepsAlerts s (Slot.labPlacements.set s T) := ⟨le_rfl, rfl, rfl⟩

/-- The alerts of a placement go with it. -/
theorem retains_deletePlacements (victim : PlacementRow → Bool) :
    Respects Retains (deletePlacements victim) := by
  intro s
  have he := (deletePlacements victim).keeps s
  have hgone : ∀ placementId, (∃ p ∈ (s.db.labPlacements.delete victim).rows, p.id = placementId) →
      ((s.db.labPlacements.select victim).map PlacementRow.id).contains placementId = false := by
    rintro placementId ⟨p, hp, rfl⟩
    obtain ⟨hp, hkept⟩ := Table.mem_delete.mp hp
    refine Bool.eq_false_iff.mpr fun hc => ?_
    obtain ⟨q, hq, hid⟩ := List.mem_map.mp (List.contains_iff_mem.mp hc)
    obtain ⟨hq, hvictim⟩ := Table.mem_select.mp hq
    obtain rfl := s.db.labPlacements.eq_of_id hq hp hid
    rw [hvictim] at hkept
    cases hkept
  exact
    { now := le_rfl
      quota := List.filter_sublist
      student := List.filter_sublist
      quotaHeld := fun r hr => hr.evolves he fun hmem hlive =>
        List.mem_filter.mpr ⟨hmem, by rw [hgone _ hlive]; rfl⟩
      studentHeld := fun r hr => hr.evolves he fun hmem hlive _ =>
        List.mem_filter.mpr ⟨hmem, by rw [hgone _ hlive]; rfl⟩ }

/-- The alerts of a lab are alerts of its placements. -/
theorem retains_deleteLabRow (labId : Nat) : Respects Retains (deleteLabRow labId) := by
  intro s
  have hplacements := retains_deletePlacements (fun p => p.labId == labId) s
  have he := (deleteLabRow labId).keeps s
  exact
    { now := le_rfl
      quota := List.filter_sublist.trans hplacements.quota
      student := hplacements.student
      quotaHeld := fun r hr => hr.evolves he fun hmem hlive => by
        have hmem' := (hplacements.quotaHeld r hr).held hlive
        refine List.mem_filter.mpr ⟨hmem', ?_⟩
        obtain ⟨p, hp, hid⟩ := hlive
        obtain ⟨hp, hkept⟩ := Table.mem_delete.mp hp
        rw [← hr.lab p hp hid]
        simpa using hkept
      studentHeld := fun r hr => hr.evolves he fun _ hlive hknown =>
        (hplacements.studentHeld r hr).held hlive hknown }

/-- The alerts of a student go with him. -/
theorem retains_deleteStudentRow (studentId : Nat) :
    Respects Retains (deleteStudentRow studentId) := by
  refine .bind (.read _) fun held => .ite (fun _ => .throw _) fun _ => ?_
  refine .bind (respects_delete retains_labMembers _) fun _ =>
    .bind (respects_delete retains_members.placementMembers _) fun _ => ?_
  refine fun s => ⟨le_rfl, .refl _, List.filter_sublist, fun r hr => ?_, fun r hr => ?_⟩
  · exact hr.evolves (Prog.keeps _ s) fun hmem _ => hmem
  · refine hr.evolves (Prog.keeps _ s) fun hmem _ hknown => List.mem_filter.mpr ⟨hmem, ?_⟩
    obtain ⟨st, hst, hid⟩ := hknown
    have hkept := (Table.mem_delete.mp hst).2
    rw [← hid]
    simpa using hkept

theorem retains_enrols : Enrols (fun _ _ => True) Retains := by
  have henqueue : ∀ node action params requestedBy,
      (∀ frame : TaskFrame, frame.action = action → frame.params = params → frame.Upkeep) →
      Respects Retains (enqueueTask node action params requestedBy) :=
    fun node action params requestedBy _ =>
      retains_members.enqueueTask node action params requestedBy
  refine retains_members.enrols (fun _ _ _ _ => respects_update retains_labs _ _ _)
    (fun mk hmk _ => respects_insert retains_labs mk hmk)
    (fun p f h => retains_of (respects_update keepsAlerts_students p f h))
    (fun p f h => retains_of (respects_tryUpdate keepsAlerts_students p f h))
    (fun mk hmk => retains_of (respects_insert keepsAlerts_students mk hmk))
    (respects_insertLabMember (respects_insert retains_labMembers))
    (fun p f h _ _ => retains_of (respects_update keepsAlerts_labPlacements p f h))
    ?_ ?_ ?_ retains_deleteLabRow retains_deleteStudentRow
  · refine respects_createPlacement henqueue retains_members.audit (fun _ _ mk hmk _ => ?_)
      retains_members.provisionMember
    refine .bind (.read _) fun s => ?_
    split
    · exact retains_of (respects_insert keepsAlerts_labPlacements _ _)
    · exact .throw _
  · exact respects_retryPlacement henqueue retains_members.audit fun s _ _ _ =>
      retains_of (respects_update keepsAlerts_labPlacements _ _ _) s
  · exact respects_forceDeletePlacement henqueue retains_members.audit retains_deletePlacements

theorem retains_updatePlacement (placementId : Nat) (f : PlacementRow → PlacementRow) (h) :
    Respects Retains (updatePlacement placementId f h) :=
  retains_of (respects_update keepsAlerts_labPlacements _ _ _)

/-- **Every act but a heartbeat retains the alerts.** -/
theorem retains_act {a : Act} (ha : ∀ node payload, a ≠ .frame node (.telemetry payload)) :
    Respects Retains a.run := by
  have hcompletion : ∀ lab node, Respects Retains (startCompletionMail lab node) :=
    retains_members.startCompletionMail fun _ _ => retains_updatePlacement _ _ _
  by_cases hreg : a.Registry
  · exact walk_registryAct retains_enrols.toWalk (fun _ _ => .frame le_rfl rfl rfl ⟨rfl, rfl⟩)
      retains_deletePlacements (fun _ _ _ _ _ => .frame le_rfl rfl rfl ⟨rfl, rfl⟩) hreg
  have upkeep : a.Upkeep → Respects Retains a.run :=
    walk_upkeep retains_enrols.toWalk (fun _ _ _ => trivial) (fun _ => hcompletion)
      (fun _ _ _ _ _ => retains_updatePlacement _ _ _)
      fun node payload h => absurd h (ha node payload)
  cases a with
  | frame node received =>
      cases received with
      | result frame =>
          exact walk_handleResult retains_enrols.toWalk (fun _ _ _ => trivial)
            retains_members.updateTasks retains_deletePlacements
            (fun _ _ _ => retains_members.emit _)
            (fun _ _ _ _ _ => retains_updatePlacement _ _ _)
            (fun _ _ _ _ => respects_update retains_members.placementMembers _ _ _)
            hcompletion node frame
      | _ => exact upkeep trivial
  | removeStudentFromLab labId studentId deleteData actor =>
      exact walk_removeStudentFromLab retains_enrols.toWalk (fun _ _ _ => trivial)
        (respects_delete retains_members.placementMembers) (respects_delete retains_labMembers)
        _ _ _ _
  | consumePlacementCredential placementId studentId actor =>
      exact respects_discard (retains_members.consumePlacementCredential _ _ _)
  | resume i answer =>
      exact walk_anyResume retains_enrols (fun _ _ _ => trivial) retains_members.spawn
        (fun _ _ => retains_members.emit _) retains_members.clearCredential
        (fun _ _ => retains_updatePlacement _ _ _) i answer
  | provisionNode | rotateNodeToken | revokeNode | deleteNode | setNodeColdStorage
  | registerNode | deregisterNode => exact absurd trivial hreg
  | createPlacement | recreatePlacement | addStudentToLab | copyMembers =>
      exact walk_enrolls retains_enrols (fun _ _ _ => trivial)
        (fun _ _ _ _ _ => retains_updatePlacement _ _ _) trivial
  | ensurePiAccess | applyRosterImport =>
      exact walk_designates retains_enrols (fun _ _ _ => trivial)
        (fun _ _ _ => respects_update retains_labs _ _ _) trivial
  | _ => exact upkeep trivial

/-! ## Heartbeats -/

def QuotaAlertRow.key (r : QuotaAlertRow) : Nat × String := (r.placementId, r.pool)

def StudentQuotaAlertRow.key (r : StudentQuotaAlertRow) : Nat × Nat × String :=
  (r.placementId, r.studentId, r.pool)

/-- The node has the placement of the lab. -/
def Hosts (s : Controller) (node : String) (placementId labId : Nat) : Prop :=
  ∃ labName, (placementId, labId, labName, node) ∈ s.db.placementKeys

/-- The student is on a roster. -/
def Enrolled (s : Controller) (studentId : Nat) : Prop :=
  ∃ labId, ∃ st ∈ s.db.roster labId, st.id = studentId

/-- What may be recorded about a lab's own quota. -/
structure LabWarnings (s : Controller) (node : String) (added : List QuotaAlertRow) : Prop where
  adds : Dedup.Adds QuotaAlertRow.key QuotaAlertRow.ts quotaAlertDedupMs s.now
    s.db.quotaAlerts added
  about : ∀ r ∈ added, r.pool ≠ "rootfs" ∧ Hosts s node r.placementId r.labId

/-- What may be recorded about the quotas of students. -/
structure StudentWarnings (s : Controller) (node : String) (added : List StudentQuotaAlertRow) :
    Prop where
  adds : Dedup.Adds StudentQuotaAlertRow.key StudentQuotaAlertRow.ts studentQuotaAlertDedupMs s.now
    s.db.studentQuotaAlerts added
  about : ∀ r ∈ added, r.pool ≠ "rootfs" ∧ (∃ labId, Hosts s node r.placementId labId) ∧
    Enrolled s r.studentId

/-- Alerts are recorded that may be. -/
structure Warns (node : String) (s s' : Controller) : Prop where
  names : SameNames s s'
  quota : ∃ added, s'.db.quotaAlerts = s.db.quotaAlerts ++ added ∧ LabWarnings s node added
  student : ∃ added, s'.db.studentQuotaAlerts = s.db.studentQuotaAlerts ++ added ∧
    StudentWarnings s node added

section

variable {s s' : Controller} {node : String}

theorem SameNames.hosts (h : SameNames s s') {placementId labId : Nat} :
    Hosts s' node placementId labId ↔ Hosts s node placementId labId := by
  unfold Hosts
  rw [h.placements]

theorem SameNames.enrolled (h : SameNames s s') {studentId : Nat} :
    Enrolled s' studentId ↔ Enrolled s studentId := by
  unfold Enrolled
  simp only [h.roster]

theorem Warns.none (h : SameNames s s') (ha : s.db.SameAlerts s'.db) : Warns node s s' where
  names := h
  quota := ⟨[], by rw [ha.1, List.append_nil], .nil, nofun⟩
  student := ⟨[], by rw [ha.2, List.append_nil], .nil, nofun⟩

instance : IsPreorder Controller (Warns node) where
  refl s := .none (refl_of SameNames s) ⟨rfl, rfl⟩
  trans s s' s'' h h' := by
    obtain ⟨hnames, ⟨added, hq, hadds⟩, ⟨addedS, hs, haddsS⟩⟩ := h
    obtain ⟨hnames', ⟨added', hq', hadds'⟩, ⟨addedS', hs', haddsS'⟩⟩ := h'
    refine ⟨trans_of SameNames hnames hnames', ⟨added ++ added', ?_, ?_, ?_⟩,
      ⟨addedS ++ addedS', ?_, ?_, ?_⟩⟩
    · rw [hq', hq, List.append_assoc]
    · have hlater := hadds'.adds
      rw [hnames.now, hq] at hlater
      exact hadds.adds.append (by decide) hlater
    · intro r hr
      rcases List.mem_append.mp hr with hr | hr
      · exact hadds.about r hr
      · exact (hadds'.about r hr).imp_right hnames.hosts.mp
    · rw [hs', hs, List.append_assoc]
    · have hlater := haddsS'.adds
      rw [hnames.now, hs] at hlater
      exact haddsS.adds.append (by decide) hlater
    · intro r hr
      rcases List.mem_append.mp hr with hr | hr
      · exact haddsS.about r hr
      · obtain ⟨hpool, ⟨labId, hhosts⟩, henrolled⟩ := haddsS'.about r hr
        exact ⟨hpool, ⟨labId, hnames.hosts.mp hhosts⟩, hnames.enrolled.mp henrolled⟩

/-- The other writes of a heartbeat. -/
theorem warns_report : ReportWalk (Warns node) where
  lists f h _ ha s := .none (sameNames_lists f h s) (ha s.db)
  emit e he s := .none (sameNames_ingest.emit e he s) ⟨rfl, rfl⟩
  alertState key st s := .none (sameNames_ingest.alertState key st s) ⟨rfl, rfl⟩
  updateNode name f h _ _ _ s := .none (sameNames_updateNode name f h s) ⟨rfl, rfl⟩
  updatePlacements p f h hf hq hc s :=
    .none (sameNames_ingest.updatePlacements p f h hf hq hc s) ⟨rfl, rfl⟩

/-- No alert under a key is within the window. -/
theorem due_of_alertedWithin {ω κ : Type} {key : ω → κ} {time : ω → Nat} {rows : List ω}
    {p : ω → Bool} {k : κ} {now window : Nat} (hwindow : 0 < window)
    (hp : ∀ a, key a = k → p a = true)
    (h : alertedWithin ((rows.filter p).map time) now window = false) :
    ∀ a ∈ rows, key a = k → time a + window ≤ now := by
  intro a ha hkey
  have hmem : time a ∈ (rows.filter p).map time :=
    List.mem_map_of_mem (List.mem_filter.mpr ⟨ha, hp a hkey⟩)
  unfold alertedWithin newest at h
  cases hmax : ((rows.filter p).map time).max? with
  | none =>
      rw [List.max?_eq_none_iff.mp hmax] at hmem
      cases hmem
  | some t =>
      rw [hmax] at h
      have hle := (List.max?_eq_some_iff.mp hmax).2 _ hmem
      have hlong : ¬ now - t < window := of_decide_eq_false h
      omega

theorem warns_maybeQuotaAlert {placementId labId : Nat} {pool : String} (used : Number)
    (quota : Value) (hosts : Hosts s node placementId labId) (hpool : pool ≠ "rootfs") :
    Warns node s ((maybeQuotaAlert placementId labId pool used quota s.now).after s) := by
  unfold maybeQuotaAlert Prog.after
  rw [run_read_bind, id_eq]
  refine Respects.ite_at (fun _ => refl_of (Warns node) s) fun _ =>
    Respects.ite_at (fun _ => refl_of (Warns node) s) fun hdue => ?_
  split
  · exact refl_of (Warns node) s
  · refine Respects.ite_at (fun _ => refl_of (Warns node) s) fun _ => ?_
    refine Respects.bind_at ?_ fun _ => ?_
    · refine ⟨sameNames_lists _ _ s, ⟨[_], rfl, .singleton rfl ?_, ?_⟩, [], ?_, .nil, nofun⟩
      · refine due_of_alertedWithin (by decide) (fun a ha => ?_) ((Bool.not_eq_true _).mp hdue)
        cases ha
        simp
      · intro r hr
        rw [List.mem_singleton.mp hr]
        exact ⟨hpool, hosts⟩
      · exact (List.append_nil _).symm
    · split
      · refine .ite (fun _ => ?_) fun _ => .pure _
        exact .bind (respects_lift _) fun _ => warns_report.emit _ trivial
      · exact .pure _

theorem warns_maybeStudentQuotaAlert {placementId labId studentId : Nat} {pool : String}
    (used : Number) (quota : Value) (hosts : Hosts s node placementId labId)
    (hpool : pool ≠ "rootfs") (enrolled : Enrolled s studentId) :
    Warns node s ((maybeStudentQuotaAlert placementId labId studentId node pool used quota
      s.now).after s) := by
  unfold maybeStudentQuotaAlert Prog.after
  rw [run_read_bind, id_eq]
  refine Respects.ite_at (fun _ => refl_of (Warns node) s) fun _ =>
    Respects.ite_at (fun _ => refl_of (Warns node) s) fun _ =>
    Respects.ite_at (fun _ => refl_of (Warns node) s) fun hdue => ?_
  split
  · split
    · exact refl_of (Warns node) s
    · refine Respects.ite_at (fun _ => refl_of (Warns node) s) fun _ =>
        Respects.ite_at (fun _ => refl_of (Warns node) s) fun _ => ?_
      refine Respects.bind_at ?_ fun _ => ?_
      · refine ⟨sameNames_lists _ _ s, ⟨[], (List.append_nil _).symm, .nil, nofun⟩,
          [_], rfl, .singleton rfl ?_, ?_⟩
        · refine due_of_alertedWithin (by decide) (fun a ha => ?_) ((Bool.not_eq_true _).mp hdue)
          cases ha
          simp
        · intro r hr
          rw [List.mem_singleton.mp hr]
          exact ⟨hpool, ⟨labId, hosts⟩, enrolled⟩
      · refine .bind (respects_lift _) fun _ => .bind (warns_report.emit _ trivial) fun _ => ?_
        exact .ite (fun _ => .forM _ fun _ _ => warns_report.emit _ trivial) fun _ => .pure _
  · exact refl_of (Warns node) s

/-- A row of a heartbeat is about a placement of the node and about somebody on its roster. -/
def Concerns (node : String) (now placementId labId : Nat) (studentId : Option Nat)
    (s : Controller) : Prop :=
  s.now = now ∧ Hosts s node placementId labId ∧ ∀ i, studentId = some i → Enrolled s i

/-- Alerts are recorded that may be, from such a state on. -/
def WarnsAbout (node : String) (now placementId labId : Nat) (studentId : Option Nat)
    (s s' : Controller) : Prop :=
  Concerns node now placementId labId studentId s → Warns node s s'

section

variable {now placementId labId : Nat} {studentId : Option Nat}

theorem Warns.concerns (h : Warns node s s')
    (hs : Concerns node now placementId labId studentId s) :
    Concerns node now placementId labId studentId s' :=
  ⟨h.names.now.trans hs.1, h.names.hosts.mpr hs.2.1, fun i hi => h.names.enrolled.mpr (hs.2.2 i hi)⟩

instance : IsPreorder Controller (WarnsAbout node now placementId labId studentId) where
  refl s _ := refl_of (Warns node) s
  trans _ _ _ h h' hs := trans_of (Warns node) (h hs) (h' ((h hs).concerns hs))

theorem warnsAbout_of {α : Type} {x : Op α} (h : Respects (Warns node) x) :
    Respects (WarnsAbout node now placementId labId studentId) x := h.mono fun _ _ h _ => h

end

/-- The root file system has no quota. -/
theorem assignedUserQuota_rootfs (ref : Placement) (quota : Value) :
    (assignedUserQuota ref "rootfs" quota).truthy = false := rfl

theorem warns_recordSample (now : Nat) (ref : Placement) (studentId : Option Nat) (tier : String)
    (used : Number) (user quota : Value) :
    Respects (WarnsAbout node now ref.id ref.labId studentId)
      (recordSample node now ref studentId tier used user quota) := by
  refine .bind (respects_lift _) fun bound => .bind (warnsAbout_of ?_) fun _ => ?_
  · exact fun s => .none (sameNames_lists _ _ s) ⟨rfl, rfl⟩
  · refine .bind (.optionForM _ fun i hi => .ite (fun htruthy s hs => ?_) fun _ => .pure _) fun _ =>
      .ite (fun hquota s hs => ?_) fun _ => .pure _
    · have hpool : tier ≠ "rootfs" := by
        rintro rfl
        rw [assignedUserQuota_rootfs] at htruthy
        cases htruthy
      obtain ⟨rfl, hosts, henrolled⟩ := hs
      exact warns_maybeStudentQuotaAlert used _ hosts hpool (henrolled i hi)
    · have hpool : tier ≠ "rootfs" := by
        simp only [Bool.and_eq_true, bne_iff_ne] at hquota
        exact hquota.2
      obtain ⟨rfl, hosts, -⟩ := hs
      exact warns_maybeQuotaAlert used _ hosts hpool

theorem warns_ingestSample (ds : Json) :
    Warns node s ((ingestSample node s.now ds).after s) := by
  refine wp_after.mp ?_
  have idle : Warns node s s := refl_of (Warns node) s
  unfold ingestSample
  dsimp only
  cases Value.asString (Value.field "lab" ds) with
  | none => exact idle
  | some labName =>
  cases Value.asNumber (Value.field "used_bytes" ds) with
  | none => exact idle
  | some used =>
  dsimp only
  split
  · exact idle
  · rw [wp_bind]
    obtain ⟨found, hfound⟩ := lookupPlacement_string s.db s.host.conversions labName node
    refine (wp_of_ok ((getPlacementByLabNode_run _ _ s).trans (by rw [hfound]))).mpr ?_
    cases found with
    | none => exact idle
    | some ref =>
      have hosts : Hosts s node ref.id ref.labId := by
        obtain ⟨named, hnamed, hmem, hyes⟩ := Db.lookupPlacement_eq_some hfound
        cases hnamed
        rw [Bool.and_eq_true] at hyes
        have hnode : node = ref.nodeName := by simpa [SqlValue.isText] using hyes.2
        exact ⟨ref.labName, List.mem_map.mpr ⟨ref, hmem, by rw [hnode]⟩⟩
      dsimp only
      rw [wp_bind]
      cases hstudent : s.sampleStudentId ref.labId (Value.field "user" ds) with
      | error e => exact (wp_of_error ((sampleStudent_run _ _ s).trans (by rw [hstudent]))).mpr idle
      | ok studentId =>
        refine (wp_of_ok ((sampleStudent_run _ _ s).trans (by rw [hstudent]))).mpr ?_
        have henrolled : ∀ i, studentId = some i → Enrolled s i := by
          rintro i rfl
          unfold Controller.sampleStudentId at hstudent
          split at hstudent
          · cases hbound : bindAll 1 [Value.field "user" ds] with
            | error e =>
              rw [hbound] at hstudent
              cases hstudent
            | ok values =>
              rw [hbound] at hstudent
              replace hstudent := Except.ok.inj hstudent
              rcases values with _ | ⟨x, _ | ⟨y, rest⟩⟩
              · cases hstudent
              · obtain ⟨st, hst, hid⟩ := Option.map_eq_some_iff.mp hstudent
                exact ⟨ref.labId, st, List.mem_of_find?_eq_some hst, hid⟩
              · cases hstudent
          · cases hstudent
        rw [wp_bind, Op.query, wp_read]
        dsimp only [id]
        refine wp_after.mpr ?_
        refine Respects.ite_at (fun _ => idle) fun _ => Respects.ite_at (fun _ => idle) fun _ => ?_
        exact warns_recordSample s.now ref studentId _ used _ _ s ⟨rfl, hosts, henrolled⟩

/-- Alerts are recorded that may be, at the time. -/
def WarnsAt (node : String) (now : Nat) (s s' : Controller) : Prop := s.now = now → Warns node s s'

instance {now : Nat} : IsPreorder Controller (WarnsAt node now) where
  refl s _ := refl_of (Warns node) s
  trans _ _ _ h h' hs := trans_of (Warns node) (h hs) (h' ((h hs).names.now.trans hs))

/-- **A heartbeat records alerts that may be recorded**, and leaves those there are. -/
theorem warns_ingestTelemetry (payload : Json) :
    Warns node s ((ingestTelemetry node payload).after s) := by
  have hreport : ∀ {α : Type} {x : Op α}, Respects (Warns node) x →
      Respects (WarnsAt node s.now) x := fun h => h.mono fun _ _ h _ => h
  unfold ingestTelemetry Prog.after
  rw [Op.now, run_read_bind]
  refine Respects.bind (Q := WarnsAt node s.now) (hreport ?_) (fun _ => .bind (hreport ?_) fun _ =>
    .bind (hreport ?_) fun _ => .bind (respects_lift _) fun _ =>
    .bind (.forM _ fun ds _ => ?_) fun _ => .bind (respects_lift _) fun _ =>
    .bind (.forM _ fun u _ => hreport ?_) fun _ => hreport ?_) s rfl
  · exact fun s' => .none (sameNames_updateNode _ _ _ s') ⟨rfl, rfl⟩
  · exact walk_ingestColdStorage warns_report _ _
  · exact walk_ingestScrub warns_report _ _ _ fun _ _ _ s' =>
      .none (sameNames_updateNode _ _ _ s') ⟨rfl, rfl⟩
  · intro s' hs'
    rw [← hs']
    exact warns_ingestSample ds
  · exact walk_ingestUsageScan warns_report _ _
  · refine .atomically (.bind (fun s' => ?_) fun _ => .bind (respects_lift _) fun _ =>
      .forM _ fun p _ => walk_ingestGpuProcess warns_report _ _ p)
    exact .none (sameNames_lists _ _ s') ⟨rfl, rfl⟩

end

/-! ## Runs -/

/-- Something happens to the controller, or maintenance prunes. -/
inductive QuotaEvent where
  | act (a : Act)
  | prune (caps : LogCaps)

def QuotaEvent.run : QuotaEvent → Op Unit
  | .act a => a.run
  | .prune caps => discard (pruneOldData caps)

def quotaStep (s : Controller) (e : QuotaEvent) : Controller := e.run.after s

/-- Logs are kept for ever, or for a day at least. -/
def QuotaEvent.KeepsDays : QuotaEvent → Prop
  | .act _ => True
  | .prune caps => caps.retentionDays = 0 ∨ 1 ≤ caps.retentionDays

/-- The rows an event adds to a table of alerts. -/
def newRows {ρ : Type} (rows : Db → List ρ) (s : Controller) (e : QuotaEvent) : List ρ :=
  (rows (quotaStep s e).db).drop (rows s.db).length

/-- What an event does to a table of alerts: it adds rows that may be added and will be held, under
keys of which everything held is in the table, or it adds none. -/
structure AlertStep {ρ κ : Type} (rows : Db → List ρ) (key : ρ → κ) (ts : ρ → Nat) (window : Nat)
    (Held : ρ → Db → Prop) (s s' : Controller) : Prop where
  now : s.now ≤ s'.now
  held : ∀ r, Held r s.db → Held r s'.db ∨ ts r + window ≤ s'.now
  rows : (rows s'.db).Sublist (rows s.db) ∨ ∃ added, rows s'.db = rows s.db ++ added ∧
    Dedup.Adds key ts window s.now (rows s.db) added ∧
    ∀ r ∈ added, Held r s'.db ∧ ∀ a, Held a s.db → key a = key r → a ∈ rows s.db

section

variable {ρ κ : Type} {rows : Db → List ρ} {key : ρ → κ} {ts : ρ → Nat} {window : Nat}
  {Held : ρ → Db → Prop} {s : Controller} {e : QuotaEvent}

theorem newRows_of_sublist (h : (rows (quotaStep s e).db).Sublist (rows s.db)) :
    newRows rows s e = [] := List.drop_eq_nil_of_le h.length_le

theorem newRows_of_append {added : List ρ} (h : rows (quotaStep s e).db = rows s.db ++ added) :
    newRows rows s e = added := by
  rw [newRows, h, List.drop_left]

theorem along_keepsDays {es : List QuotaEvent} (hes : ∀ e ∈ es, e.KeepsDays) :
    Run.Along quotaStep (fun _ e => e.KeepsDays) s es :=
  ((Run.along_of_forall (C := fun _ _ => True) (fun _ _ => trivial) s es).and hes).imp
    fun _ _ h => h.2

/-- **Alerts are a window apart** where every event is such a step. -/
theorem spaced_alerts {es : List QuotaEvent} (hes : ∀ e ∈ es, e.KeepsDays)
    (hstep : ∀ s e, e.KeepsDays → AlertStep rows key ts window Held s (quotaStep s e)) :
    Dedup.Spaced key ts window (Dedup.history quotaStep (newRows rows) s es) := by
  refine Dedup.spaced_history (fun s r => Held r s.db ∨ ts r + window ≤ s.now)
    (fun s e he r hr => ?_) (fun s e he => ?_) (along_keepsDays hes)
  · rcases hr with hr | hold
    · exact (hstep s e he).held r hr
    · exact .inr (hold.trans (hstep s e he).now)
  · rcases (hstep s e he).rows with hsub | ⟨added, hrows, hadds, hheld⟩
    · have hnone : newRows rows s e = [] := newRows_of_sublist hsub
      constructor <;> rw [hnone]
      · exact nofun
      · exact nofun
      · exact .nil
    · have hnew : newRows rows s e = added := newRows_of_append hrows
      constructor <;> rw [hnew]
      · exact fun r hr => .inl (hheld r hr).1
      · intro r hr a ha hkey
        rw [hadds.stamped r hr]
        rcases ha with ha | hold
        · exact hadds.due r hr a ((hheld r hr).2 a ha hkey) hkey
        · exact hold
      · exact hadds.distinct

/-- **The table has no others.** -/
theorem alerts_subset {es : List QuotaEvent} (hes : ∀ e ∈ es, e.KeepsDays) (hs : rows s.db = [])
    (hstep : ∀ s e, e.KeepsDays → AlertStep rows key ts window Held s (quotaStep s e)) :
    rows (Run.run quotaStep s es).db ⊆ Dedup.history quotaStep (newRows rows) s es := by
  intro r hr
  have hmem : r ∈ rows s.db ∨ r ∈ Dedup.history quotaStep (newRows rows) s es := by
    refine Dedup.mem_history (fun s => rows s.db) (fun s e he r hr => ?_) (along_keepsDays hes) hr
    rcases (hstep s e he).rows with hsub | ⟨added, hrows, -⟩
    · exact .inl (hsub.subset hr)
    · rw [newRows_of_append hrows]
      rw [hrows] at hr
      exact List.mem_append.mp hr
  rcases hmem with hmem | hmem
  · rw [hs] at hmem
    cases hmem
  · exact hmem

end

section

variable {s s' : Controller} {node : String}

theorem Hosts.row {placementId labId : Nat} (h : Hosts s node placementId labId) :
    ∃ p ∈ s.db.labPlacements.rows, p.id = placementId ∧ p.labId = labId := by
  obtain ⟨labName, hkey⟩ := h
  obtain ⟨q, hq, heq⟩ := List.mem_map.mp hkey
  cases heq
  exact ⟨q.toPlacementRow, (Db.mem_placements.mp hq).1, rfl, rfl⟩

theorem Enrolled.row {studentId : Nat} (h : Enrolled s studentId) :
    ∃ st ∈ s.db.students.rows, st.id = studentId := by
  obtain ⟨labId, st, hst, hid⟩ := h
  obtain ⟨m, -, hm⟩ := List.mem_filterMap.mp hst
  exact ⟨st, (Table.get_eq_some.mp hm).1, hid⟩

abbrev QuotaStep (s s' : Controller) : Prop :=
  AlertStep Db.quotaAlerts QuotaAlertRow.key QuotaAlertRow.ts quotaAlertDedupMs QuotaHeld s s'

abbrev StudentStep (s s' : Controller) : Prop :=
  AlertStep Db.studentQuotaAlerts StudentQuotaAlertRow.key StudentQuotaAlertRow.ts
    studentQuotaAlertDedupMs StudentHeld s s'

theorem Retains.quotaStep (h : Retains s s') : QuotaStep s s' :=
  ⟨h.now, fun r hr => .inl (h.quotaHeld r hr), .inl h.quota⟩

theorem Retains.studentStep (h : Retains s s') : StudentStep s s' :=
  ⟨h.now, fun r hr => .inl (h.studentHeld r hr), .inl h.student⟩

theorem Warns.quotaStep (h : Warns node s s') (he : s.Evolves s') : QuotaStep s s' := by
  obtain ⟨added, hrows, hadds⟩ := h.quota
  refine ⟨h.names.now.ge, fun r hr => .inl ?_, .inr ⟨added, hrows, hadds.adds, fun r hr => ?_⟩⟩
  · exact hr.evolves he fun hmem _ => hrows ▸ List.mem_append_left _ hmem
  · obtain ⟨-, hosts⟩ := hadds.about r hr
    obtain ⟨p, hp, hid, hlab⟩ := (h.names.hosts.mpr hosts).row
    refine ⟨⟨?_, fun q hq hqid => ?_, fun _ => ?_⟩, fun a ha hkey => ha.held ?_⟩
    · rw [← hid]
      exact s'.db.labPlacements.bounded p hp
    · obtain rfl := s'.db.labPlacements.eq_of_id hq hp (hqid.trans hid.symm)
      exact hlab
    · rw [hrows]
      exact List.mem_append_right _ hr
    · obtain ⟨p, hp, hid, -⟩ := hosts.row
      exact ⟨p, hp, hid.trans (congrArg Prod.fst hkey).symm⟩

theorem Warns.studentStep (h : Warns node s s') (he : s.Evolves s') : StudentStep s s' := by
  obtain ⟨added, hrows, hadds⟩ := h.student
  refine ⟨h.names.now.ge, fun r hr => .inl ?_, .inr ⟨added, hrows, hadds.adds, fun r hr => ?_⟩⟩
  · exact hr.evolves he fun hmem _ _ => hrows ▸ List.mem_append_left _ hmem
  · obtain ⟨-, ⟨labId, hosts⟩, henrolled⟩ := hadds.about r hr
    obtain ⟨p, hp, hid, -⟩ := (h.names.hosts.mpr hosts).row
    obtain ⟨st, hst, hsid⟩ := (h.names.enrolled.mpr henrolled).row
    refine ⟨⟨?_, ?_, fun _ _ => ?_⟩, fun a ha hkey => ha.held ?_ ?_⟩
    · rw [← hid]
      exact s'.db.labPlacements.bounded p hp
    · rw [← hsid]
      exact s'.db.students.bounded st hst
    · rw [hrows]
      exact List.mem_append_right _ hr
    · obtain ⟨p, hp, hid, -⟩ := hosts.row
      exact ⟨p, hp, hid.trans (congrArg Prod.fst hkey).symm⟩
    · obtain ⟨st, hst, hsid⟩ := henrolled.row
      exact ⟨st, hst, hsid.trans (congrArg (fun k => k.2.1) hkey).symm⟩

/-- A day is longer than the window. -/
theorem prune_quotaStep (caps : LogCaps) (h : QuotaEvent.KeepsDays (.prune caps)) :
    QuotaStep s (quotaStep s (.prune caps)) := by
  have he : s.Evolves (MassDeployment.quotaStep s (.prune caps)) :=
    (QuotaEvent.prune caps).run.keeps s
  refine ⟨le_rfl, fun r hr => ?_, .inl List.filter_sublist⟩
  by_cases hold : r.ts + quotaAlertDedupMs ≤ s.now
  · exact .inr hold
  · refine .inl (hr.evolves he fun hmem _ => List.mem_filter.mpr ⟨hmem, ?_⟩)
    refine (Bool.not_eq_true' _).mpr (Bool.eq_false_iff.mpr fun hpruned => hold ?_)
    obtain ⟨hdays, hcutoff⟩ := (Bool.and_eq_true _ _).mp hpruned
    have hpos : 0 < caps.retentionDays := of_decide_eq_true hdays
    have hday : 1 ≤ caps.retentionDays := h.resolve_left hpos.ne'
    have hlt : (r.ts : ℚ) < s.now - caps.retentionDays * 86400 * 1000 := of_decide_eq_true hcutoff
    have hage : (r.ts : ℚ) + (quotaAlertDedupMs : ℕ) ≤ s.now := by
      have hwindow : ((quotaAlertDedupMs : ℕ) : ℚ) = 21600000 := by norm_num [quotaAlertDedupMs]
      rw [hwindow]
      linarith
    exact_mod_cast hage

theorem prune_studentStep (caps : LogCaps) : StudentStep s (quotaStep s (.prune caps)) := by
  have he : s.Evolves (MassDeployment.quotaStep s (.prune caps)) :=
    (QuotaEvent.prune caps).run.keeps s
  exact ⟨le_rfl, fun r hr => .inl (hr.evolves he fun hmem _ _ => hmem), .inl (.refl _)⟩

end

/-- **What an event can do**: add alerts of a heartbeat, retain the alerts there are, or prune. -/
theorem quotaStep_cases (s : Controller) (e : QuotaEvent) :
    (∃ node payload, e = .act (.frame node (.telemetry payload)) ∧ Warns node s (quotaStep s e)) ∨
      Retains s (quotaStep s e) ∨ ∃ caps, e = .prune caps := by
  cases e with
  | prune caps => exact .inr (.inr ⟨caps, rfl⟩)
  | act a =>
    by_cases ha : ∃ node payload, a = .frame node (.telemetry payload)
    · obtain ⟨node, payload, rfl⟩ := ha
      exact .inl ⟨node, payload, rfl, warns_ingestTelemetry _⟩
    · exact .inr (.inl (retains_act (fun node payload h => ha ⟨node, payload, h⟩) s))

theorem quotaStep_step (s : Controller) (e : QuotaEvent) (he : e.KeepsDays) :
    QuotaStep s (quotaStep s e) := by
  rcases quotaStep_cases s e with ⟨node, payload, -, h⟩ | h | ⟨caps, rfl⟩
  · exact h.quotaStep (e.run.keeps s)
  · exact h.quotaStep
  · exact prune_quotaStep caps he

theorem studentStep_step (s : Controller) (e : QuotaEvent) : StudentStep s (quotaStep s e) := by
  rcases quotaStep_cases s e with ⟨node, payload, -, h⟩ | h | ⟨caps, rfl⟩
  · exact h.studentStep (e.run.keeps s)
  · exact h.studentStep
  · exact prune_studentStep caps

/-- An alert comes from a heartbeat of the node that has the placement, and is about a quota. -/
structure Heard (s : Controller) (e : QuotaEvent) (placementId : Nat) (pool : String) : Prop where
  quota : pool ≠ "rootfs"
  node : ∃ node payload labId, e = .act (.frame node (.telemetry payload)) ∧
    Hosts s node placementId labId

theorem heard_step (s : Controller) (e : QuotaEvent) :
    (∀ r ∈ newRows Db.quotaAlerts s e, Heard s e r.placementId r.pool) ∧
      ∀ r ∈ newRows Db.studentQuotaAlerts s e, Heard s e r.placementId r.pool := by
  rcases quotaStep_cases s e with ⟨node, payload, heq, h⟩ | h | ⟨caps, rfl⟩
  · obtain ⟨added, hrows, hadds⟩ := h.quota
    obtain ⟨addedS, hrowsS, haddsS⟩ := h.student
    rw [newRows_of_append hrows, newRows_of_append hrowsS]
    refine ⟨fun r hr => ?_, fun r hr => ?_⟩
    · obtain ⟨hpool, hosts⟩ := hadds.about r hr
      exact ⟨hpool, node, payload, r.labId, heq, hosts⟩
    · obtain ⟨hpool, ⟨labId, hosts⟩, -⟩ := haddsS.about r hr
      exact ⟨hpool, node, payload, labId, heq, hosts⟩
  · rw [newRows_of_sublist h.quota, newRows_of_sublist h.student]
    exact ⟨nofun, nofun⟩
  · rw [newRows_of_sublist List.filter_sublist, newRows_of_sublist (.refl _)]
    exact ⟨nofun, nofun⟩

/-- **Quota alerts are never repeated too soon.** In a run of everything that can happen to the
controller, with pruning by a retention of no days or a day at least: what is in the tables of
alerts at the end was recorded in the run; alerts about a pool of a placement are six hours apart,
alerts about a student's pool of a placement a day; and every alert was recorded by a heartbeat of
the node that has the placement, about a pool with a quota. -/
theorem quota_alerts_spaced (host : Host) (es : List QuotaEvent) (hes : ∀ e ∈ es, e.KeepsDays) :
    let quotaAlerts := Dedup.history quotaStep (newRows Db.quotaAlerts) (.init host) es
    let studentAlerts := Dedup.history quotaStep (newRows Db.studentQuotaAlerts) (.init host) es
    let s := Run.run quotaStep (.init host) es
    (s.db.quotaAlerts ⊆ quotaAlerts ∧ s.db.studentQuotaAlerts ⊆ studentAlerts) ∧
    quotaAlerts.Pairwise (fun a b => a.placementId = b.placementId → a.pool = b.pool →
      a.ts + quotaAlertDedupMs ≤ b.ts) ∧
    studentAlerts.Pairwise (fun a b => a.placementId = b.placementId → a.studentId = b.studentId →
      a.pool = b.pool → a.ts + studentQuotaAlertDedupMs ≤ b.ts) ∧
    Run.Along quotaStep (fun s e =>
      (∀ r ∈ newRows Db.quotaAlerts s e, Heard s e r.placementId r.pool) ∧
        ∀ r ∈ newRows Db.studentQuotaAlerts s e, Heard s e r.placementId r.pool)
      (.init host) es := by
  refine ⟨⟨?_, ?_⟩, ?_, ?_, Run.along_of_forall heard_step _ _⟩
  · exact alerts_subset hes rfl quotaStep_step
  · exact alerts_subset hes rfl fun s e _ => studentStep_step s e
  · refine (spaced_alerts hes quotaStep_step).imp fun h hplacement hpool => h ?_
    exact Prod.ext hplacement hpool
  · refine (spaced_alerts hes fun s e _ => studentStep_step s e).imp
      fun h hplacement hstudent hpool => h ?_
    exact Prod.ext hplacement (Prod.ext hstudent hpool)

/-- A heartbeat of the first node, by which the fast pool of a lab is full. -/
def fullFrame : QuotaEvent :=
  .act (.frame "n" (.telemetry (some (.obj [("storage", .arr [.obj [("lab", .str "lab"),
    ("user", .null), ("tier", .str "fast"), ("used_bytes", .num 10),
    ("quota_bytes", .num 10)]])]))))

/-- Three heartbeats within six hours, the logs being kept for a day. -/
def fullRun : List QuotaEvent :=
  placedLab.map .act ++ [fullFrame, .act (.tick 3600000), fullFrame, .prune ⟨1, 0, 0⟩,
    .act (.tick 18000000), fullFrame]

/-- The first and the last of them warn. -/
theorem quota_alerts_spaced_full :
    let quotaAlerts := Dedup.history quotaStep (newRows Db.quotaAlerts) (.init .plain) fullRun
    quotaAlerts.map QuotaAlertRow.ts = [0, 21600000] ∧
      quotaAlerts.Pairwise (fun a b => a.placementId = b.placementId → a.pool = b.pool →
        a.ts + quotaAlertDedupMs ≤ b.ts) := by
  have hes : ∀ e ∈ fullRun, e.KeepsDays := by
    intro e he
    rcases List.mem_append.mp he with he | he
    · obtain ⟨a, -, rfl⟩ := List.mem_map.mp he
      trivial
    · simp only [List.mem_cons, List.not_mem_nil, or_false] at he
      rcases he with rfl | rfl | rfl | rfl | rfl | rfl
      exacts [trivial, trivial, trivial, .inr le_rfl, trivial, trivial]
  exact ⟨by decide +kernel, (quota_alerts_spaced .plain fullRun hes).2.1⟩

end MassDeployment
