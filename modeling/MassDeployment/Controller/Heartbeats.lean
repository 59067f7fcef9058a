import MassDeployment.Controller.Throws
import MassDeployment.Controller.Acts

set_option autoImplicit false

/-! # Heartbeats the hub does not survive

The conditions of `Throws` for a telemetry frame, list by list, and with them the answer for
every frame: `ingestFrame` returns exactly where the frame fits the state.
-/

namespace MassDeployment

open Js Prog

/-! ## Scrubs -/

/-- An entry with errors can be written into a log row and a mail. -/
def ReportFits (c : Conversions) (p : Json) : Prop :=
  (∃ pool, Value.interpolate c (Value.field "pool" p) = .ok pool) ∧
    ∃ detail, scrubDetail c p = .ok detail ∧ Binds 1 [detail]

/-- The stored scrub status and the reported one can be compared, and what is new reported. -/
def ScrubFits (s : Controller) (node : String) (scrub : Value) : Prop :=
  ∀ entries, scrub = some (.arr entries) →
    ∃ prev, storedScrubs ((s.db.node node).bind fun n => n.scrubStatus.parse) = .ok prev ∧
      ∃ prevBad, badScrubs prev = .ok prevBad ∧
        ∀ p ∈ entries, ∃ bad, isBadScrub p = .ok bad ∧
          (bad = true →
            (prevBad.any fun q =>
              Value.sameValueZero (Value.field "pool" q) (Value.field "pool" p)) = false →
            ReportFits s.host.conversions p)

theorem finishes_reportScrub (node : String) (now : Nat) (p : Json) (s : Controller) :
    Finishes (reportScrub node now p) s ↔ ReportFits s.host.conversions p := by
  unfold reportScrub ReportFits Binds
  rw [finishes_read_bind, finishes_lift_bind]
  have write : ∀ (row : LogRow) (key subject body : String),
      Total (insertLog row >>= fun _ => alertAdmins key subject body) := fun row key subject body =>
    .bind (total_insertLog _) fun _ => total_alertAdmins _ _ _
  constructor
  · rintro ⟨pool, hpool, h⟩
    obtain ⟨detail, hdetail, h⟩ := (finishes_lift_bind _ _ _).mp h
    exact ⟨⟨pool, hpool⟩, detail, hdetail, (finishes_lift_last _ (fun _ => write _ _ _ _) s).mp h⟩
  · rintro ⟨⟨pool, hpool⟩, detail, hdetail, h⟩
    refine ⟨pool, hpool, (finishes_lift_bind _ _ _).mpr ⟨detail, hdetail, ?_⟩⟩
    exact (finishes_lift_last _ (fun _ => write _ _ _ _) s).mpr h

/-- A program keeps the conversions of the host. -/
theorem after_host {α : Type} (x : Op α) (s : Controller) : (x.after s).host = s.host :=
  (x.keeps s).host

/-- The turn of the loop over the reported entries. -/
def scrubTurn (node : String) (now : Nat) (prevBad : List Json) (p : Json) : Op Unit := do
  let bad ← Op.lift (isBadScrub p)
  let known := prevBad.any fun q =>
    Value.sameValueZero (Value.field "pool" q) (Value.field "pool" p)
  if bad && !known then reportScrub node now p

theorem finishes_scrubTurn (node : String) (now : Nat) (prevBad : List Json) (p : Json)
    (s : Controller) : Finishes (scrubTurn node now prevBad p) s ↔
      ∃ bad, isBadScrub p = .ok bad ∧
        (bad = true →
          (prevBad.any fun q =>
            Value.sameValueZero (Value.field "pool" q) (Value.field "pool" p)) = false →
          ReportFits s.host.conversions p) := by
  unfold scrubTurn
  rw [finishes_lift_bind]
  refine exists_congr fun bad => and_congr_right fun _ => ?_
  rw [finishes_ite, finishes_reportScrub]
  simp

/-- What a heartbeat writes about its node leaves the scrub status alone. -/
theorem scrubStatus_updateNode (node : String) (f : NodeRow → NodeRow) (h)
    (hf : ∀ n, (f n).scrubStatus = n.scrubStatus) (s : Controller) :
    ((((updateNode node f h).after s).db.node node).bind fun n => n.scrubStatus.parse) =
      (s.db.node node).bind fun n => n.scrubStatus.parse := by
  have hfind : ((updateNode node f h).after s).db.node node =
      (s.db.node node).map fun r => if r.name == node then f r else r :=
    Table.find_update (h := keeps_node _ f h) fun r _ => by rw [(h r).2]
  rw [hfind]
  cases s.db.node node with
  | none => rfl
  | some n =>
      show (if n.name == node then f n else n).scrubStatus.parse = n.scrubStatus.parse
      split
      · rw [hf]
      · rfl

theorem finishes_ingestScrub (node : String) (scrub : Value) (now : Nat) (s : Controller) :
    Finishes (ingestScrub node scrub now) s ↔ ScrubFits s node scrub := by
  unfold ingestScrub ScrubFits
  split
  · rename_i entries
    have hcond : ∀ C : List Json → Prop,
        (∀ es, (some (.arr entries) : Value) = some (.arr es) → C es) ↔ C entries := by
      intro C
      constructor
      · exact fun h => h entries rfl
      · rintro h _ ⟨⟩
        exact h
    rw [hcond, Op.query, finishes_read_bind, finishes_lift_bind]
    refine exists_congr fun prev => and_congr_right fun _ => ?_
    rw [finishes_lift_bind]
    refine exists_congr fun prevBad => and_congr_right fun _ => ?_
    rw [(total_updateNode _ _ _).finishes_seq]
    refine finishes_forM_of (I := fun s' => s'.host = s.host) (fun p s' hs' => ?_)
      (fun p s' hs' => ?_) entries (after_host _ s)
    · exact (after_host _ s').trans hs'
    · rw [← hs']
      exact finishes_scrubTurn node now prevBad p s'
  · rename_i hscrub
    refine iff_of_true (finishes_pure _ s) fun entries h => absurd h ?_
    exact hscrub entries

/-! ## Storage samples -/

/-- A student's quota warning, where one is due, has a percentage and a text. -/
def StudentAlertFits (s : Controller) (placementId labId studentId : Nat) (node pool : String)
    (used : Number) (quota : Value) (now : Nat) : Prop :=
  let pct := percentOf used (quota.toNumber s.host.conversions)
  s.settings.studentQuotaAlertsEnabled = true → pct.le s.settings.studentQuotaAlertPct = false →
    alertedWithin ((s.db.studentQuotaAlerts.filter fun a =>
      a.placementId == placementId && a.studentId == studentId && a.pool == pool).map
        StudentQuotaAlertRow.ts) now studentQuotaAlertDedupMs = false →
    ∀ student, s.db.students.get studentId = some student →
      (∃ lab, s.db.labs.get labId = some lab) → (∃ n, s.db.node node = some n) →
      ∀ email, student.email = some email → email ≠ "" →
        pct ≠ .nan ∧ ∃ text, fmtBytesOf s.host.conversions quota = .ok text

/-- A PI's quota warning, where one is due, has a percentage, and a text if it is mailed. -/
def QuotaAlertFits (s : Controller) (placementId labId : Nat) (pool : String) (used : Number)
    (quota : Value) (now : Nat) : Prop :=
  let pct := percentOf used (quota.toNumber s.host.conversions)
  pct.lt s.settings.quotaAlertPct = false →
    alertedWithin ((s.db.quotaAlerts.filter fun a =>
      a.placementId == placementId && a.pool == pool).map QuotaAlertRow.ts) now
        quotaAlertDedupMs = false →
    ∀ lab, s.db.labs.get labId = some lab → pct ≠ .nan ∧
      ∀ email, lab.piEmail = some email → email ≠ "" →
        ∃ text, fmtBytesOf s.host.conversions quota = .ok text

theorem finishes_maybeStudentQuotaAlert (placementId labId studentId : Nat) (node pool : String)
    (used : Number) (quota : Value) (now : Nat) (s : Controller) :
    Finishes (maybeStudentQuotaAlert placementId labId studentId node pool used quota now) s ↔
      StudentAlertFits s placementId labId studentId node pool used quota now := by
  unfold maybeStudentQuotaAlert StudentAlertFits
  rw [finishes_read_bind]
  dsimp only [id]
  rw [finishes_return, Bool.not_eq_true, Bool.not_eq_false']
  refine imp_congr_right fun _ => ?_
  rw [finishes_return, Bool.not_eq_true]
  refine imp_congr_right fun _ => ?_
  rw [finishes_return, Bool.not_eq_true]
  refine imp_congr_right fun _ => ?_
  cases hstudent : s.db.students.get studentId with
  | none => simp
  | some student =>
  cases hlab : s.db.labs.get labId with
  | none => simp
  | some lab =>
  cases hnode : s.db.node node with
  | none => simp
  | some n =>
  cases hemail : student.email with
  | none => simp [hemail]
  | some email =>
  have mail : ∀ s' : Controller, Finishes (do
      let _ ← Op.lift (fmtBytesOf s.host.conversions quota)
      Op.emit (.studentQuotaMail email student.username lab.name pool
        (percentOf used (quota.toNumber s.host.conversions)))
      if s.settings.studentQuotaNotifyAdmins then
        (s.db.admins.filter AdminRow.isActive).forM fun admin =>
          Op.emit (.studentQuotaMail admin.email student.username lab.name pool
            (percentOf used (quota.toNumber s.host.conversions)))
      else pure () : Op Unit) s' ↔ ∃ text, fmtBytesOf s.host.conversions quota = .ok text :=
    fun s' => finishes_lift_last _ (fun _ =>
      .bind (total_emit _) fun _ => .ite (.forM _ fun _ => total_emit _) (.pure _)) s'
  simp only [hemail, Option.some.injEq, forall_eq', exists_eq', forall_true_left]
  rw [finishes_return]
  refine imp_congr_right fun _ => ?_
  rw [finishes_check, (total_writeLists _ _).finishes_seq, mail]

theorem finishes_maybeQuotaAlert (placementId labId : Nat) (pool : String) (used : Number)
    (quota : Value) (now : Nat) (s : Controller) :
    Finishes (maybeQuotaAlert placementId labId pool used quota now) s ↔
      QuotaAlertFits s placementId labId pool used quota now := by
  unfold maybeQuotaAlert QuotaAlertFits
  rw [finishes_read_bind]
  dsimp only [id]
  rw [finishes_return, Bool.not_eq_true]
  refine imp_congr_right fun _ => ?_
  rw [finishes_return, Bool.not_eq_true]
  refine imp_congr_right fun _ => ?_
  cases hlab : s.db.labs.get labId with
  | none => simp
  | some lab =>
      simp only [Option.some.injEq, forall_eq']
      rw [finishes_check, (total_writeLists _ _).finishes_seq]
      refine and_congr_right fun _ => ?_
      cases hpi : lab.piEmail with
      | none => simp
      | some email =>
          simp only [Option.some.injEq, forall_eq']
          rw [finishes_ite, and_iff_left fun _ => finishes_pure _ _]
          refine imp_congr_right fun _ => ?_
          exact finishes_lift_last _ (fun _ => total_emit _) _

/-- A sample that is stored has a quota that binds, and the warnings due fit. -/
def RecordFits (s : Controller) (node : String) (now : Nat) (ref : Placement)
    (studentId : Option Nat) (tier : String) (used : Number) (user quota : Value) : Prop :=
  Binds 1 [quota.orElse (some .null)] ∧
    (∀ sid, studentId = some sid → (assignedUserQuota ref tier quota).truthy = true →
      StudentAlertFits s ref.id ref.labId sid node tier used (assignedUserQuota ref tier quota) now) ∧
    (user.truthy = false → quota.truthy = true → tier ≠ "rootfs" →
      QuotaAlertFits s ref.id ref.labId tier used quota now)

theorem finishes_recordSample (node : String) (now : Nat) (ref : Placement)
    (studentId : Option Nat) (tier : String) (used : Number) (user quota : Value)
    (huser : user.truthy = false → studentId = none) (s : Controller) :
    Finishes (recordSample node now ref studentId tier used user quota) s ↔
      RecordFits s node now ref studentId tier used user quota := by
  unfold recordSample RecordFits Binds
  rw [finishes_lift_bind, ← exists_and_right]
  refine exists_congr fun bound => and_congr_right fun _ => ?_
  rw [(total_writeLists _ _).finishes_seq]
  cases studentId with
  | none =>
      refine Iff.trans ?_ (and_iff_right (a := ∀ sid, none = some sid → _) fun _ h => by cases h).symm
      show Finishes (if _ then _ else _) _ ↔ _
      rw [finishes_ite, and_iff_left fun _ => finishes_pure _ _, finishes_maybeQuotaAlert]
      simp only [Bool.and_eq_true, Bool.not_eq_true', bne_iff_ne, and_imp]
      rfl
  | some sid =>
      -- a sample of a student warns no PI
      have hu : user.truthy = true := by
        cases h : user.truthy with
        | true => rfl
        | false => exact absurd (huser h) (Option.some_ne_none sid)
      simp only [hu, Bool.not_true, Bool.false_and, Bool.false_eq_true, if_false, reduceCtorEq,
        false_imp_iff, and_true, Option.some.injEq, forall_eq']
      rw [Total.finishes_last fun _ => .pure _]
      show Finishes (if _ then _ else _) _ ↔ _
      rw [finishes_ite, and_iff_left fun _ => finishes_pure _ _, finishes_maybeStudentQuotaAlert]
      rfl

/-- The roster member a sample is about, as the lookup finds them. -/
def Controller.sampleStudentId (s : Controller) (labId : Nat) (user : Value) :
    Except Js.Error (Option Nat) :=
  if user.truthy then
    (bindAll 1 [user]).map fun values =>
      match values with
      | [x] => ((s.db.roster labId).find? fun r => x.isText s.host.conversions r.username).map
          StudentRow.id
      | _ => none
  else .ok none

theorem sampleStudent_run (labId : Nat) (user : Value) (s : Controller) :
    (sampleStudent labId user).run s = (s.sampleStudentId labId user, s) := by
  unfold sampleStudent Controller.sampleStudentId
  split
  · unfold studentIdInLab
    rw [run_read_bind, run_bind, lift_run]
    cases bindAll 1 [user] with
    | error e => rfl
    | ok values =>
        rcases values with _ | ⟨x, _ | ⟨y, rest⟩⟩ <;> rfl
  · rfl

/-- A sample of the whole placement is about no student. -/
theorem sampleStudentId_whole {s : Controller} {labId : Nat} {user : Value} {studentId : Option Nat}
    (h : s.sampleStudentId labId user = .ok studentId) (hu : user.truthy = false) :
    studentId = none := by
  unfold Controller.sampleStudentId at h
  rw [hu] at h
  cases h
  rfl

/-- A storage sample: where it names a placement of the node, its user can be looked up, and
where it is stored, it fits. -/
def SampleFits (s : Controller) (node : String) (now : Nat) (ds : Json) : Prop :=
  let tier := (Value.asString (Value.field "tier" ds)).getD ""
  let user := Value.field "user" ds
  ∀ labName, Value.asString (Value.field "lab" ds) = some labName →
    ∀ used, Value.asNumber (Value.field "used_bytes" ds) = some used →
      ["fast", "cold", "rootfs"].contains tier = true → used.isFinite = true →
      ∀ ref, s.db.lookupPlacement s.host.conversions (some (.str labName)) node = .ok (some ref) →
        ∃ studentId, s.sampleStudentId ref.labId user = .ok studentId ∧
          (¬ (user.truthy = true ∧ studentId = none) →
            shouldSample s.db ref.id studentId tier used now (scanDerived tier user) = true →
            RecordFits s node now ref studentId tier used user (Value.field "quota_bytes" ds))

theorem lookupPlacement_string (d : Db) (c : Conversions) (lab node : String) :
    ∃ ref, d.lookupPlacement c (some (.str lab)) node = .ok ref :=
  (lookupPlacement_ok_iff d c (some (.str lab)) node).mpr ⟨_, bindAll_strings lab node⟩

theorem finishes_ingestSample (node : String) (now : Nat) (ds : Json) (s : Controller) :
    Finishes (ingestSample node now ds) s ↔ SampleFits s node now ds := by
  unfold ingestSample SampleFits
  dsimp only
  cases hlab : Value.asString (Value.field "lab" ds) with
  | none => simp
  | some labName =>
  cases hused : Value.asNumber (Value.field "used_bytes" ds) with
  | none => simp
  | some used =>
  simp only [Option.some.injEq, forall_eq']
  rw [finishes_return, Bool.or_eq_true, not_or, Bool.not_eq_true', Bool.not_eq_true',
    Bool.not_eq_false, Bool.not_eq_false, and_imp]
  refine imp_congr_right fun _ => imp_congr_right fun _ => ?_
  obtain ⟨found, hfound⟩ := lookupPlacement_string s.db s.host.conversions labName node
  rw [finishes_bind_of_run ((getPlacementByLabNode_run _ _ s).trans (by rw [hfound])), hfound]
  cases found with
  | none => simp
  | some ref =>
  simp only [Except.ok.injEq, Option.some.injEq, forall_eq']
  cases hsid : s.sampleStudentId ref.labId (Value.field "user" ds) with
  | error e =>
      refine iff_of_false (not_finishes_bind_of_run ((sampleStudent_run _ _ s).trans (by rw [hsid]))) ?_
      rintro ⟨_, h, -⟩
      cases h
  | ok studentId =>
      rw [finishes_bind_of_run ((sampleStudent_run _ _ s).trans (by rw [hsid]))]
      simp only [Op.query, finishes_read_bind, id, Except.ok.injEq, exists_eq_left']
      rw [finishes_return, finishes_return,
        finishes_recordSample _ _ _ _ _ _ _ _ (sampleStudentId_whole hsid)]
      simp

/-! ## Usage scans and processes -/

/-- A usage scan: not `null`, and where it has a time, its lab binds. -/
def ScanFits (node : String) (u : Json) : Prop :=
  u ≠ .null ∧ ∀ scannedAt, Value.asNumber (Value.field "scanned_at" u) = some scannedAt →
    (Value.field "lab" u).truthy = true → Binds 2 [Value.field "lab" u, some (.str node)]

theorem finishes_ingestUsageScan (node : String) (u : Json) (s : Controller) :
    Finishes (ingestUsageScan node u) s ↔ ScanFits node u := by
  unfold ingestUsageScan ScanFits
  rw [finishes_lift_bind]
  by_cases hnull : u = .null
  · subst hnull
    refine iff_of_false ?_ fun h => h.1 rfl
    rintro ⟨_, h, -⟩
    cases h
  rw [and_iff_right hnull]
  simp only [get_eq_ok hnull, Except.ok.injEq, exists_eq_left']
  cases Value.asNumber (Value.field "scanned_at" u) with
  | none => simp
  | some scannedAt =>
      simp only [Option.some.injEq, forall_eq']
      rw [finishes_return, Bool.not_eq_true', Bool.not_eq_false]
      refine imp_congr_right fun _ => finishes_getPlacement_bind _ _ (fun p => ?_) s
      split
      · exact .pure _
      · exact .write _ _

theorem placementNamed_total (labName : Option String) (node : String) :
    Total (placementNamed labName node) := by
  cases labName with
  | none => exact .pure _
  | some lab =>
      intro s
      exact (finishes_lift _ s).mpr (lookupPlacement_string s.db s.host.conversions lab node)

/-- The placement a reported process is attributed to. -/
def Controller.processPlacement (s : Controller) (node : String) (p : Json) : Option Placement :=
  (Value.field "lab" p).asString.bind fun lab =>
    (s.db.lookupPlacement s.host.conversions (some (.str lab)) node).toOption.join

theorem placementNamed_run (node : String) (p : Json) (s : Controller) :
    (placementNamed (Value.field "lab" p).asString node).run s =
      (.ok (s.processPlacement node p), s) := by
  unfold placementNamed Controller.processPlacement
  cases (Value.field "lab" p).asString with
  | none => rfl
  | some lab =>
      obtain ⟨ref, href⟩ := lookupPlacement_string s.db s.host.conversions lab node
      rw [getPlacementByLabNode_run, href]
      simp only [Option.bind_some, href]
      rfl

/-- A reported process: not `null`, with values that bind and that the columns take. -/
def ProcessFits (s : Controller) (node : String) (now : Nat) (p : Json) : Prop :=
  p ≠ .null ∧ ∃ values, bindAll 10 (gpuParameters node now p (s.processPlacement node p)) = .ok values ∧
    ∃ row, gpuSnapshotRow s.host.conversions s.db node values = .ok row

theorem finishes_ingestGpuProcess (node : String) (now : Nat) (p : Json) (s : Controller) :
    Finishes (ingestGpuProcess node now p) s ↔ ProcessFits s node now p := by
  unfold ingestGpuProcess ProcessFits
  rw [finishes_lift_bind]
  by_cases hnull : p = .null
  · subst hnull
    refine iff_of_false ?_ fun h => h.1 rfl
    rintro ⟨_, h, -⟩
    cases h
  rw [and_iff_right hnull]
  simp only [get_eq_ok hnull, Except.ok.injEq, exists_eq_left']
  rw [finishes_bind_of_run (placementNamed_run node p s), finishes_read_bind, finishes_lift_bind]
  refine exists_congr fun values => and_congr_right fun _ => ?_
  exact finishes_lift_last _ (fun _ => total_writeLists _ _) s

/-! ## Whole heartbeats -/

/-- A node that reports keeps its id and its name. -/
theorem keeps_reported (payload : Json) (now : Nat) (n : NodeRow) :
    let n' : NodeRow := { n with
      pools := stringify ((Value.field "pools" payload).orElse (some (.arr []))), lastSeen := some now }
    n'.id = n.id ∧ n'.name = n.name :=
  ⟨rfl, rfl⟩

/-- What a heartbeat does before its storage samples. -/
def ingestReports (node : String) (payload : Json) (now : Nat) : Op Unit := do
  updateNode node
    (fun n => { n with
      pools := stringify ((Value.field "pools" payload).orElse (some (.arr []))), lastSeen := some now })
    (keeps_reported payload now)
  ingestColdStorage node (Value.field "cold" payload)
  ingestScrub node (Value.field "scrub" payload) now

/-- What a heartbeat does before its processes. -/
def ingestUsage (node : String) (now : Nat) (storage scans : List Json) : Op Unit := do
  storage.forM (ingestSample node now)
  scans.forM (ingestUsageScan node)
  Op.writeLists (fun d => { d with gpuSnapshot := d.gpuSnapshot.filter fun g => g.node != node })
    (lists_processes node)

/-- A list of a heartbeat; a missing one is empty. -/
def listOf (k : String) (payload : Json) : Except Js.Error (List Json) :=
  ((Value.field k payload).orElse (some (.arr []))).iterate

/-- **The heartbeat fits the state**: its lists can be iterated, and every entry fits the state
the loop meets it in. -/
def TelemetryFits (s : Controller) (node : String) (payload : Json) : Prop :=
  let s₁ := (ingestReports node payload s.now).after s
  ScrubFits s node (Value.field "scrub" payload) ∧
    ∃ storage, listOf "storage" payload = .ok storage ∧
      Run.Along (fun s' ds => (ingestSample node s.now ds).after s')
        (fun s' ds => SampleFits s' node s.now ds) s₁ storage ∧
      ∃ scans, listOf "usage_scans" payload = .ok scans ∧ (∀ u ∈ scans, ScanFits node u) ∧
        ∃ processes, listOf "gpu_processes" payload = .ok processes ∧
          Run.Along (fun s' p => (ingestGpuProcess node s.now p).after s')
            (fun s' p => ProcessFits s' node s.now p)
            ((ingestUsage node s.now storage scans).after s₁) processes

/-- The comparison of scrubs reads nothing but the node's stored status. -/
theorem ScrubFits.congr {s s' : Controller} {node : String} (hhost : s'.host = s.host)
    (hstored : ((s'.db.node node).bind fun n => n.scrubStatus.parse) =
      (s.db.node node).bind fun n => n.scrubStatus.parse) (scrub : Value) :
    ScrubFits s' node scrub ↔ ScrubFits s node scrub := by
  unfold ScrubFits
  rw [hhost, hstored]

theorem scrubFits_updateNode (node : String) (f : NodeRow → NodeRow) (h)
    (hf : ∀ n, (f n).scrubStatus = n.scrubStatus) (s : Controller) (scrub : Value) :
    ScrubFits ((updateNode node f h).after s) node scrub ↔ ScrubFits s node scrub :=
  ScrubFits.congr (after_host _ s) (scrubStatus_updateNode node f h hf s) scrub

theorem scrubFits_ingestColdStorage (node : String) (cold : Value) (s : Controller) (scrub : Value) :
    ScrubFits ((ingestColdStorage node cold).after s) node scrub ↔ ScrubFits s node scrub := by
  unfold ingestColdStorage
  split
  · exact Iff.rfl
  · refine scrubFits_updateNode node _ _ ?_ s scrub
    exact fun _ => rfl

theorem finishes_ingestReports (node : String) (payload : Json) (now : Nat) (s : Controller) :
    Finishes (ingestReports node payload now) s ↔ ScrubFits s node (Value.field "scrub" payload) := by
  have cold : Total (ingestColdStorage node (Value.field "cold" payload)) :=
    .ite (.pure _) (total_updateNode _ _ _)
  unfold ingestReports
  rw [(total_updateNode _ _ _).finishes_seq, cold.finishes_seq, finishes_ingestScrub,
    scrubFits_ingestColdStorage]
  refine scrubFits_updateNode node _ _ ?_ s _
  exact fun _ => rfl

theorem finishes_ingestTelemetry (node : String) (payload : Json) (s : Controller) :
    Finishes (ingestTelemetry node payload) s ↔ TelemetryFits s node payload := by
  have hparts : ingestTelemetry node payload = (do
      let now ← Op.now
      ingestReports node payload now
      let storage ← Op.lift (listOf "storage" payload)
      storage.forM (ingestSample node now)
      let scans ← Op.lift (listOf "usage_scans" payload)
      scans.forM (ingestUsageScan node)
      Prog.atomically do
        Op.writeLists fun d => { d with gpuSnapshot := d.gpuSnapshot.filter fun g => g.node != node }
        let gpu ← Op.lift (listOf "gpu_processes" payload)
        gpu.forM (ingestGpuProcess node now)) := by
    simp only [ingestTelemetry, ingestReports, listOf, bind_assoc]
  unfold TelemetryFits
  rw [hparts, Op.now, finishes_read_bind, finishes_seq, finishes_ingestReports]
  refine and_congr_right fun _ => ?_
  rw [finishes_lift_bind]
  refine exists_congr fun storage => and_congr_right fun _ => ?_
  have hsamples := finishes_forM (ingestSample node s.now) storage
    ((ingestReports node payload s.now).after s)
  simp only [finishes_ingestSample] at hsamples
  rw [finishes_seq, hsamples]
  refine and_congr_right fun hstorage => ?_
  rw [finishes_lift_bind]
  refine exists_congr fun scans => and_congr_right fun _ => ?_
  have hscans : ∀ s', Finishes (scans.forM (ingestUsageScan node)) s' ↔ ∀ u ∈ scans, ScanFits node u :=
    fun s' => finishes_forM_of (I := fun _ => True) (fun _ _ _ => trivial)
      (fun u s' _ => finishes_ingestUsageScan node u s') scans trivial
  rw [finishes_seq, hscans]
  refine and_congr_right fun hall => ?_
  rw [finishes_atomically, (total_writeLists _ _).finishes_seq, finishes_lift_bind]
  refine exists_congr fun processes => and_congr_right fun _ => ?_
  rw [finishes_forM]
  simp only [finishes_ingestGpuProcess]
  -- the loops before this one went through, so they left the state the condition speaks of
  have hstate : (ingestUsage node s.now storage scans).after
      ((ingestReports node payload s.now).after s) =
      (Op.writeLists fun d =>
        { d with gpuSnapshot := d.gpuSnapshot.filter fun g => g.node != node }).after
        ((scans.forM (ingestUsageScan node)).after ((storage.forM (ingestSample node s.now)).after
          ((ingestReports node payload s.now).after s))) := by
    unfold ingestUsage
    rw [after_seq (hsamples.mpr hstorage), after_seq ((hscans _).mpr hall)]
  rw [hstate]

/-! ## Every frame -/

theorem total_handleLog (node : String) (frame : LogFrame) : Total (handleLog node frame) :=
  .bind (.read _) fun _ => .bind (total_insertLog _) fun _ => .bind (.read _) fun _ =>
    .ite (.pure _) (.bind (.read _) fun _ => total_alertAdmins _ _ _)

theorem total_handleEvent (node : String) (frame : EventFrame) : Total (handleEvent node frame) := by
  have mail : ∀ user lab state, Total (emailGpuEvent node user lab state) := by
    intro user lab state
    refine .bind (.read _) fun s => ?_
    dsimp only
    split
    · exact .pure _
    · refine .ite (.pure _) (.ite (.pure _) ?_)
      split
      · exact .pure _
      · exact .ite (.pure _) (.ite (.pure _) (.bind (.write _ _) fun _ => total_emit _))
  exact .ite (.pure _) (.bind (.read _) fun _ => .bind (placementNamed_total _ _) fun _ =>
    .bind (total_writeLists _ _) fun _ => mail _ _ _)

/-- **The frame fits the state.** Receipts, logs and events fit every state; a result has to
name what its action looks up, and a heartbeat to have the shape its loops expect. -/
def InboundFrame.Fits (s : Controller) (node : String) : InboundFrame → Prop
  | .result frame =>
    ∀ t ∈ s.db.taskLog.rows, t.openFor node frame.id = true →
      LifecycleFits (s.settled node frame) node frame t
  | .telemetry payload => TelemetryFits s node (payload.getD (.obj []))
  | _ => True

/-- **The hub survives a frame exactly where the frame fits the state.** -/
theorem ingestFrame_survives_iff (node : String) (frame : InboundFrame) (s : Controller) :
    Finishes (ingestFrame node frame) s ↔ frame.Fits s node := by
  cases frame with
  | hello hello => exact iff_of_true (finishes_pure _ s) trivial
  | result result => exact finishes_handleResult node result s
  | receipt id => exact iff_of_true (Total.bind (.read _) (fun _ => .write _ _) s) trivial
  | log log => exact iff_of_true (total_handleLog node log s) trivial
  | event event => exact iff_of_true (total_handleEvent node event s) trivial
  | telemetry payload => exact finishes_ingestTelemetry node _ s

/-- A heartbeat whose list of storage samples is a number. -/
def countedStorage : Json :=
  .obj [("type", .str "telemetry"), ("payload", .obj [("storage", .num 1)])]

/-- **A frame ends the hub**: the schemas let it in, and its samples cannot be iterated. -/
theorem counted_storage_throws :
    ∃ frame, parseInboundFrame countedStorage = some frame ∧
      ¬ Finishes (ingestFrame "gpu-01" frame)
        (Run.run step (.init .plain) [.provisionNode "gpu-01" none]) := by
  refine ⟨.telemetry (some (.obj [("storage", .num 1)])), rfl, fun h => ?_⟩
  obtain ⟨-, storage, hstorage, -⟩ := (finishes_ingestTelemetry _ _ _).mp h
  cases hstorage

end MassDeployment
