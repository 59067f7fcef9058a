import MassDeployment.Controller.Placements

set_option autoImplicit false

/-! # Telemetry ingestion (`ingest.ts`)

A telemetry frame comes from one authenticated node. Every lab it names is resolved to the
placement of that lab on that node.
-/

namespace MassDeployment

open Js

def storageSampleMinIntervalMs : Nat := 5 * 60 * 1000

def quotaAlertDedupMs : Nat := 6 * 60 * 60 * 1000

def studentQuotaAlertDedupMs : Nat := 24 * 60 * 60 * 1000

/-- The id of a roster member by name. -/
def studentIdInLab (labId : Nat) (username : Value) : Op (Option Nat) := do
  let s ← .read id
  let values ← Op.lift (bindAll 1 [username])
  match values with
  | [user] =>
    return ((s.db.roster labId).find? fun r => user.isText s.host.conversions r.username).map
      StudentRow.id
  | _ => return none

/-! ## Quota alerts -/

/-- `Math.round((used / quota) * 100)`. -/
def percentOf (used quota : Number) : Number := ((used.div quota).mul 100).round

/-- The newest of some timestamps. -/
def newest (ts : List Nat) : Option Nat := ts.max?

/-- An alert was recorded less than `window` ago. -/
def alertedWithin (ts : List Nat) (now window : Nat) : Bool :=
  match newest ts with
  | some t => decide (now - t < window)
  | none => false

/-- Record and mail a warning about a student's own quota. -/
def maybeStudentQuotaAlert (placementId labId studentId : Nat) (node pool : String)
    (used : Number) (quota : Value) (now : Nat) : Op Unit := do
  let s ← .read id
  let c := s.host.conversions
  let pct := percentOf used (quota.toNumber c)
  let recent := (s.db.studentQuotaAlerts.filter fun a =>
    a.placementId == placementId && a.studentId == studentId && a.pool == pool).map
      StudentQuotaAlertRow.ts
  if !s.settings.studentQuotaAlertsEnabled then pure ()
  else if pct.le s.settings.studentQuotaAlertPct then pure ()
  else if alertedWithin recent now studentQuotaAlertDedupMs then pure ()
  else
    match s.db.students.get studentId, s.db.labs.get labId, s.db.node node with
    | some student, some lab, some _ =>
      match student.email with
      | none => pure ()
      | some email =>
        if email = "" then pure ()
        else if pct = .nan then
          throw (.sqliteError "NOT NULL constraint failed: student_quota_alerts.pct")
        else
          Op.writeLists fun d =>
            { d with
              studentQuotaAlerts := d.studentQuotaAlerts ++ [⟨placementId, studentId, pool, pct, now⟩] }
          let _ ← Op.lift (fmtBytesOf c quota)
          Op.emit (.studentQuotaMail email student.username lab.name pool pct)
          if s.settings.studentQuotaNotifyAdmins then
            (s.db.admins.filter AdminRow.isActive).forM fun admin =>
              Op.emit (.studentQuotaMail admin.email student.username lab.name pool pct)
    | _, _, _ => pure ()

/-- Record and mail a warning to the PI about a lab's pool. -/
def maybeQuotaAlert (placementId labId : Nat) (pool : String) (used : Number) (quota : Value)
    (now : Nat) : Op Unit := do
  let s ← .read id
  let c := s.host.conversions
  let pct := percentOf used (quota.toNumber c)
  let recent := (s.db.quotaAlerts.filter fun a =>
    a.placementId == placementId && a.pool == pool).map QuotaAlertRow.ts
  if pct.lt s.settings.quotaAlertPct then pure ()
  else if alertedWithin recent now quotaAlertDedupMs then pure ()
  else
    match s.db.labs.get labId with
    | none => pure ()
    | some lab =>
      if pct = .nan then throw (.sqliteError "NOT NULL constraint failed: quota_alerts.pct")
      else
        Op.writeLists fun d =>
          { d with quotaAlerts := d.quotaAlerts ++ [⟨placementId, labId, pool, pct, now⟩] }
        match lab.piEmail with
        | some email =>
          if email ≠ "" then
            let _ ← Op.lift (fmtBytesOf c quota)
            Op.emit (.quotaMail email lab.name pool pct)
        | none => pure ()

/-! ## Storage samples -/

/-- Whether to persist a new sample: the first one, one after the interval, or a changed one
that a scan produced. -/
def shouldSample (d : Db) (placementId : Nat) (studentId : Option Nat) (pool : String)
    (used : Number) (now : Nat) (scanDerived : Bool) : Bool :=
  match (d.storageSamples.filter fun r =>
    r.placementId == placementId && r.studentId == studentId && r.pool == pool).getLast? with
  | none => true
  | some row =>
    decide (storageSampleMinIntervalMs + row.ts ≤ now) || (scanDerived && row.usedBytes != used)

/-- A quota column as a value of the program. -/
def ofQuota : Option Int → Value
  | some q => some (.num q)
  | none => some .null

/-- The quota a student's usage is measured against; only the fast and cold tiers have one. -/
def assignedUserQuota (ref : Placement) (tier : String) (quota : Value) : Value :=
  if tier = "fast" then
    (quota.orElse (ofQuota ref.studentFastQuotaBytes)).orElse (some (jsonInt ref.fastQuotaBytes))
  else if tier = "cold" then
    (quota.orElse (ofQuota ref.studentColdQuotaBytes)).orElse (ofQuota ref.coldQuotaBytes)
  else some .null

/-- Store a sample of a placement, and warn about a quota that fills up. -/
def recordSample (node : String) (now : Nat) (ref : Placement) (studentId : Option Nat)
    (tier : String) (used : Number) (user quota : Value) : Op Unit := do
  let bound ← Op.lift (bindAll 1 [quota.orElse (some .null)])
  Op.writeLists fun d =>
    { d with
      storageSamples := d.storageSamples ++
        [⟨ref.id, ref.labId, studentId, tier, used, bound.headD .null, now⟩] }
  let assigned := assignedUserQuota ref tier quota
  studentId.forM fun sid =>
    if assigned.truthy then
      maybeStudentQuotaAlert ref.id ref.labId sid node tier used assigned now
    else pure ()
  if !user.truthy && quota.truthy && tier != "rootfs" then
    maybeQuotaAlert ref.id ref.labId tier used quota now
  else pure ()

/-- The roster member a sample is about; none for a sample of the whole placement. -/
def sampleStudent (labId : Nat) (user : Value) : Op (Option Nat) :=
  if user.truthy then studentIdInLab labId user else pure none

/-- A sample a scan produced: one of the root file system, or one that names a user. -/
def scanDerived (tier : String) (user : Value) : Bool :=
  tier == "rootfs" || match user with
    | some .null => false
    | _ => true

/-- One row of a heartbeat's storage list. -/
def ingestSample (node : String) (now : Nat) (ds : Json) : Op Unit := do
  let tier := (Value.asString (Value.field "tier" ds)).getD ""
  match Value.asString (Value.field "lab" ds), Value.asNumber (Value.field "used_bytes" ds) with
  | some labName, some used =>
    if !(["fast", "cold", "rootfs"].contains tier) || !used.isFinite then pure ()
    else
      match ← getPlacementByLabNode (some (.str labName)) node with
      | none => pure ()
      | some ref =>
        let user := Value.field "user" ds
        let studentId ← sampleStudent ref.labId user
        let db ← Op.query id
        if user.truthy && studentId.isNone then pure ()
        else if !shouldSample db ref.id studentId tier used now (scanDerived tier user) then pure ()
        else recordSample node now ref studentId tier used user (Value.field "quota_bytes" ds)
  | _, _ => pure ()

/-! ## Usage scans, scrubs, cold storage -/

/-- One entry of the usage-scan freshness list; the time only moves forward. -/
def ingestUsageScan (node : String) (u : Json) : Op Unit := do
  let labName ← Op.lift (Value.get (some u) "lab")
  match Value.asNumber (Value.field "scanned_at" u) with
  | some scannedAt =>
    if !labName.truthy then pure ()
    else
      match ← getPlacementByLabNode labName node with
      | none => pure ()
      | some ref =>
        Slot.labPlacements.update
          (fun p => p.id == ref.id && p.usageScannedAt.all fun t => t.lt scannedAt)
          (fun p => { p with usageScannedAt := some scannedAt })
          (keeps_placement _ _ fun _ => ⟨rfl, rfl, rfl, rfl⟩)
  | none => pure ()

/-- Store the reported cold mount path and readiness. -/
def ingestColdStorage (node : String) (cold : Value) : Op Unit :=
  if !cold.isObject then pure ()
  else
    let mount := (Value.asString (cold.getOpt "mount_path")).map (slice 512)
    let ready := (cold.getOpt "ready").isBool true
    updateNode node fun n => { n with coldMountPath := mount, coldReady := ready }

/-- A scrub entry that reports errors. -/
def isBadScrub (p : Json) : Except Error Bool := do
  let healthy ← Value.get (some p) "healthy"
  let errors := (Value.field "errors" p).asNumber
  return healthy.isBool false || errors.any (· != 0)

/-- The entries of a list that report errors. -/
def badScrubs (entries : List Json) : Except Error (List Json) :=
  entries.filterM isBadScrub

/-- `p.detail ?? …`, the summary being put together where it is needed only. -/
def scrubDetail (c : Conversions) (p : Json) : Except Error Value :=
  match Value.field "detail" p with
  | none | some .null => do
    let text := fun (k fallback : String) =>
      Value.interpolate c ((Value.field k p).orElse (some (.str fallback)))
    let state ← text "state" "?"
    let errors ← text "errors" "?"
    let scan ← text "last_scrub" "n/a"
    return some (.str s!"state={state}; errors={errors}; scan={scan}")
  | some detail => .ok (some detail)

/-- Log and alert one entry that reports errors and did not before. -/
def reportScrub (node : String) (now : Nat) (p : Json) : Op Unit := do
  let c ← .read fun s => s.host.conversions
  let pool ← Op.lift (Value.interpolate c (Value.field "pool" p))
  let msg := s!"ZFS scrub on {node}: pool '{pool}' reports errors"
  let detail ← Op.lift (scrubDetail c p)
  let bound ← Op.lift (bindAll 1 [detail])
  insertLog
    { ts := now, node := node, level := "ERROR", source := some "scrub", msg
      detail := bound.headD .null }
  let detailText := detail.toText c
  alertAdmins s!"scrub:{node}:{pool}" s!"ZFS scrub errors on {node}" s!"{msg}\n\n{detailText}"

/-- The entries that were stored; a status that does not parse counts as none. -/
def storedScrubs : Option Json → Except Error (List Json)
  | some (.arr items) => .ok items
  | none => .ok []
  | some _ => .error (.typeError "prev.filter is not a function")

/-- Persist the latest scrub status; report the pools that newly have errors. -/
def ingestScrub (node : String) (scrub : Value) (now : Nat) : Op Unit :=
  match scrub with
  | some (.arr entries) => do
    let stored ← Op.query fun d => (d.node node).bind fun n => n.scrubStatus.parse
    let prev ← Op.lift (storedScrubs stored)
    let prevBad ← Op.lift (badScrubs prev)
    updateNode node fun n => { n with scrubStatus := .text (.arr entries) }
    entries.forM fun p => do
      let bad ← Op.lift (isBadScrub p)
      let known := prevBad.any fun q =>
        Value.sameValueZero (Value.field "pool" q) (Value.field "pool" p)
      if bad && !known then reportScrub node now p
  | _ => pure ()

/-! ## The GPU snapshot -/

/-- The placement a bound value refers to; `NULL` is none, and a number has to exist. -/
def placementReference (d : Db) (v : SqlValue) : Except Error (Option Nat) :=
  match v with
  | .null => .ok none
  | .number (.fin q) =>
    match d.labPlacements.find fun p => (p.id : ℚ) == q with
    | some p => .ok (some p.id)
    | none => .error (.sqliteError "FOREIGN KEY constraint failed")
  | _ => .error (.sqliteError "FOREIGN KEY constraint failed")

/-- A value stored in a numeric column. -/
def numericColumn (c : Conversions) : SqlValue → SqlValue
  | .text s => match c.columnNumber s with
    | some n => .number n
    | none => .text s
  | v => v

/-- The row ten bound values make, in the order of the columns. -/
def gpuSnapshotRow (c : Conversions) (d : Db) (node : String) :
    List SqlValue → Except Error GpuSnapshotRow
  | [_, pid, user, lab, placement, vram, util, ts, cmd, started] =>
    if pid = .null then .error (.sqliteError "NOT NULL constraint failed: gpu_snapshot.pid")
    else if ts = .null then .error (.sqliteError "NOT NULL constraint failed: gpu_snapshot.ts")
    else do
      let placementId ← placementReference d (numericColumn c placement)
      return { node, pid := numericColumn c pid, user, lab, placementId, vramBytes := vram, util,
               ts, cmd, startedAt := started }
  | _ => .error (.rangeError "Too few parameter values were provided")

/-- What the insert of one reported process is given. -/
def gpuParameters (node : String) (now : Nat) (p : Json) (ref : Option Placement) : List Value :=
  let orNull := fun k => (Value.field k p).orElse (some .null)
  let started := match (Value.field "started_at" p).asNumber with
    | some n => if n.isFinite then some (.num n) else some .null
    | none => some .null
  let cmd := match (Value.field "cmd" p).asString with
    | some t => some (.str (slice 200 t))
    | none => some .null
  [some (.str node), Value.field "pid" p, orNull "user",
    ((Value.field "lab" p).asString.map Json.str).getD .null,
    ref.elim (some .null) fun r => some (.num r.id),
    orNull "vram_bytes", orNull "util", some (.num now), cmd, started]

/-- Insert one reported process, replacing a row with the same node and pid. -/
def ingestGpuProcess (node : String) (now : Nat) (p : Json) : Op Unit := do
  let lab ← Op.lift (Value.get (some p) "lab")
  let ref ← placementNamed lab.asString node
  let s ← .read id
  let values ← Op.lift (bindAll 10 (gpuParameters node now p ref))
  let row ← Op.lift (gpuSnapshotRow s.host.conversions s.db node values)
  Op.writeLists fun d =>
    { d with
      gpuSnapshot := (d.gpuSnapshot.filter fun g => !(g.node == node && g.pid == row.pid)) ++ [row] }

/-- The processes of a node are in a list. -/
theorem lists_processes (node : String) (d : Db) :
    let d' : Db := { d with gpuSnapshot := d.gpuSnapshot.filter fun g => g.node != node }
    d'.nodes = d.nodes ∧ d'.labs = d.labs ∧ d'.students = d.students ∧
      d'.labMembers = d.labMembers ∧ d'.labPlacements = d.labPlacements ∧
      d'.placementMembers = d.placementMembers ∧ d'.taskLog = d.taskLog :=
  ⟨rfl, rfl, rfl, rfl, rfl, rfl, rfl⟩

/-- Ingest one telemetry frame. -/
def ingestTelemetry (node : String) (payload : Json) : Op Unit := do
  let now ← Op.now
  let listOf := fun k => (Value.field k payload).orElse (some (.arr []))
  updateNode node fun n =>
    { n with pools := stringify (listOf "pools"), lastSeen := some now }
  ingestColdStorage node (Value.field "cold" payload)
  ingestScrub node (Value.field "scrub" payload) now
  let storage ← Op.lift (listOf "storage").iterate
  storage.forM (ingestSample node now)
  let scans ← Op.lift (listOf "usage_scans").iterate
  scans.forM (ingestUsageScan node)
  Prog.atomically do
    Op.writeLists (fun d => { d with gpuSnapshot := d.gpuSnapshot.filter fun g => g.node != node })
      (lists_processes node)
    let gpu ← Op.lift (listOf "gpu_processes").iterate
    gpu.forM (ingestGpuProcess node now)

end MassDeployment
