import MassDeployment.Controller.Acts
import MassDeployment.Controller.LogRotation
import MassDeployment.Controller.Samples

set_option autoImplicit false

/-! # Sampling over runs (`ingest.ts`, `maintenance.ts`)

Heartbeats of one node come in, time passes, and now and then old rows are pruned. The samples of a
lab's pools stay an interval apart, and so do samples that repeat a value; what a scan produced is
stored as it was reported last. The last of these needs the heartbeat to get through its rows, which
one of the declared types does.
-/

namespace MassDeployment

open Js Prog

/-! ## Retention -/

def storageSampleRetentionDays : Nat := 180

/-- The rows as a table, under ids in the order of their insertion. -/
def LogTable.ofRows (rows : List LogRow) : LogTable where
  entries := rows.zipIdx.map fun x => ⟨x.2, x.1⟩
  sorted := by
    have hids : (rows.zipIdx.map Prod.snd).Pairwise (· < ·) := by
      rw [List.zipIdx_map_snd]
      exact List.pairwise_lt_range'
    rw [List.pairwise_map] at hids ⊢
    exact hids

/-- How many rows `pruneOldData` removed from each table. -/
structure PrunedRows where
  logs : Nat
  gpuEvents : Nat
  storageSamples : Nat
  quotaAlerts : Nat

/-- Delete what is past its retention: logs by their caps, events and alerts with the logs, samples
after half a year. The caps are settings; with one of 0 days no event is too old. -/
def pruneOldData (caps : LogCaps) : Op PrunedRows := do
  let s ← .read id
  let d := s.db
  let (logs, removed) := pruneLogs s.host.conversions.columnText caps s.now (.ofRows d.logs)
  Op.writeLists fun d => { d with logs := logs.entries.map LogEntry.row }
  let eventCutoff : ℚ := s.now - caps.retentionDays * 86400 * 1000
  let tooOld := fun ts : Number => decide (0 < caps.retentionDays) && ts.lt (.fin eventCutoff)
  Op.writeLists fun d => { d with gpuEvents := d.gpuEvents.filter fun r => !tooOld r.ts }
  Op.writeLists fun d => { d with quotaAlerts := d.quotaAlerts.filter fun r => !tooOld r.ts }
  let expired := fun r : StorageSampleRow =>
    decide (r.ts + storageSampleRetentionDays * 86400 * 1000 < s.now)
  Op.writeLists fun d => { d with storageSamples := d.storageSamples.filter fun r => !expired r }
  return ⟨removed, d.gpuEvents.countP fun r => tooOld r.ts, d.storageSamples.countP expired,
    d.quotaAlerts.countP fun r => tooOld r.ts⟩

/-! ## Runs -/

/-- Time passes, a heartbeat of the node comes in, or maintenance prunes. -/
inductive SamplingEvent where
  | tick (ms : Nat)
  | frame (payload : Json)
  | prune (caps : LogCaps)

def SamplingEvent.run (node : String) : SamplingEvent → Op Unit
  | .tick ms => (Act.tick ms).run
  | .frame payload => ingestTelemetry node payload
  | .prune caps => discard (pruneOldData caps)

def sample (node : String) (s : Controller) (e : SamplingEvent) : Controller := (e.run node).after s

/-- The rows of a heartbeat name `null` or a user, and no two are about one tier of one user of one
lab. -/
def SamplingEvent.Rows : SamplingEvent → Prop
  | .frame payload => ∀ rows, listOf "storage" payload = .ok rows →
      (∀ ds ∈ rows, NamesUser ds) ∧ rows.Pairwise fun a b => ¬ SameRow a b
  | _ => True

/-- `ingestTelemetry` up to the last storage row. -/
def ingestRows (node : String) (payload : Json) (now : Nat) : Op Unit := do
  ingestReports node payload now
  let storage ← Op.lift (listOf "storage" payload)
  storage.forM (ingestSample node now)

/-- `ingestTelemetry` after the last storage row. -/
def ingestRest (node : String) (payload : Json) (now : Nat) : Op Unit := do
  let scans ← Op.lift (listOf "usage_scans" payload)
  scans.forM (ingestUsageScan node)
  Prog.atomically do
    Op.writeLists (fun d => { d with gpuSnapshot := d.gpuSnapshot.filter fun g => g.node != node })
      (lists_processes node)
    let gpu ← Op.lift (listOf "gpu_processes" payload)
    gpu.forM (ingestGpuProcess node now)

theorem ingestTelemetry_eq (node : String) (payload : Json) : ingestTelemetry node payload = (do
    let now ← Op.now
    ingestRows node payload now
    ingestRest node payload now) := by
  simp only [ingestTelemetry, ingestRows, ingestRest, ingestReports, listOf, bind_assoc]

/-- Nothing is thrown before the last row was looked at. -/
def SamplingEvent.LookedAt (node : String) (s : Controller) : SamplingEvent → Prop
  | .frame payload => Finishes (ingestRows node payload s.now) s
  | _ => True

/-- What a scan produced is stored as it was reported. -/
def UpToDate (node : String) (s : Controller) : SamplingEvent → Prop
  | .frame payload => ∀ rows, listOf "storage" payload = .ok rows → ∀ ds ∈ rows, ∀ k used,
      s.report node ds = some (k, used) → k.scanned = true →
        (Series.newest k (sample node s (.frame payload)).db.samples).map Series.Sample.value = some used
  | _ => True

section

variable {s : Controller} {node : String} {payload : Json}

theorem sameSamples_ingestReports (now : Nat) :
    Respects SameSamples (ingestReports node payload now) :=
  .bind (fun _ => rfl) fun _ => .bind (walk_ingestColdStorage sameSamples_report _ _) fun _ =>
    walk_ingestScrub sameSamples_report _ _ _ fun _ _ _ _ => rfl

theorem sameSamples_ingestRest (now : Nat) : Respects SameSamples (ingestRest node payload now) := by
  refine .bind (respects_lift _) fun _ =>
    .bind (.forM _ fun _ _ => walk_ingestUsageScan sameSamples_report _ _) fun _ => .atomically ?_
  exact .bind (fun _ => rfl) fun _ => .bind (respects_lift _) fun _ =>
    .forM _ fun _ _ => walk_ingestGpuProcess sameSamples_report _ _ _

theorem sameNames_ingestReports (now : Nat) : Respects SameNames (ingestReports node payload now) :=
  .bind (sameNames_updateNode _ _ _) fun _ =>
    .bind (walk_ingestColdStorage sameNames_ingest.report _ _) fun _ => sameNames_ingest.scrub _ _ _

theorem sameNames_ingestTelemetry : Respects SameNames (ingestTelemetry node payload) := by
  rw [ingestTelemetry_eq]
  refine .bind (.read _) fun now => .bind ?_ fun _ => ?_
  · exact .bind (sameNames_ingestReports now) fun _ => .bind (respects_lift _) fun _ =>
      .forM _ fun ds _ => sameNames_ingest.sample _ _ ds
  · refine .bind (respects_lift _) fun _ =>
      .bind (.forM _ fun _ _ => walk_ingestUsageScan sameNames_ingest.report _ _) fun _ =>
        .atomically ?_
    exact .bind (sameNames_lists _ _) fun _ => .bind (respects_lift _) fun _ =>
      .forM _ fun _ _ => walk_ingestGpuProcess sameNames_ingest.report _ _ _

/-! ## The laws of spacing -/

theorem lawful_frame (hrows : (SamplingEvent.frame payload).Rows)
    (h : Lawful s.now s.db.samples) :
    Lawful s.now ((ingestTelemetry node payload).after s).db.samples := by
  have hsame : ∀ {α : Type} {x : Op α}, Respects SameSamples x → ∀ s' : Controller,
      Lawful s.now s'.db.samples →
      wp x (fun _ s'' => Lawful s.now s''.db.samples) (fun _ s'' => Lawful s.now s''.db.samples) s' := by
    intro α x hx s' hs'
    have hkeep : ∀ s'', SameSamples s' s'' → Lawful s.now s''.db.samples := by
      intro s'' hs''
      rw [hs''.samples]
      exact hs'
    exact wp_mono (hx.wp s') (fun _ s'' => hkeep s'') fun _ s'' => hkeep s''
  refine (wp_after (P := fun s' : Controller => Lawful s.now s'.db.samples)).mp ?_
  rw [ingestTelemetry_eq, Op.now, wp_bind, wp_read, wp_bind]
  refine wp_mono ?_ (fun _ s' hs' => hsame (sameSamples_ingestRest s.now) s' hs') fun _ _ h => h
  unfold ingestRows
  rw [wp_bind]
  refine wp_mono (hsame (sameSamples_ingestReports s.now) s h) (fun _ s₁ hs₁ => ?_) fun _ _ h => h
  rw [wp_bind]
  cases hstorage : listOf "storage" payload with
  | error e => exact hs₁
  | ok rows =>
    refine (wp_of_ok (lift_run _ s₁)).mpr ?_
    exact wp_after.mpr (lawful_rows (hrows rows hstorage).1 hs₁)

theorem lawful_prune (caps : LogCaps) (h : Lawful s.now s.db.samples) :
    Lawful s.now ((pruneOldData caps).after s).db.samples := by
  have hkept : ∀ ms : Nat, Lawful s.now
      ((s.db.storageSamples.filter fun r => !decide (r.ts + ms < s.now)).map
        StorageSampleRow.sample) := by
    intro ms
    have hfilter : (s.db.storageSamples.filter fun r => !decide (r.ts + ms < s.now)).map
        StorageSampleRow.sample = s.db.samples.filter fun x => !decide (x.time + ms < s.now) := by
      unfold Db.samples
      rw [List.filter_map]
      rfl
    rw [hfilter]
    refine h.expire fun x y hle hx => ?_
    rw [Bool.not_eq_true', decide_eq_false_iff_not] at hx ⊢
    omega
  exact hkept _

theorem lawful_sample {e : SamplingEvent} (hrows : e.Rows) (h : Lawful s.now s.db.samples) :
    Lawful (sample node s e).now (sample node s e).db.samples := by
  cases e with
  | tick ms => exact h.later (Nat.le_add_right _ _)
  | prune caps => exact lawful_prune caps h
  | frame payload =>
    have hnow : (sample node s (.frame payload)).now = s.now :=
      (sameNames_ingestTelemetry s : SameNames s (sample node s (.frame payload))).now
    rw [hnow]
    exact lawful_frame hrows h

/-! ## The law of changes -/

/-- The rows are looked at in the state the reports leave. -/
theorem lookedAt_rows {rows : List Json} (hstorage : listOf "storage" payload = .ok rows)
    {now : Nat} (h : Finishes (ingestRows node payload now) s) :
    Finishes (ingestReports node payload now) s ∧
      Finishes (rows.forM (ingestSample node now)) ((ingestReports node payload now).after s) ∧
      (ingestRows node payload now).after s =
        (rows.forM (ingestSample node now)).after ((ingestReports node payload now).after s) := by
  have hparts : ingestRows node payload now =
      (ingestReports node payload now >>= fun _ => rows.forM (ingestSample node now)) := by
    unfold ingestRows
    rw [hstorage]
    rfl
  rw [hparts] at h ⊢
  obtain ⟨hreports, hloop⟩ := (finishes_seq _ _ _).mp h
  exact ⟨hreports, hloop, after_seq hreports _⟩

/-- A heartbeat whose rows were all looked at leaves what a scan produced as it was reported. -/
theorem upToDate_of_lookedAt {e : SamplingEvent} (hrows : e.Rows) (h : e.LookedAt node s) :
    UpToDate node s e := by
  cases e with
  | tick ms => trivial
  | prune caps => trivial
  | frame payload =>
    intro rows hstorage ds hds k used hreport hk
    obtain ⟨hnames, hdistinct⟩ := hrows rows hstorage
    have hends : Finishes (ingestRows node payload s.now) s := h
    have hafter : sample node s (.frame payload) =
        (ingestRest node payload s.now).after ((ingestRows node payload s.now).after s) := by
      rw [sample, SamplingEvent.run, ingestTelemetry_eq, Op.now, after, run_read_bind]
      exact after_seq hends (ingestRest node payload s.now)
    have hrest : SameSamples ((ingestRows node payload s.now).after s)
        ((ingestRest node payload s.now).after ((ingestRows node payload s.now).after s)) :=
      sameSamples_ingestRest s.now _
    obtain ⟨hreports, hloop, hrowsAfter⟩ := lookedAt_rows hstorage hends
    rw [hafter, hrest.samples, hrowsAfter]
    have hkeys : SameNames s ((ingestReports node payload s.now).after s) :=
      sameNames_ingestReports s.now s
    exact newest_rows hnames hdistinct hloop hds ((hkeys.report node ds).trans hreport) hk

/-! ## Heartbeats of the declared types -/

/-- A value a template literal turns into text. -/
def IsText (v : Value) : Prop :=
  v = none ∨ v = some .null ∨ (∃ text, v = some (.str text)) ∨ ∃ n, v = some (.num n)

/-- `ScrubEntry`, as far as it is read. -/
structure ScrubEntry (p : Json) : Prop where
  object : p ≠ .null
  pool : ∃ name, Value.field "pool" p = some (.str name)
  state : IsText (Value.field "state" p)
  errors : IsText (Value.field "errors" p)
  lastScrub : IsText (Value.field "last_scrub" p)
  detail : IsText (Value.field "detail" p)

/-- `number | null`; a key that is left out is `undefined`. -/
def IsQuota (v : Value) : Prop := v = none ∨ v = some .null ∨ ∃ n, v = some (.num n)

/-- The scrub entries and the quotas of a heartbeat are of the declared types. -/
def SamplingEvent.Typed : SamplingEvent → Prop
  | .frame payload =>
    (∀ entries, Value.field "scrub" payload = some (.arr entries) → ∀ p ∈ entries, ScrubEntry p) ∧
      ∃ rows, listOf "storage" payload = .ok rows ∧
        ∀ ds ∈ rows, IsQuota (Value.field "quota_bytes" ds)
  | _ => True

/-- The stored scrub status is a list of entries, if it is anything. -/
def StatusTyped (node : String) (s : Controller) : Prop :=
  ∀ j, ((s.db.node node).bind fun n => n.scrubStatus.parse) = some j →
    ∃ prev, j = .arr prev ∧ ∀ p ∈ prev, p ≠ .null

theorem IsText.interpolate {v : Value} (h : IsText v) (c : Conversions) :
    ∃ text, Value.interpolate c v = .ok text := by
  unfold Value.interpolate
  rcases h with rfl | rfl | ⟨text, rfl⟩ | ⟨n, rfl⟩
  · exact ⟨_, rfl⟩
  · exact ⟨_, rfl⟩
  · exact ⟨_, rfl⟩
  · exact ⟨_, rfl⟩

theorem IsText.orElse {v : Value} (h : IsText v) (fallback : String) :
    IsText (v.orElse (some (.str fallback))) := by
  rcases h with rfl | rfl | ⟨text, rfl⟩ | ⟨n, rfl⟩
  · exact .inr (.inr (.inl ⟨_, rfl⟩))
  · exact .inr (.inr (.inl ⟨_, rfl⟩))
  · exact .inr (.inr (.inl ⟨_, rfl⟩))
  · exact .inr (.inr (.inr ⟨_, rfl⟩))

theorem IsText.binds {v : Value} (h : IsText v) : Binds 1 [v] := by
  rcases h with rfl | rfl | ⟨text, rfl⟩ | ⟨n, rfl⟩
  · exact ⟨_, rfl⟩
  · exact ⟨_, rfl⟩
  · exact ⟨_, rfl⟩
  · cases n <;> exact ⟨_, rfl⟩

/-- The summary that stands in for a missing detail is a text, and so is a detail. -/
theorem ScrubEntry.detail_ok {p : Json} (h : ScrubEntry p) (c : Conversions) :
    ∃ detail, scrubDetail c p = .ok detail ∧ Binds 1 [detail] := by
  obtain ⟨state, hstate⟩ := (h.state.orElse "?").interpolate c
  obtain ⟨errors, herrors⟩ := (h.errors.orElse "?").interpolate c
  obtain ⟨scan, hscan⟩ := (h.lastScrub.orElse "n/a").interpolate c
  have hsummary : ∃ text, (do
      let text := fun (k fallback : String) =>
        Value.interpolate c ((Value.field k p).orElse (some (.str fallback)))
      let state ← text "state" "?"
      let errors ← text "errors" "?"
      let scan ← text "last_scrub" "n/a"
      return some (.str s!"state={state}; errors={errors}; scan={scan}") : Except Error Value) =
        .ok (some (.str text)) := by
    dsimp only
    rw [hstate, herrors, hscan]
    exact ⟨_, rfl⟩
  unfold scrubDetail
  rcases h.detail with hd | hd | ⟨text, hd⟩ | ⟨n, hd⟩
  · rw [hd]
    obtain ⟨text, htext⟩ := hsummary
    exact ⟨_, htext, _, rfl⟩
  · rw [hd]
    obtain ⟨text, htext⟩ := hsummary
    exact ⟨_, htext, _, rfl⟩
  · rw [hd]
    exact ⟨_, rfl, _, rfl⟩
  · rw [hd]
    exact ⟨_, rfl, IsText.binds (.inr (.inr (.inr ⟨n, rfl⟩)))⟩

theorem isBadScrub_ok {p : Json} (h : p ≠ .null) : ∃ bad, isBadScrub p = .ok bad := by
  unfold isBadScrub
  rw [get_eq_ok h]
  exact ⟨_, rfl⟩

theorem badScrubs_ok {entries : List Json} (h : ∀ p ∈ entries, p ≠ .null) :
    ∃ bad, badScrubs entries = .ok bad := by
  have hloop : ∀ found, ∃ bad, entries.filterAuxM isBadScrub found = .ok bad := by
    induction entries with
    | nil => exact fun found => ⟨found, rfl⟩
    | cons p entries ih =>
        intro found
        obtain ⟨bad, hbad⟩ := isBadScrub_ok (h p (by simp))
        rw [List.filterAuxM, hbad]
        exact ih (fun q hq => h q (List.mem_cons_of_mem _ hq)) _
  obtain ⟨bad, hbad⟩ := hloop []
  unfold badScrubs List.filterM
  rw [hbad]
  exact ⟨_, rfl⟩

theorem scrubFits_of_typed {scrub : Value} (hstatus : StatusTyped node s)
    (hscrub : ∀ entries, scrub = some (.arr entries) → ∀ p ∈ entries, ScrubEntry p) :
    ScrubFits s node scrub := by
  intro entries hentries
  have hstored : ∃ prev, storedScrubs ((s.db.node node).bind fun n => n.scrubStatus.parse) =
      .ok prev ∧ ∀ p ∈ prev, p ≠ .null := by
    cases hj : (s.db.node node).bind fun n => n.scrubStatus.parse with
    | none => exact ⟨[], rfl, nofun⟩
    | some j =>
      obtain ⟨prev, rfl, hprev⟩ := hstatus j hj
      exact ⟨prev, rfl, hprev⟩
  obtain ⟨prev, hprev, hnotNull⟩ := hstored
  obtain ⟨prevBad, hprevBad⟩ := badScrubs_ok hnotNull
  refine ⟨prev, hprev, prevBad, hprevBad, fun p hp => ?_⟩
  have hentry := hscrub entries hentries p hp
  obtain ⟨bad, hbad⟩ := isBadScrub_ok hentry.object
  refine ⟨bad, hbad, fun _ _ => ⟨?_, hentry.detail_ok _⟩⟩
  obtain ⟨name, hname⟩ := hentry.pool
  have htext : IsText (Value.field "pool" p) := .inr (.inr (.inl ⟨name, hname⟩))
  exact htext.interpolate _

/-- A percentage of a quota that counts is a number. -/
theorem percentOf_ne_nan {used n : Number} (hused : used.isFinite = true)
    (hn : Value.truthy (some (.num n)) = true) : percentOf used n ≠ .nan := by
  rw [Value.truthy, Bool.and_eq_true, bne_iff_ne, bne_iff_ne] at hn
  unfold percentOf
  cases used with
  | inf b => cases hused
  | nan => cases hused
  | fin u =>
    cases n with
    | nan => exact absurd rfl hn.2
    | inf b =>
      intro h
      cases h
    | fin m =>
      have hm : m ≠ 0 := fun hm => hn.1 (by rw [hm])
      rw [Number.div, if_neg hm]
      intro h
      cases h

theorem IsQuota.fits {q : Value} (hq : IsQuota q) (htruthy : q.truthy = true) {used : Number}
    (hused : used.isFinite = true) (c : Conversions) :
    percentOf used (q.toNumber c) ≠ .nan ∧ ∃ text, fmtBytesOf c q = .ok text := by
  rcases hq with rfl | rfl | ⟨n, rfl⟩
  · cases htruthy
  · cases htruthy
  · exact ⟨percentOf_ne_nan hused htruthy, _, rfl⟩

theorem IsQuota.orElse {q q' : Value} (hq : IsQuota q) (hq' : IsQuota q') : IsQuota (q.orElse q') := by
  rcases hq with rfl | rfl | ⟨n, rfl⟩
  · exact hq'
  · exact hq'
  · exact .inr (.inr ⟨n, rfl⟩)

theorem isQuota_ofQuota (q : Option Int) : IsQuota (ofQuota q) := by
  cases q with
  | none => exact .inr (.inl rfl)
  | some q => exact .inr (.inr ⟨_, rfl⟩)

theorem isQuota_assigned (ref : Placement) (tier : String) {quota : Value} (h : IsQuota quota) :
    IsQuota (assignedUserQuota ref tier quota) := by
  unfold assignedUserQuota
  split
  · exact (h.orElse (isQuota_ofQuota _)).orElse (.inr (.inr ⟨_, rfl⟩))
  · split
    · exact (h.orElse (isQuota_ofQuota _)).orElse (isQuota_ofQuota _)
    · exact .inr (.inl rfl)

/-- A row of the declared types fits every state. -/
theorem sampleFits_of_typed {now : Nat} {ds : Json} (huser : NamesUser ds)
    (hquota : IsQuota (Value.field "quota_bytes" ds)) (s : Controller) : SampleFits s node now ds := by
  intro labName _ used _ _ hused ref _
  have hstudent : ∃ studentId, s.sampleStudentId ref.labId (Value.field "user" ds) = .ok studentId := by
    rcases huser with hnull | ⟨name, hname, huser⟩
    · rw [hnull]
      exact ⟨_, rfl⟩
    · rw [huser]
      unfold Controller.sampleStudentId
      rw [if_pos (by simpa [Value.truthy] using hname)]
      exact ⟨_, rfl⟩
  obtain ⟨studentId, hstudent⟩ := hstudent
  refine ⟨studentId, hstudent, fun _ _ => ⟨?_, fun sid _ htruthy => ?_, fun _ htruthy _ => ?_⟩⟩
  · rcases hquota with hq | hq | ⟨n, hq⟩
    · rw [hq]
      exact ⟨_, rfl⟩
    · rw [hq]
      exact ⟨_, rfl⟩
    · rw [hq]
      exact IsText.binds (.inr (.inr (.inr ⟨n, rfl⟩)))
  · have hfits := (isQuota_assigned ref _ hquota).fits htruthy hused s.host.conversions
    exact fun _ _ _ _ _ _ _ _ _ _ => hfits
  · have hfits := hquota.fits htruthy hused s.host.conversions
    exact fun _ _ _ _ => ⟨hfits.1, fun _ _ _ => hfits.2⟩

/-- A heartbeat of the declared types gets through its rows. -/
theorem lookedAt_of_typed {e : SamplingEvent} (hstatus : StatusTyped node s) (hrows : e.Rows)
    (htyped : e.Typed) : e.LookedAt node s := by
  cases e with
  | tick ms => trivial
  | prune caps => trivial
  | frame payload =>
    obtain ⟨hscrub, rows, hstorage, hquota⟩ := htyped
    have hnames := (hrows rows hstorage).1
    show Finishes (ingestReports node payload s.now >>= fun _ => _) s
    rw [hstorage]
    refine (finishes_seq _ _ _).mpr ⟨?_, ?_⟩
    · exact (finishes_ingestReports _ _ _ _).mpr (scrubFits_of_typed hstatus hscrub)
    · refine finishes_forM_mem (fun ds hds s' => ?_) _
      exact (finishes_ingestSample _ _ _ _).mpr
        (sampleFits_of_typed (hnames ds hds) (hquota ds hds) s')

/-- A node's row is written: its status stays typed where what is written is. -/
theorem keepsStatus_updateNode (name : String) (f : NodeRow → NodeRow) (h)
    (hf : ∀ r, (f r).scrubStatus = r.scrubStatus ∨
      ∃ entries, (f r).scrubStatus = .text (.arr entries) ∧ ∀ p ∈ entries, p ≠ .null) :
    Respects (Keeping (StatusTyped node)) (updateNode name f h) := by
  intro s hs j hj
  have hrow : ((updateNode name f h).run s).2.db.node node =
      (s.db.node node).map fun r => if r.name == name then f r else r :=
    node_update (fun n => n.name == name) f (keeps_node _ f h) (fun r => (h r).2) s node
  rw [hrow, Option.bind_map] at hj
  obtain ⟨n, hn, hj⟩ := Option.bind_eq_some_iff.mp hj
  have hold : n.scrubStatus.parse = some j → ∃ prev, j = .arr prev ∧ ∀ p ∈ prev, p ≠ .null :=
    fun hparse => hs j (Option.bind_eq_some_iff.mpr ⟨n, hn, hparse⟩)
  rw [Function.comp_apply] at hj
  split at hj
  · rcases hf n with hsame | ⟨entries, hentries, hnotNull⟩
    · rw [hsame] at hj
      exact hold hj
    · rw [hentries] at hj
      exact ⟨entries, (Option.some.inj hj).symm, hnotNull⟩
  · exact hold hj

theorem keepsStatus_lists (f : Db → Db) (h) :
    Respects (Keeping (StatusTyped node)) (Op.writeLists f h) := by
  intro s hs j hj
  have hnodes : (f s.db).node node = s.db.node node := by rw [Db.node, Db.node, (h s.db).1]
  exact hs j (hnodes ▸ hj)

/-- What a heartbeat writes apart from the scrub status leaves it as it is. -/
theorem keepsStatus_report : ReportWalk (Keeping (StatusTyped node)) where
  lists f h _ _ := keepsStatus_lists f h
  emit _ _ _ hs := hs
  alertState _ _ _ hs := hs
  updateNode name f h _ _ hf := keepsStatus_updateNode name f h fun r => .inl (hf r)
  updatePlacements _ _ _ _ _ _ _ hs := hs

theorem statusTyped_sample {e : SamplingEvent} (htyped : e.Typed) (h : StatusTyped node s) :
    StatusTyped node (sample node s e) := by
  cases e with
  | tick ms => exact h
  | prune caps => exact h
  | frame payload =>
    have hscrub := htyped.1
    have hframe : Respects (Keeping (StatusTyped node)) (ingestTelemetry node payload) := by
      unfold ingestTelemetry
      refine .bind (.read _) fun now => .bind ?_ fun _ =>
        .bind (walk_ingestColdStorage keepsStatus_report _ _) fun _ => .bind ?_ fun _ =>
        .bind (respects_lift _) fun _ => .bind (.forM _ fun ds _ => ?_) fun _ =>
        .bind (respects_lift _) fun _ =>
        .bind (.forM _ fun u _ => walk_ingestUsageScan keepsStatus_report _ _) fun _ => .atomically ?_
      · exact keepsStatus_updateNode _ _ _ fun _ => .inl rfl
      · refine walk_ingestScrub keepsStatus_report _ _ _ fun entries hentries _ => ?_
        refine keepsStatus_updateNode _ _ _ fun _ => .inr ⟨entries, rfl, fun p hp => ?_⟩
        exact (hscrub entries hentries p hp).object
      · exact walk_ingestSample keepsStatus_report (fun f h _ => keepsStatus_lists f h) (fun _ _ => keepsStatus_lists _ _) _ _ ds
      · exact .bind (keepsStatus_lists _ _) fun _ => .bind (respects_lift _) fun _ =>
          .forM _ fun p _ => walk_ingestGpuProcess keepsStatus_report _ _ p
    exact hframe s h

end

/-! ## Every run -/

/-- **Sampling stores every scan change and nothing too often.** In a run of heartbeats of one node,
with rows that name `null` or a user and are about one tier of one user of one lab each, of pruning
and of time passing: after every event the samples of a lab's pools, and samples that repeat a value,
are an interval apart; after a heartbeat whose rows were all looked at, the newest sample of what a
scan produced has the reported value; and if the heartbeats are of the declared types, that is
after every heartbeat. -/
theorem sampling_laws (node : String) {s : Controller} {es : List SamplingEvent}
    (hstart : Lawful s.now s.db.samples) (hrows : ∀ e ∈ es, e.Rows) :
    Run.Along (sample node) (fun s e =>
        Series.Spaced storageSampleMinIntervalMs SampleKey.scanned (sample node s e).db.samples ∧
          (e.LookedAt node s → UpToDate node s e)) s es ∧
      (StatusTyped node s → (∀ e ∈ es, e.Typed) → Run.Along (sample node) (UpToDate node) s es) := by
  induction es generalizing s with
  | nil => exact ⟨trivial, fun _ _ => trivial⟩
  | cons e es ih =>
      have he := hrows e (by simp)
      have hnext : Lawful (sample node s e).now (sample node s e).db.samples :=
        lawful_sample he hstart
      obtain ⟨hspaced, htyped⟩ := ih hnext fun e' he' => hrows e' (List.mem_cons_of_mem _ he')
      refine ⟨⟨⟨hnext.spaced, upToDate_of_lookedAt he⟩, hspaced⟩, fun hstatus hall => ⟨?_, ?_⟩⟩
      · exact upToDate_of_lookedAt he (lookedAt_of_typed hstatus he (hall e (by simp)))
      · refine htyped (statusTyped_sample (hall e (by simp)) hstatus) fun e' he' => ?_
        exact hall e' (List.mem_cons_of_mem _ he')

/-- A heartbeat with the size of the root file system of a lab. -/
def rootfsFrame (used : Number) : SamplingEvent :=
  .frame (.obj [("storage", .arr [.obj [("lab", .str "lab"), ("user", .null), ("tier", .str "rootfs"),
    ("used_bytes", .num used), ("quota_bytes", .null)]])])

/-- A size that changed within a second is stored; one that did not is not. -/
theorem sampling_laws_rootfs :
    let s := Run.run step (.init .plain) placedLab
    let es := [rootfsFrame 5, .tick 1000, rootfsFrame 7, .prune ⟨0, 0, 0⟩, rootfsFrame 7]
    Run.Along (sample "n") (UpToDate "n") s es ∧ (Run.run (sample "n") s es).db.samples =
      [⟨⟨1, none, "rootfs"⟩, 5, 0⟩, ⟨⟨1, none, "rootfs"⟩, 7, 1000⟩] := by
  have hrows : ∀ used, (rootfsFrame used).Rows := by
    rintro used rows ⟨⟩
    refine ⟨fun ds hds => ?_, List.pairwise_singleton _ _⟩
    obtain rfl := List.mem_singleton.mp hds
    exact .inl rfl
  have htyped : ∀ used, (rootfsFrame used).Typed := by
    refine fun used => ⟨nofun, _, rfl, fun ds hds => ?_⟩
    obtain rfl := List.mem_singleton.mp hds
    exact .inr (.inl rfl)
  refine ⟨(sampling_laws "n" Series.lawful_nil ?_).2 ?_ ?_, by decide +kernel⟩
  · intro e he
    simp only [List.mem_cons, List.not_mem_nil, or_false] at he
    rcases he with rfl | rfl | rfl | rfl | rfl
    exacts [hrows 5, trivial, hrows 7, trivial, hrows 7]
  · rintro j ⟨⟩
  · intro e he
    simp only [List.mem_cons, List.not_mem_nil, or_false] at he
    rcases he with rfl | rfl | rfl | rfl | rfl
    exacts [htyped 5, trivial, htyped 7, trivial, htyped 7]

end MassDeployment
