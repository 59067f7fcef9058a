import MassDeployment.Agent.Labquota

set_option autoImplicit false

/-! # Scans of the students' directories (`client.py`, `usagereport.py`, `labquota`)

A pass of the background loop looks at one lab after the other and scans those that are due, or that
a student asked for by touching a marker in his home. A scan takes its time, and removes the markers
at its end. The controller asks for scans too. One lock is held for a pass, and for a scan of the
controller's; time passes and students touch their markers at any moment.
-/

namespace MassDeployment.Agent

/-! ## Markers -/

/-- What `lstat` finds at the path of a marker. -/
inductive MarkerFile where
  /-- A regular file, with its time of modification in milliseconds. -/
  | regular (mtime : Int)
  | symlink
  | directory
  deriving DecidableEq

/-- The markers of the students of every lab. -/
abbrev Markers : Type := String → String → Option MarkerFile

def Markers.set (markers : Markers) (lab user : String) (m : Option MarkerFile) : Markers :=
  fun lab' user' => if lab' = lab ∧ user' = user then m else markers lab' user'

/-- The newest time of modification of a regular file among the markers of the users. -/
def newestRequest (markers : Markers) (lab : String) (users : List String) : Option Int :=
  users.foldl (fun newest user => match markers lab user with
    | some (.regular mtime) => if newest.all fun t => decide (t < mtime) then some mtime else newest
    | _ => newest) none

/-- `os.unlink`, where a failure is ignored: a directory stays. -/
def unlinkMarker (markers : Markers) (lab user : String) : Markers :=
  match markers lab user with
  | some .directory => markers
  | _ => markers.set lab user none

/-! ## When a scan is due -/

structure ScanConfig extends UsageConfig where
  usageScanIntervalS : Int

/-- `floor_ms`. -/
def floorMs : Int := 5 * 60 * 1000

def ScanConfig.intervalMs (cfg : ScanConfig) : Int := max 60 cfg.usageScanIntervalS * 1000

/-- Whether a pass that started at `now` scans a lab. -/
def scanDue (cfg : ScanConfig) (now : Nat) (cached : ContainerUsage) (requested : Option Int) :
    Bool :=
  let age : Option Int := cached.scannedAt.map fun t : Nat => (now : Int) - t
  let due := age.all fun a => decide (cfg.intervalMs ≤ a)
  let freshRequest := match requested with
    | some r => cached.scannedAt.all fun t => decide ((t : Int) < r)
    | none => false
  let forced := freshRequest && age.all fun a => decide (floorMs ≤ a)
  due || forced

/-! ## The agent -/

/-- Where a scan is: it has not read the clock yet, it measures, or its result is cached and the
markers of some users are still there. -/
inductive ScanPhase where
  | entering
  | measuring (scannedAt : Nat)
  | clearing (left : List String)
  deriving DecidableEq

/-- A run of `_scan_container_lab`. -/
structure Scan where
  lab : String
  users : List String
  phase : ScanPhase
  deriving DecidableEq

/-- A run of `_scan_due_container`: when it started, and the labs it has not looked at. -/
structure ScanPass where
  now : Nat
  labs : List String
  deriving DecidableEq

/-- Who holds `_container_lock`: a pass of the loop, or a scan the controller asked for. -/
structure ScanJob where
  pass : Option ScanPass
  scan : Option Scan
  deriving DecidableEq

structure Scanner where
  now : Nat
  usage : UsageState := {}
  markers : Markers
  job : Option ScanJob := none

/-- What can happen next; an event that cannot happen is ignored. -/
inductive ScanEvent where
  | elapse (ms : Nat)
  | touch (lab user : String) (m : MarkerFile)
  /-- The loop starts a pass, unless the lock is taken. -/
  | tick (r : Readings)
  /-- The pass looks at its next lab, which has these students, or ends. -/
  | look (users : List String)
  /-- The controller's scan gets the lock. -/
  | demand (lab : String) (users : List String)
  /-- `run_container_scan` reads the clock. -/
  | stamp
  /-- `run_container_scan` returns, and its result is cached. -/
  | measured (r : Readings)
  /-- `clear_requests` removes one marker, or is done. -/
  | clear
  /-- Something throws: the scan that runs, or else the pass. -/
  | fail

/-- The scan ends; the pass goes on, or the lock is released. -/
def ScanJob.endScan (job : ScanJob) : Option ScanJob :=
  job.pass.map fun pass => ⟨some pass, none⟩

/-- A pass looks at a lab. -/
def Scanner.look (cfg : ScanConfig) (s : Scanner) (pass : ScanPass) (users : List String) :
    Option ScanJob :=
  match pass.labs with
  | [] => none
  | lab :: labs =>
    let cached := s.usage.containerFor lab
    let requested := newestRequest s.markers lab users
    if scanDue cfg pass.now cached requested then
      some ⟨some ⟨pass.now, labs⟩, some ⟨lab, users, .entering⟩⟩
    else some ⟨some ⟨pass.now, labs⟩, none⟩

def Scanner.step (cfg : ScanConfig) (s : Scanner) (e : ScanEvent) : Scanner :=
  match e, s.job with
  | .elapse ms, _ => { s with now := s.now + ms }
  | .touch lab user m, _ => { s with markers := s.markers.set lab user (some m) }
  | .tick r, none =>
    { s with job := some ⟨some ⟨s.now, (collectZfsUsage cfg.toUsageConfig r).map Prod.fst⟩, none⟩ }
  | .look users, some ⟨some pass, none⟩ => { s with job := s.look cfg pass users }
  | .demand lab users, none => { s with job := some ⟨none, some ⟨lab, users, .entering⟩⟩ }
  | .stamp, some ⟨pass, some ⟨lab, users, .entering⟩⟩ =>
    { s with job := some ⟨pass, some ⟨lab, users, .measuring s.now⟩⟩ }
  | .measured r, some ⟨pass, some ⟨lab, users, .measuring scannedAt⟩⟩ =>
    { s with
      usage := { s.usage with
        container := s.usage.container.set lab (runContainerScan r lab users scannedAt) }
      job := some ⟨pass, some ⟨lab, users, .clearing users⟩⟩ }
  | .clear, some ⟨pass, some ⟨lab, users, .clearing (user :: left)⟩⟩ =>
    { s with
      markers := unlinkMarker s.markers lab user
      job := some ⟨pass, some ⟨lab, users, .clearing left⟩⟩ }
  | .clear, some ⟨pass, some ⟨_, _, .clearing []⟩⟩ => { s with job := ScanJob.endScan ⟨pass, none⟩ }
  | .fail, some ⟨pass, some _⟩ => { s with job := ScanJob.endScan ⟨pass, none⟩ }
  | .fail, some ⟨some _, none⟩ => { s with job := none }
  | _, _ => s

/-- An agent that has just started. -/
def Scanner.start (now : Nat) (markers : Markers) : Scanner := { now, markers }

/-! ## Spacing -/

/-- The result of a scan of the lab is cached, with the time at which the scan started. -/
def Scanner.Caches (s : Scanner) (e : ScanEvent) (lab : String) (scannedAt : Nat) : Prop :=
  ∃ r pass users, e = .measured r ∧ s.job = some ⟨pass, some ⟨lab, users, .measuring scannedAt⟩⟩

/-- A pass begins a scan of the lab. -/
def Scanner.Begins (cfg : ScanConfig) (s : Scanner) (e : ScanEvent) (lab : String) : Prop :=
  ∃ users pass labs, e = .look users ∧ s.job = some ⟨some pass, none⟩ ∧ pass.labs = lab :: labs ∧
    scanDue cfg pass.now (s.usage.containerFor lab) (newestRequest s.markers lab users) = true

/-- A scan of the lab that runs has started at the time or after it. -/
def Scan.StartedSince (scan : Scan) (lab : String) (t : Nat) : Prop :=
  ∀ scannedAt, scan.lab = lab → scan.phase = .measuring scannedAt → t ≤ scannedAt

/-- A scan of the lab that started at the time, or a later one, is cached; one that runs is later,
too. The pass is not ahead of the clock. -/
structure Scanner.ScannedSince (lab : String) (t : Nat) (s : Scanner) : Prop where
  past : t ≤ s.now
  cached : ∃ t', (s.usage.containerFor lab).scannedAt = some t' ∧ t ≤ t'
  running : ∀ job scan, s.job = some job → job.scan = some scan → scan.StartedSince lab t

/-- The pass started before now. -/
def Scanner.OnTime (s : Scanner) : Prop :=
  ∀ job pass, s.job = some job → job.pass = some pass → pass.now ≤ s.now

theorem runContainerScan_scannedAt (r : Readings) (lab : String) (users : List String) (now : Nat) :
    (runContainerScan r lab users now).scannedAt = some now := by
  unfold runContainerScan
  split <;> rfl

section

variable {cfg : ScanConfig} {s : Scanner} {lab : String} {t : Nat}

theorem containerFor_set (usage : UsageState) (lab' : String) (u : ContainerUsage) :
    UsageState.containerFor { usage with container := usage.container.set lab' u } lab =
      if lab = lab' then u else usage.containerFor lab := by
  unfold UsageState.containerFor
  rw [Dict.lookup_set]
  split <;> rfl

/-- What a pass does to a lab: it begins a scan, or goes on. -/
theorem look_cases (pass : ScanPass) (users : List String) {job : ScanJob}
    (h : s.look cfg pass users = some job) : ∃ labs, job.pass = some ⟨pass.now, labs⟩ ∧
      (job.scan = none ∨
        ∃ lab, job.scan = some ⟨lab, users, .entering⟩ ∧ pass.labs = lab :: labs) := by
  unfold Scanner.look at h
  split at h
  · cases h
  · rename_i lab labs heq
    dsimp only at h
    split at h
    · cases h
      exact ⟨labs, rfl, .inr ⟨lab, rfl, heq⟩⟩
    · cases h
      exact ⟨labs, rfl, .inl rfl⟩

theorem endScan_scan {pass : Option ScanPass} {job : ScanJob}
    (h : ScanJob.endScan ⟨pass, none⟩ = some job) : job.scan = none ∧ job.pass = pass := by
  cases pass with
  | none => cases h
  | some pass =>
    cases h
    exact ⟨rfl, rfl⟩

theorem onTime_step (hs : s.OnTime) (e : ScanEvent) : (s.step cfg e).OnTime := by
  intro job pass hjob hpass
  revert hjob
  fun_cases Scanner.step cfg s e <;> intro hjob
  case case1 ms => exact (hs job pass hjob hpass).trans (Nat.le_add_right _ _)
  case case2 => exact hs job pass hjob hpass
  case case3 =>
    cases hjob
    cases hpass
    exact le_rfl
  case case4 pass' h =>
    obtain ⟨labs, hlooked, -⟩ := look_cases pass' _ hjob
    obtain rfl := Option.some.inj (hlooked.symm.trans hpass)
    exact hs _ pass' h rfl
  case case5 =>
    cases hjob
    cases hpass
  case case6 | case7 | case8 =>
    rename_i h
    cases hjob
    exact hs _ pass h hpass
  case case9 | case10 =>
    rename_i h
    rw [(endScan_scan hjob).2] at hpass
    exact hs _ pass h hpass
  case case11 => cases hjob
  case case12 => exact hs job pass hjob hpass

/-- **Step lemma.** A scan of the lab since the time stays known. -/
theorem scannedSince_step (hs : s.ScannedSince lab t) (e : ScanEvent) :
    (s.step cfg e).ScannedSince lab t := by
  fun_cases Scanner.step cfg s e
  case case1 ms => exact ⟨hs.past.trans (Nat.le_add_right _ _), hs.cached, hs.running⟩
  case case2 => exact ⟨hs.past, hs.cached, hs.running⟩
  case case3 =>
    refine ⟨hs.past, hs.cached, fun job scan hjob hscan => ?_⟩
    cases hjob
    cases hscan
  case case4 pass h =>
    refine ⟨hs.past, hs.cached, fun job scan hjob hscan => ?_⟩
    obtain ⟨-, -, hnone | ⟨lab', hentering, -⟩⟩ := look_cases pass _ hjob
    · rw [hnone] at hscan
      cases hscan
    · obtain rfl := Option.some.inj (hentering.symm.trans hscan)
      exact nofun
  case case5 =>
    refine ⟨hs.past, hs.cached, fun job scan hjob hscan => ?_⟩
    cases hjob
    cases hscan
    exact nofun
  case case6 =>
    refine ⟨hs.past, hs.cached, fun job scan hjob hscan => ?_⟩
    cases hjob
    cases hscan
    rintro scannedAt - ⟨⟩
    exact hs.past
  case case7 r pass lab' users scannedAt h =>
    refine ⟨hs.past, ?_, fun job scan hjob hscan => ?_⟩
    · show ∃ t', (UsageState.containerFor _ lab).scannedAt = some t' ∧ t ≤ t'
      rw [containerFor_set]
      split
      · rename_i hlab
        exact ⟨scannedAt, runContainerScan_scannedAt _ _ _ _, hs.running _ _ h rfl _ hlab.symm rfl⟩
      · exact hs.cached
    · cases hjob
      cases hscan
      exact nofun
  case case8 =>
    refine ⟨hs.past, hs.cached, fun job scan hjob hscan => ?_⟩
    cases hjob
    cases hscan
    exact nofun
  case case9 | case10 =>
    refine ⟨hs.past, hs.cached, fun job scan hjob hscan => ?_⟩
    rw [(endScan_scan hjob).1] at hscan
    cases hscan
  case case11 => exact ⟨hs.past, hs.cached, nofun⟩
  case case12 => exact hs

/-- A scan that measures started before now. -/
def Scanner.Started (s : Scanner) : Prop :=
  ∀ job lab users scannedAt, s.job = some job → job.scan = some ⟨lab, users, .measuring scannedAt⟩ →
    scannedAt ≤ s.now

theorem started_step (hs : s.Started) (e : ScanEvent) : (s.step cfg e).Started := by
  intro job lab users scannedAt hjob hscan
  revert hjob
  fun_cases Scanner.step cfg s e <;> intro hjob
  case case1 ms => exact (hs job _ _ _ hjob hscan).trans (Nat.le_add_right _ _)
  case case2 => exact hs job _ _ _ hjob hscan
  case case3 | case5 | case7 | case8 =>
    cases hjob
    cases hscan
  case case4 pass h =>
    obtain ⟨-, -, hnone | ⟨lab', hentering, -⟩⟩ := look_cases pass _ hjob
    · rw [hnone] at hscan
      cases hscan
    · cases hentering.symm.trans hscan
  case case6 =>
    cases hjob
    cases hscan
    exact le_rfl
  case case9 | case10 =>
    rw [(endScan_scan hjob).1] at hscan
    cases hscan
  case case11 => cases hjob
  case case12 => exact hs job _ _ _ hjob hscan

/-- The result that was cached is known. -/
theorem scannedSince_caches (hs : s.Started) {e : ScanEvent} (h : s.Caches e lab t) :
    (s.step cfg e).ScannedSince lab t := by
  obtain ⟨r, pass, users, rfl, hjob⟩ := h
  have hstep : s.step cfg (.measured r) = { s with
      usage := { s.usage with
        container := s.usage.container.set lab (runContainerScan r lab users t) }
      job := some ⟨pass, some ⟨lab, users, .clearing users⟩⟩ } := by
    unfold Scanner.step
    rw [hjob]
  rw [hstep]
  refine ⟨hs _ _ _ _ hjob rfl, ⟨t, ?_, le_rfl⟩, fun job scan hjob hscan => ?_⟩
  · show (UsageState.containerFor _ lab).scannedAt = some t
    rw [containerFor_set, if_pos rfl]
    exact runContainerScan_scannedAt _ _ _ _
  · cases hjob
    cases hscan
    exact nofun

/-- What passes between two scans of a lab by passes. -/
def ScanConfig.gapMs (cfg : ScanConfig) : Int := min floorMs cfg.intervalMs

theorem gap_of_begins (hs : s.ScannedSince lab t) (htime : s.OnTime) {e : ScanEvent}
    (h : s.Begins cfg e lab) : t + cfg.gapMs ≤ s.now := by
  obtain ⟨users, pass, labs, rfl, hjob, -, hdue⟩ := h
  obtain ⟨t', hcached, hle⟩ := hs.cached
  have hpass : pass.now ≤ s.now := htime _ pass hjob rfl
  have hage : cfg.gapMs ≤ (pass.now : Int) - t' := by
    unfold scanDue at hdue
    rw [hcached] at hdue
    simp only [Option.map_some, Option.all_some, Bool.or_eq_true, Bool.and_eq_true,
      decide_eq_true_eq] at hdue
    rcases hdue with hdue | ⟨-, hdue⟩
    · exact (min_le_right _ _).trans hdue
    · exact (min_le_left _ _).trans hdue
  omega

end

/-! ## Requests -/

/-- The users whose markers a scan will remove, once it has started. -/
def Scan.pending (scan : Scan) : List String :=
  match scan.phase with
  | .entering => []
  | .measuring _ => scan.users
  | .clearing left => left

/-- A scan of the lab has started and has not removed the user's marker yet. -/
def Scanner.Spans (s : Scanner) (lab user : String) : Prop :=
  ∃ job scan, s.job = some job ∧ job.scan = some scan ∧ scan.lab = lab ∧ user ∈ scan.pending

/-- A scan of the lab and the user starts. -/
def Scanner.Starts (s : Scanner) (lab user : String) : Prop :=
  ∃ pass users, s.job = some ⟨pass, some ⟨lab, users, .entering⟩⟩ ∧ user ∈ users

/-- The user's marker is there, and no scan is about to remove it. -/
structure Scanner.Asked (lab user : String) (s : Scanner) : Prop where
  marker : (s.markers lab user).isSome = true
  free : ¬ s.Spans lab user

section

variable {cfg : ScanConfig} {s : Scanner} {lab user : String}

theorem not_spans {job : Option ScanJob} (hjob : s.job = job)
    (h : ∀ j scan, job = some j → j.scan = some scan → scan.lab = lab → user ∉ scan.pending) :
    ¬ s.Spans lab user := by
  rintro ⟨j, scan, hj, hscan, hlab, huser⟩
  exact h j scan (hjob.symm.trans hj) hscan hlab huser

theorem isSome_set {markers : Markers} {lab' user' : String} {m : MarkerFile}
    (h : (markers lab user).isSome = true) :
    (markers.set lab' user' (some m) lab user).isSome = true := by
  unfold Markers.set
  split
  · rfl
  · exact h

/-- The markers of others are not touched. -/
theorem unlinkMarker_other {markers : Markers} {lab' user' : String}
    (h : ¬ (lab = lab' ∧ user = user')) :
    unlinkMarker markers lab' user' lab user = markers lab user := by
  have hset : markers.set lab' user' none lab user = markers lab user := if_neg h
  unfold unlinkMarker
  generalize markers lab' user' = found
  match found with
  | some .directory => rfl
  | some .symlink | some (.regular _) | none => exact hset

/-- **Step lemma.** The marker stays, unless a scan of the lab and the user starts. -/
theorem asked_step (hs : s.Asked lab user) (e : ScanEvent) :
    (s.step cfg e).Asked lab user ∨ (e = .stamp ∧ s.Starts lab user) := by
  fun_cases Scanner.step cfg s e
  case case1 => exact .inl ⟨hs.marker, hs.free⟩
  case case2 => exact .inl ⟨isSome_set hs.marker, hs.free⟩
  case case3 | case5 =>
    refine .inl ⟨hs.marker, not_spans rfl fun j scan hj hscan => ?_⟩
    cases hj
    cases hscan
    try exact fun _ => List.not_mem_nil
  case case4 pass h =>
    refine .inl ⟨hs.marker, not_spans rfl fun j scan hj hscan => ?_⟩
    obtain ⟨-, -, hnone | ⟨lab', hentering, -⟩⟩ := look_cases pass _ hj
    · rw [hnone] at hscan
      cases hscan
    · obtain rfl := Option.some.inj (hentering.symm.trans hscan)
      exact fun _ => List.not_mem_nil
  case case6 pass lab' users h =>
    by_cases hstarts : lab' = lab ∧ user ∈ users
    · obtain ⟨rfl, huser⟩ := hstarts
      exact .inr ⟨rfl, pass, users, h, huser⟩
    · refine .inl ⟨hs.marker, not_spans rfl fun j scan hj hscan hlab huser => ?_⟩
      cases hj
      cases hscan
      exact hstarts ⟨hlab, huser⟩
  case case7 r pass lab' users scannedAt h =>
    -- the markers a scan removes are those of the users it measured
    refine .inl ⟨hs.marker, not_spans rfl fun j scan hj hscan hlab huser => ?_⟩
    cases hj
    cases hscan
    exact hs.free ⟨_, _, h, rfl, hlab, huser⟩
  case case8 pass lab' users user' left h =>
    have hother : ¬ (lab = lab' ∧ user = user') := fun hsame =>
      hs.free ⟨_, _, h, rfl, hsame.1.symm, by rw [hsame.2]; exact List.mem_cons_self⟩
    refine .inl ⟨?_, not_spans rfl fun j scan hj hscan hlab huser => ?_⟩
    · show (unlinkMarker s.markers lab' user' lab user).isSome = true
      rw [unlinkMarker_other hother]
      exact hs.marker
    · cases hj
      cases hscan
      exact hs.free ⟨_, _, h, rfl, hlab, List.mem_cons_of_mem _ huser⟩
  case case9 | case10 =>
    refine .inl ⟨hs.marker, not_spans rfl fun j scan hj hscan => ?_⟩
    rw [(endScan_scan hj).1] at hscan
    cases hscan
  case case11 => exact .inl ⟨hs.marker, not_spans rfl nofun⟩
  case case12 => exact .inl hs

/-- **Run lemma.** -/
theorem asked_run (hs : s.Asked lab user) (es : List ScanEvent) :
    (Run.run (Scanner.step cfg) s es).Asked lab user ∨ ∃ before after,
      es = before ++ .stamp :: after ∧ (Run.run (Scanner.step cfg) s before).Starts lab user := by
  induction es generalizing s with
  | nil => exact .inl hs
  | cons e es ih =>
    rcases (asked_step hs e : (s.step cfg e).Asked lab user ∨ _) with hasked | ⟨rfl, hstarts⟩
    · rcases ih hasked with hend | ⟨before, after, rfl, hstarts⟩
      · exact .inl hend
      · exact .inr ⟨e :: before, after, rfl, hstarts⟩
    · exact .inr ⟨[], es, rfl, hstarts⟩

end

/-! ## Every run -/

/-- **Scans are rate-limited, and requests that no scan is about to remove are not lost.** In every
run: a pass begins a scan of a lab not before five minutes, or the interval of the configuration if
that is shorter, have passed since the scan whose result is cached started; and a marker that is
touched while no scan that has started is still to remove it is there, or a scan of the lab and its
student has started since. -/
theorem scan_requests (cfg : ScanConfig) (now : Nat) (markers : Markers) :
    let after := fun es => Run.run (Scanner.step cfg) (.start now markers) es
    (∀ pre e mid e' lab scannedAt, (after pre).Caches e lab scannedAt →
      (after (pre ++ e :: mid)).Begins cfg e' lab →
        scannedAt + min floorMs cfg.intervalMs ≤ (after (pre ++ e :: mid)).now) ∧
    ∀ pre lab user m mid, ¬ (after pre).Spans lab user →
      ((after (pre ++ .touch lab user m :: mid)).markers lab user).isSome = true ∨
        ∃ before rest, mid = before ++ .stamp :: rest ∧
          (after (pre ++ .touch lab user m :: before)).Starts lab user := by
  intro after
  have hstarted : ∀ es, (after es).OnTime ∧ (after es).Started := fun es =>
    Run.invariant_all (I := fun s : Scanner => s.OnTime ∧ s.Started)
      (fun s e hs => ⟨onTime_step hs.1 e, started_step hs.2 e⟩)
      ⟨(fun _ _ hjob => nomatch hjob), (fun _ _ _ _ hjob => nomatch hjob)⟩
  have hsplit : ∀ pre e mid, after (pre ++ e :: mid) =
      Run.run (Scanner.step cfg) ((after pre).step cfg e) mid := by
    intro pre e mid
    show Run.run _ _ _ = _
    rw [Run.run_append, Run.run_cons]
  constructor
  · intro pre e mid e' lab scannedAt hcaches hbegins
    refine gap_of_begins ?_ (hstarted _).1 hbegins
    rw [hsplit]
    exact Run.invariant_all (I := Scanner.ScannedSince lab scannedAt)
      (fun s e hs => scannedSince_step hs e) (scannedSince_caches (hstarted pre).2 hcaches)
  · intro pre lab user m mid hfree
    have hasked : Scanner.Asked lab user ((after pre).step cfg (.touch lab user m)) := by
      refine ⟨?_, hfree⟩
      show ((after pre).markers.set lab user (some m) lab user).isSome = true
      unfold Markers.set
      rw [if_pos ⟨rfl, rfl⟩]
      rfl
    rcases asked_run hasked mid with hend | ⟨before, rest, hmid, hstarts⟩
    · refine .inl ?_
      rw [hsplit]
      exact hend.marker
    · refine .inr ⟨before, rest, hmid, ?_⟩
      rw [hsplit]
      exact hstarts

/-- The ZFS tree of a single lab, without a container. -/
def oneLab : Readings where
  fastRows := [{ dataset := "tank/labs/vision", usedBytes := 0, quotaBytes := none,
                 availableBytes := none }]
  slowRows := []
  containerExists := fun _ => false
  writableLayer := fun _ => none
  rootfsQuota := fun _ => none
  duHome := fun _ _ => none
  duCold := fun _ _ => none

/-- A node where the scans are a minute apart. -/
def everyMinute : ScanConfig where
  labsFastRoot := "tank/labs"
  labsSlowRoot := "cold/labs"
  slowIsZfs := true
  usageScanIntervalS := 60

/-- The loop scans the lab, in which `ada` is, at time 0. -/
def scanVision : List ScanEvent := [.tick oneLab, .look ["ada"], .stamp]

/-- The scan ends, and so does its pass; the next starts a minute later. -/
def nextMinute : List ScanEvent := [.clear, .clear, .look [], .elapse 60000, .tick oneLab]

/-- Two scans of a lab can be a minute apart. And a scan that has started removes the marker that is
touched after that: its result is older than the request, but the marker is gone and no other scan
starts. -/
theorem scan_early_request_lost :
    let after := Run.run (Scanner.step everyMinute) (.start 0 fun _ _ => none)
    ((after scanVision).Caches (.measured oneLab) "vision" 0 ∧
      let later := after (scanVision ++ .measured oneLab :: nextMinute)
      later.Begins everyMinute (.look []) "vision" ∧ (later.now : Int) < 0 + floorMs) ∧
    let asked := scanVision ++ [.elapse 1000, .touch "vision" "ada" (.regular 1000)]
    let ended := after (asked ++ [.measured oneLab, .clear, .clear])
    (after (scanVision ++ [.elapse 1000])).now = 1000 ∧
      (ended.usage.containerFor "vision").scannedAt = some 0 ∧
      ended.markers "vision" "ada" = none := by
  refine ⟨⟨⟨oneLab, some ⟨0, []⟩, ["ada"], rfl, ?_⟩,
    ⟨[], ⟨60000, ["vision"]⟩, [], rfl, ?_, rfl, ?_⟩, ?_⟩, ?_, ?_, ?_⟩ <;> decide +kernel

end MassDeployment.Agent
