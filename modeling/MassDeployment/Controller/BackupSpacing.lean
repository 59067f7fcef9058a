import MassDeployment.Controller.BackupSchedule

set_option autoImplicit false

/-! # The distance between two backups

The scheduler rebuilds its grid from the anchor of the current day. Where the interval divides a
day, the grids of all days are one grid, and two runs are triggered by different instants of it.
Where it does not, the grid jumps at midnight, and a backup follows the last one of the day before
too soon.
-/

namespace MassDeployment

/-- A zone `offset` seconds ahead of UTC all year round. -/
def fixedZone (offset : Int) (t : ℚ) : WallClock :=
  let sec := ⌊t / 1000⌋ + offset
  { date := Calendar.dateOf (sec / 86400)
    hour := sec % 86400 / 3600
    minute := sec % 3600 / 60
    second := sec % 60 }

/-- The calendar day in such a zone. -/
def localDay (offset : Int) (now : ℚ) : Int := (⌊now / 1000⌋ + offset) / 86400

/-- The slots that trigger the runs of some ticks; a due backup is run and recorded at its tick. -/
def triggers (zones : Zones) : BackupSettings → List ℚ → List ℚ
  | _, [] => []
  | s, now :: rest =>
    if backupDue zones s now then
      (slotAfter zones s s.backupLastRun now).toList ++ triggers zones (recordRun s now) rest
    else triggers zones s rest

/-- The ticks of the maintenance timer. -/
def hourlyTicks (start : ℚ) (n : Nat) : List ℚ := (List.range n).map fun i : ℕ => start + i * 3600000

/-! ## The grids of the days -/

theorem tzOffsetMs_fixed (offset n : Int) :
    tzOffsetMs (fixedZone offset) ((n * 1000 : Int) : ℚ) = offset * 1000 := by
  have hfloor : ⌊((n * 1000 : Int) : ℚ) / 1000⌋ = n := by
    push_cast
    rw [mul_div_cancel_right₀ _ (by norm_num : (1000 : ℚ) ≠ 0), Int.floor_intCast]
  have hutc : dateUTC (fixedZone offset ((n * 1000 : Int) : ℚ)).date
      (fixedZone offset ((n * 1000 : Int) : ℚ)).hour (fixedZone offset ((n * 1000 : Int) : ℚ)).minute
      (fixedZone offset ((n * 1000 : Int) : ℚ)).second = (n + offset) * 1000 := by
    simp only [fixedZone, hfloor, dateUTC, Calendar.toDay_dateOf]
    omega
  unfold tzOffsetMs
  dsimp only
  rw [hutc]
  push_cast
  ring

theorem wallClockToUtc_fixed (offset d hour minute : Int) :
    wallClockToUtc (Calendar.dateOf d) hour minute (fixedZone offset) =
      (((d * 24 + hour) * 60 + minute) * 60 - offset : Int) * 1000 := by
  have hutc : dateUTC (Calendar.dateOf d) hour minute 0 =
      (((d * 24 + hour) * 60 + minute) * 60) * 1000 := by
    rw [dateUTC, Calendar.toDay_dateOf, add_zero]
  have hsub : ((((d * 24 + hour) * 60 + minute) * 60 * 1000 : Int) : ℚ) - offset * 1000 =
      (((((d * 24 + hour) * 60 + minute) * 60 - offset) * 1000 : Int) : ℚ) := by
    push_cast
    ring
  unfold wallClockToUtc
  dsimp only
  rw [hutc, tzOffsetMs_fixed, hsub, tzOffsetMs_fixed]
  push_cast
  ring

/-- The anchor of a day. -/
def anchorOf (s : BackupSettings) (offset d : Int) : ℚ :=
  (((d * 24 + s.backupAnchorHour) * 60 + s.backupAnchorMinute) * 60 - offset : Int) * 1000

theorem anchorOf_sub (s : BackupSettings) (offset d d' : Int) :
    anchorOf s offset d' = anchorOf s offset d + (d' - d : Int) * (24 * 3600 * 1000) := by
  unfold anchorOf
  push_cast
  ring

variable {zones : Zones} {s : BackupSettings} {offset : Int}

theorem backupGrid_fixed {now : ℚ} {g : Grid} (hzone : zones s.backupTimezone = some (fixedZone offset))
    (h : backupGrid zones s now = some g) : g.anchor = anchorOf s offset (localDay offset now) := by
  unfold backupGrid at h
  split at h
  · cases h
  · split at h
    · rw [hzone] at h
      obtain rfl := Option.some.inj h
      exact wallClockToUtc_fixed _ _ _ _
    · cases h

/-- A tick triggers at most one run, by a slot behind the last one that has arrived. -/
theorem triggers_cons (zones : Zones) (s : BackupSettings) (now : ℚ) (rest : List ℚ) :
    (triggers zones s (now :: rest) = triggers zones s rest) ∨
      ∃ g, backupGrid zones s now = some g ∧ g.slotAfter s.backupLastRun ≤ now ∧
        triggers zones s (now :: rest) =
          g.slotAfter s.backupLastRun :: triggers zones (recordRun s now) rest := by
  cases hgrid : backupGrid zones s now with
  | none =>
      refine .inl ?_
      simp [triggers, backupDue, slotAfter, hgrid]
  | some g =>
      by_cases hdue : g.slotAfter s.backupLastRun ≤ now
      · refine .inr ⟨g, rfl, hdue, ?_⟩
        simp [triggers, backupDue, slotAfter, hgrid, hdue]
      · refine .inl ?_
        simp [triggers, backupDue, slotAfter, hgrid, hdue]

/-! ## Intervals that divide a day -/

/-- The instant lies on the grid of every day. -/
def Aligned (s : BackupSettings) (offset : Int) (t : ℚ) : Prop :=
  ∃ k : ℤ, t = anchorOf s offset 0 + k * (s.backupIntervalHours * 3600 * 1000)

/-- **The grids of all days are one grid.** -/
theorem aligned_slotAfter {h : ℕ} (hours : s.backupIntervalHours = h) (hdvd : h ∣ 24)
    (hzone : zones s.backupTimezone = some (fixedZone offset)) {now : ℚ} {g : Grid}
    (hgrid : backupGrid zones s now = some g) (ref : ℚ) : Aligned s offset (g.slotAfter ref) := by
  obtain ⟨m, hm⟩ := hdvd
  obtain ⟨k, hk⟩ := Grid.slotAfter_on (g := g) ref
  have hday : (24 : ℚ) = h * m := by exact_mod_cast hm
  have hinterval := backupGrid_interval hgrid
  rw [hk, backupGrid_fixed hzone hgrid, anchorOf_sub s offset 0, hinterval, hours, hday]
  refine ⟨localDay offset now * m + k, ?_⟩
  rw [hours]
  push_cast
  ring

/-- Two instants of one grid are an interval apart. -/
theorem aligned_gap {t t' : ℚ} (ht : Aligned s offset t) (ht' : Aligned s offset t')
    (hpos : 0 < s.backupIntervalHours) (hlt : t < t') :
    t + s.backupIntervalHours * 3600 * 1000 ≤ t' :=
  Grid.on_gap (g := ⟨anchorOf s offset 0, s.backupIntervalHours * 3600 * 1000, by positivity⟩)
    ht ht' hlt

/-- Behind a slot that has arrived the next ones are an interval apart. -/
theorem spaced_from {h : ℕ} (hdvd : h ∣ 24) (ticks : List ℚ) {s : BackupSettings}
    (hours : s.backupIntervalHours = h)
    (hzone : zones s.backupTimezone = some (fixedZone offset)) {slot : ℚ}
    (hslot : Aligned s offset slot) (hle : slot ≤ s.backupLastRun) :
    (slot :: triggers zones s ticks).IsChain fun a b =>
      a + s.backupIntervalHours * 3600 * 1000 ≤ b := by
  induction ticks generalizing s slot with
  | nil => exact .singleton _
  | cons now rest ih =>
      rcases triggers_cons zones s now rest with hskip | ⟨g, hgrid, hdue, hfire⟩
      · rw [hskip]
        exact ih hours hzone hslot hle
      · have hnext := aligned_slotAfter hours hdvd hzone hgrid s.backupLastRun
        have hpos : 0 < s.backupIntervalHours := by
          have hinterval := backupGrid_interval hgrid ▸ g.positive
          linarith
        have hlt := hle.trans_lt (Grid.lt_slotAfter (g := g) s.backupLastRun)
        rw [hfire]
        refine .cons_cons (aligned_gap hslot hnext hpos hlt) ?_
        exact ih (s := recordRun s now) hours hzone hnext hdue

/-- **An interval that divides a day is kept**, whenever the ticks come. -/
theorem spaced_of_dvd {h : ℕ} (hdvd : h ∣ 24) (ticks : List ℚ) {s : BackupSettings}
    (hours : s.backupIntervalHours = h)
    (hzone : zones s.backupTimezone = some (fixedZone offset)) :
    (triggers zones s ticks).IsChain fun a b => a + s.backupIntervalHours * 3600 * 1000 ≤ b := by
  induction ticks generalizing s with
  | nil => exact .nil
  | cons now rest ih =>
      rcases triggers_cons zones s now rest with hskip | ⟨g, hgrid, hdue, hfire⟩
      · rw [hskip]
        exact ih hours hzone
      · rw [hfire]
        exact spaced_from (s := recordRun s now) hdvd rest hours hzone
          (aligned_slotAfter hours hdvd hzone hgrid _) hdue

/-! ## Intervals that do not -/

/-- Backups every `h` hours from midnight UTC. -/
def everyHours (h : ℕ) (lastRun : ℚ) : BackupSettings :=
  { backupEnabled := true, backupIntervalHours := h, backupAnchorHour := 0, backupAnchorMinute := 0,
    backupTimezone := "UTC", backupLastRun := lastRun }

/-- The platform in UTC. -/
def onlyUTC : Zones := fun _ => some (fixedZone 0)

/-- Ticks that trigger nothing leave the schedule as it is. -/
theorem triggers_idle {s : BackupSettings} (rest : List ℚ) : ∀ idle : List ℚ,
    (∀ now ∈ idle, backupDue zones s now = false) →
    triggers zones s (idle ++ rest) = triggers zones s rest := by
  intro idle hidle
  induction idle with
  | nil => rfl
  | cons now idle ih =>
      have hnow := hidle now (List.mem_cons_self ..)
      rw [List.cons_append, triggers, hnow, if_neg Bool.false_ne_true]
      exact ih fun t ht => hidle t (List.mem_cons_of_mem _ ht)

theorem localDay_hours (n : ℕ) : localDay 0 (n * 3600000) = n / 24 := by
  have hsec : ((n : ℚ) * 3600000) / 1000 = ((n * 3600 : ℤ) : ℚ) := by
    push_cast
    ring
  rw [localDay, hsec, Int.floor_intCast]
  omega

/-- The grid of a full hour. -/
theorem everyHours_grid {h : ℕ} (hpos : 0 < h) (lastRun : ℚ) (n : ℕ) :
    ∃ g, backupGrid onlyUTC (everyHours h lastRun) (n * 3600000) = some g ∧
      g.anchor = (n / 24 * 24 : ℕ) * 3600000 ∧ g.intervalMs = h * 3600000 := by
  have hcast : (0 : ℚ) < h := by exact_mod_cast hpos
  have hsome : ∃ g, backupGrid onlyUTC (everyHours h lastRun) (n * 3600000) = some g := by
    simp [backupGrid, everyHours, onlyUTC, hcast]
  obtain ⟨g, hg⟩ := hsome
  refine ⟨g, hg, ?_, ?_⟩
  · have hanchor := backupGrid_fixed (show onlyUTC _ = some (fixedZone 0) from rfl) hg
    rw [localDay_hours] at hanchor
    have hday : ((n : ℤ) / 24 : ℤ) = (n / 24 : ℕ) := rfl
    rw [hanchor, anchorOf, hday]
    simp only [everyHours]
    generalize n / 24 = d
    push_cast
    ring
  · rw [backupGrid_interval hg]
    simp only [everyHours]
    ring

/-- What the scheduler does at a full hour, if `m` is the first hour of the day's grid behind the
last run. -/
theorem everyHours_due {h l m n : ℕ} (hpos : 0 < h) (k : ℤ) (hm : (m : ℤ) = (n / 24 * 24 : ℕ) + k * h)
    (hlt : l < m) (hle : m ≤ l + h) :
    slotAfter onlyUTC (everyHours h (l * 3600000)) (l * 3600000) (n * 3600000) =
        some ((m : ℚ) * 3600000) ∧
      backupDue onlyUTC (everyHours h (l * 3600000)) (n * 3600000) = decide (m ≤ n) := by
  obtain ⟨g, hgrid, hanchor, hinterval⟩ := everyHours_grid hpos ((l : ℚ) * 3600000) n
  have hon : g.On ((m : ℚ) * 3600000) := by
    refine ⟨k, ?_⟩
    have hcast : (m : ℚ) = (n / 24 * 24 : ℕ) + k * h := by
      generalize n / 24 * 24 = midnight at hm
      have hcast := congrArg (Int.cast (R := ℚ)) hm
      push_cast at hcast
      exact hcast
    rw [hanchor, hinterval, hcast]
    ring
  have hltq : (l : ℚ) < m := by exact_mod_cast hlt
  have hleq : (m : ℚ) ≤ l + h := by exact_mod_cast hle
  have hslot : g.slotAfter ((l : ℚ) * 3600000) = m * 3600000 := by
    apply Grid.slotAfter_of_on hon
    · linarith
    · rw [hinterval]
      linarith
  constructor
  · simp [slotAfter, hgrid, hslot]
  · rw [Bool.eq_iff_iff, backupDue_of_grid hgrid, decide_eq_true_iff]
    simp only [everyHours, hslot]
    constructor
    · intro h'
      have : (m : ℚ) ≤ n := by linarith
      exact_mod_cast this
    · intro h'
      have : (m : ℚ) ≤ n := by exact_mod_cast h'
      linarith

theorem hourlyTicks_split (t r : ℕ) : hourlyTicks (t * 3600000) (r + 2) =
    ((t : ℕ) : ℚ) * 3600000 ::
      ((List.range r).map fun i => ((t + (i + 1) : ℕ) : ℚ) * 3600000) ++
        [((t + (r + 1) : ℕ) : ℚ) * 3600000] := by
  rw [hourlyTicks, List.range_succ, List.range_succ_eq_map]
  simp only [List.map_append, List.map_cons, List.map_map, List.map_nil, List.cons_append]
  congr 1
  · push_cast
    ring
  · congr 1
    · apply List.map_congr_left
      intro i _
      simp only [Function.comp]
      push_cast
      ring
    · congr 1
      push_cast
      ring

/-- **The grid jumps at midnight.** A day is `q` intervals and `r` hours long: the last slot of the
day is followed by the one at midnight. -/
theorem triggers_midnight {h q r : ℕ} (hday : 24 = q * h + (r + 1)) (hr : r + 1 < h) :
    triggers onlyUTC (everyHours h ((23 + q * h : ℕ) * 3600000))
        (hourlyTicks ((24 + q * h : ℕ) * 3600000) (r + 2)) =
      [((24 + q * h : ℕ) : ℚ) * 3600000, (48 : ℕ) * 3600000] := by
  have hpos : 0 < h := by omega
  -- the slot of the first tick, which is recorded there
  obtain ⟨hslot, hdue⟩ := everyHours_due (l := 23 + q * h) (m := 24 + q * h) (n := 24 + q * h) hpos q
    (by push_cast; omega) (by omega) (by omega)
  -- the next one of that day lies behind midnight
  have hidle : ∀ now ∈ (List.range r).map fun i => ((24 + q * h + (i + 1) : ℕ) : ℚ) * 3600000,
      backupDue onlyUTC (everyHours h ((24 + q * h : ℕ) * 3600000)) now = false := by
    intro now hmem
    obtain ⟨i, hi, rfl⟩ := List.mem_map.mp hmem
    have hi := List.mem_range.mp hi
    have hsame : (24 + q * h + (i + 1)) / 24 = 1 := by omega
    have hsucc : (q + 1) * h = q * h + h := Nat.succ_mul q h
    have hon : ((24 + (q + 1) * h : ℕ) : ℤ) =
        ((24 + q * h + (i + 1)) / 24 * 24 : ℕ) + (q + 1 : ℕ) * h := by
      rw [hsame]
      push_cast
      ring
    obtain ⟨-, hnext⟩ := everyHours_due (l := 24 + q * h) hpos (q + 1 : ℕ) hon (by omega) (by omega)
    rw [hnext, decide_eq_false_iff_not]
    omega
  -- at midnight the grid starts anew
  obtain ⟨hslot', hdue'⟩ := everyHours_due (l := 24 + q * h) (m := 48) (n := 48) hpos 0
    (by omega) (by omega) (by omega)
  have hlast : 24 + q * h + (r + 1) = 48 := by omega
  have hrecord : ∀ t : ℚ, recordRun (everyHours h ((23 + q * h : ℕ) * 3600000)) t = everyHours h t :=
    fun _ => rfl
  rw [hourlyTicks_split, List.cons_append, triggers, hdue, if_pos (by simp), hrecord,
    triggers_idle _ _ hidle, hlast, triggers, hdue', if_pos (by simp)]
  simp only [everyHours] at hslot hslot' ⊢
  rw [hslot, hslot']
  simp [triggers]

/-- **Backups keep their interval** exactly if it divides a day. -/
theorem backups_spaced_iff (h : ℕ) (hpos : 0 < h) :
    (∀ (zones : Zones) (s : BackupSettings) (offset : Int) (start : ℚ) (n : ℕ),
      s.backupIntervalHours = h → zones s.backupTimezone = some (fixedZone offset) →
      (triggers zones s (hourlyTicks start n)).IsChain fun a b =>
        a + s.backupIntervalHours * 3600 * 1000 ≤ b) ↔ h ∣ 24 := by
  constructor
  · intro hspaced
    by_contra hdvd
    have hmod : 0 < 24 % h := Nat.pos_of_ne_zero fun hzero => hdvd (Nat.dvd_of_mod_eq_zero hzero)
    have hlt := Nat.mod_lt 24 hpos
    have hdiv := Nat.div_add_mod' 24 h
    have hday : 24 = 24 / h * h + (24 % h - 1 + 1) := by omega
    have hchain := hspaced onlyUTC (everyHours h ((23 + 24 / h * h : ℕ) * 3600000)) 0
      ((24 + 24 / h * h : ℕ) * 3600000) (24 % h - 1 + 2) rfl rfl
    rw [triggers_midnight hday (by omega), List.isChain_cons_cons] at hchain
    simp only [everyHours] at hchain
    have hgap : ((24 + 24 / h * h + h : ℕ) : ℚ) ≤ (48 : ℕ) := by
      have hchain := hchain.1
      push_cast at hchain ⊢
      linarith
    have hgap : 24 + 24 / h * h + h ≤ 48 := by exact_mod_cast hgap
    omega
  · intro hdvd zones s offset start n hours hzone
    exact spaced_of_dvd hdvd _ hours hzone

/-- Six hours are a quarter of a day. -/
theorem backups_spaced_iff_six :
    (∀ (zones : Zones) (s : BackupSettings) (offset : Int) (start : ℚ) (n : ℕ),
      s.backupIntervalHours = (6 : ℕ) → zones s.backupTimezone = some (fixedZone offset) →
      (triggers zones s (hourlyTicks start n)).IsChain fun a b =>
        a + s.backupIntervalHours * 3600 * 1000 ≤ b) ↔ 6 ∣ 24 :=
  backups_spaced_iff 6 (by decide)

/-- A backup every five hours from midnight UTC: the run at 20:00 is followed by one at midnight. -/
theorem five_hours_midnight :
    triggers onlyUTC (everyHours 5 ((43 : ℕ) * 3600000)) (hourlyTicks ((44 : ℕ) * 3600000) 5) =
        [((44 : ℕ) : ℚ) * 3600000, (48 : ℕ) * 3600000] ∧
      ¬(((44 : ℕ) : ℚ) * 3600000 + (everyHours 5 0).backupIntervalHours * 3600 * 1000 ≤
        (48 : ℕ) * 3600000) := by
  constructor
  · exact triggers_midnight (h := 5) (q := 4) (r := 3) (by decide) (by decide)
  · norm_num [everyHours]

/-- The grid of one day, and a run recorded at its fifth hour. -/
theorem backup_schedule_agrees_day :
    ∃ g, backupGrid onlyUTC (everyHours 5 0) ((5 : ℕ) * 3600000) = some g ∧
      (backupDue onlyUTC (recordRun (everyHours 5 0) ((5 : ℕ) * 3600000)) ((7 : ℕ) * 3600000) = true ↔
        g.slotAfter ((5 : ℕ) * 3600000) ≤ (7 : ℕ) * 3600000) := by
  obtain ⟨g, hgrid, hanchor, hinterval⟩ := everyHours_grid (h := 5) (by decide) 0 5
  obtain ⟨g', hgrid', hanchor', hinterval'⟩ := everyHours_grid (h := 5) (by decide) 0 7
  have hsame : g' = g := by
    cases g
    cases g'
    simp_all
  refine ⟨g, hgrid, ?_⟩
  exact (backup_schedule_agrees onlyUTC (everyHours 5 0) g).2.2 _ _ hgrid (hsame ▸ hgrid') (by norm_num)

end MassDeployment
