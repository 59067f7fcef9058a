import Mathlib.Data.Rat.Floor
import Mathlib.Tactic.Linarith
import Mathlib.Tactic.FieldSimp
import MassDeployment.Lib.Calendar

set_option autoImplicit false

/-! # The schedule of backups (`maintenance.ts`, `backup.ts`)

Backups are due on a grid: the instants a whole number of intervals away from an anchor. Two
functions ask for the first grid instant after a reference. `backupDue` takes the last run, and
`nextBackupRun`, which the pages show, a reference that lies one interval back at most.

Instants are milliseconds since the epoch.
-/

namespace MassDeployment

/-- An anchor and the distance between two grid instants. -/
structure Grid where
  anchor : ℚ
  intervalMs : ℚ
  positive : 0 < intervalMs

namespace Grid

variable (g : Grid)

/-- `while (next <= ref) next += g.intervalMs`. -/
def catchUp (ref next : ℚ) : ℚ :=
  if next ≤ ref then catchUp ref (next + g.intervalMs) else next
termination_by (⌊(ref - next) / g.intervalMs⌋ + 1).toNat
decreasing_by
  rename_i hle
  have hsub : (ref - (next + g.intervalMs)) / g.intervalMs = (ref - next) / g.intervalMs - 1 := by
    have hne := g.positive.ne'
    field_simp
    ring
  have hpos : 0 ≤ ⌊(ref - next) / g.intervalMs⌋ :=
    Int.floor_nonneg.mpr (div_nonneg (sub_nonneg.mpr hle) g.positive.le)
  rw [hsub, Int.floor_sub_one]
  omega

/-- The first grid instant after `ref`. -/
def slotAfter (ref : ℚ) : ℚ :=
  let k := ⌊(ref - g.anchor) / g.intervalMs⌋ + 1
  g.catchUp ref (g.anchor + k * g.intervalMs)

/-- The instant lies on the grid. -/
def On (t : ℚ) : Prop := ∃ k : ℤ, t = g.anchor + k * g.intervalMs

variable {g}

theorem catchUp_of_lt {ref next : ℚ} (h : ref < next) : g.catchUp ref next = next := by
  rw [catchUp, if_neg (not_le.mpr h)]

/-- The quotient already lies behind the reference: the loop has nothing to do. -/
theorem slotAfter_eq (ref : ℚ) :
    g.slotAfter ref = g.anchor + (⌊(ref - g.anchor) / g.intervalMs⌋ + 1 : ℤ) * g.intervalMs := by
  have hfloor := Int.lt_floor_add_one ((ref - g.anchor) / g.intervalMs)
  rw [div_lt_iff₀ g.positive] at hfloor
  refine catchUp_of_lt ?_
  push_cast
  linarith

theorem slotAfter_on (ref : ℚ) : g.On (g.slotAfter ref) := ⟨_, slotAfter_eq ref⟩

theorem lt_slotAfter (ref : ℚ) : ref < g.slotAfter ref := by
  have hfloor := Int.lt_floor_add_one ((ref - g.anchor) / g.intervalMs)
  rw [div_lt_iff₀ g.positive] at hfloor
  rw [slotAfter_eq]
  push_cast
  linarith

/-- No grid instant lies between the reference and the slot. -/
theorem slotAfter_le {ref t : ℚ} (ht : g.On t) (h : ref < t) : g.slotAfter ref ≤ t := by
  obtain ⟨k, rfl⟩ := ht
  have hk : ⌊(ref - g.anchor) / g.intervalMs⌋ < k := by
    rw [Int.floor_lt, div_lt_iff₀ g.positive]
    linarith
  have hle : ((⌊(ref - g.anchor) / g.intervalMs⌋ + 1 : ℤ) : ℚ) ≤ k := Int.cast_le.mpr hk
  rw [slotAfter_eq]
  have hmul := mul_le_mul_of_nonneg_right hle g.positive.le
  linarith

theorem slotAfter_le_add (ref : ℚ) : g.slotAfter ref ≤ ref + g.intervalMs := by
  have hfloor := Int.floor_le ((ref - g.anchor) / g.intervalMs)
  rw [le_div_iff₀ g.positive] at hfloor
  rw [slotAfter_eq]
  push_cast
  linarith

/-- Two grid instants are an interval apart. -/
theorem on_gap {t t' : ℚ} (ht : g.On t) (ht' : g.On t') (hlt : t < t') : t + g.intervalMs ≤ t' := by
  obtain ⟨k, rfl⟩ := ht
  obtain ⟨k', rfl⟩ := ht'
  have hk : (k : ℚ) < k' := by
    by_contra hle
    have hmul := mul_le_mul_of_nonneg_right (not_lt.mp hle) g.positive.le
    linarith
  have hsucc : (k : ℚ) + 1 ≤ k' := by exact_mod_cast Int.cast_lt.mp hk
  have hmul := mul_le_mul_of_nonneg_right hsucc g.positive.le
  linarith

/-- The grid instant within one interval of the reference is the slot. -/
theorem slotAfter_of_on {ref t : ℚ} (ht : g.On t) (hlt : ref < t) (hle : t ≤ ref + g.intervalMs) :
    g.slotAfter ref = t := by
  apply le_antisymm (slotAfter_le ht hlt)
  by_contra hlt'
  have hgap := on_gap (slotAfter_on ref) ht (not_le.mp hlt')
  have href := lt_slotAfter (g := g) ref
  linarith

theorem slotAfter_mono {ref ref' : ℚ} (h : ref ≤ ref') : g.slotAfter ref ≤ g.slotAfter ref' :=
  slotAfter_le (slotAfter_on ref') (h.trans_lt (lt_slotAfter ref'))

end Grid

/-! ## Time zones -/

/-- A wall-clock time, as `formatToParts` gives it. -/
structure WallClock where
  date : Calendar.Date
  hour : Int
  minute : Int
  second : Int

/-- The time zones of the platform: `Intl.DateTimeFormat` throws for a name it does not know. -/
abbrev Zones := String → Option (ℚ → WallClock)

/-- `Date.UTC`. -/
def dateUTC (date : Calendar.Date) (hour minute second : Int) : Int :=
  (((date.toDay * 24 + hour) * 60 + minute) * 60 + second) * 1000

/-- What local wall-clock time is ahead of UTC at an instant. -/
def tzOffsetMs (zone : ℚ → WallClock) (utcMs : ℚ) : ℚ :=
  let p := zone utcMs
  dateUTC p.date p.hour p.minute p.second - utcMs

/-- The instant of a wall-clock time; two passes, since the offset depends on the instant. -/
def wallClockToUtc (date : Calendar.Date) (hour minute : Int) (zone : ℚ → WallClock) : ℚ :=
  let wall : ℚ := dateUTC date hour minute 0
  let ts := wall - tzOffsetMs zone wall
  wall - tzOffsetMs zone ts

/-! ## The schedule -/

/-- The settings of the scheduler. -/
structure BackupSettings where
  backupEnabled : Bool := false
  backupIntervalHours : ℚ := 24
  backupAnchorHour : Int := 2
  backupAnchorMinute : Int := 0
  backupTimezone : String := "America/New_York"
  /-- 0 for never. -/
  backupLastRun : ℚ := 0

variable (zones : Zones) (s : BackupSettings)

/-- The grid through today's anchor, unless backups are off or misconfigured. -/
def backupGrid (now : ℚ) : Option Grid :=
  if !s.backupEnabled then none
  else if h : 0 < s.backupIntervalHours then
    match zones s.backupTimezone with
    | none => none
    | some zone => some
      { anchor := wallClockToUtc (zone now).date s.backupAnchorHour s.backupAnchorMinute zone
        intervalMs := s.backupIntervalHours * 3600 * 1000
        positive := by positivity }
  else none

/-- The first scheduled instant after `ref`, on the grid of `now`. -/
def slotAfter (ref now : ℚ) : Option ℚ := (backupGrid zones s now).map fun g => g.slotAfter ref

/-- The next run, for the pages. -/
def nextBackupRun (now : ℚ) : Option ℚ :=
  let intervalMs := s.backupIntervalHours * 3600 * 1000
  slotAfter zones s (max s.backupLastRun (now - intervalMs)) now

/-- The slot after the last run has arrived. -/
def backupDue (now : ℚ) : Bool :=
  match slotAfter zones s s.backupLastRun now with
  | none => false
  | some next => next ≤ now

/-- The last run, as `backupAll` records it. -/
def recordRun (stamp : ℚ) : BackupSettings := { s with backupLastRun := stamp }

variable {zones s}

theorem backupGrid_interval {now : ℚ} {g : Grid} (h : backupGrid zones s now = some g) :
    g.intervalMs = s.backupIntervalHours * 3600 * 1000 := by
  unfold backupGrid at h
  split at h
  · cases h
  · split at h
    · split at h
      · cases h
      · cases h
        rfl
    · cases h

@[simp] theorem backupGrid_recordRun (stamp now : ℚ) :
    backupGrid zones (recordRun s stamp) now = backupGrid zones s now := rfl

theorem backupDue_of_grid {now : ℚ} {g : Grid} (h : backupGrid zones s now = some g) :
    backupDue zones s now = true ↔ g.slotAfter s.backupLastRun ≤ now := by
  simp [backupDue, slotAfter, h]

theorem nextBackupRun_of_grid {now : ℚ} {g : Grid} (h : backupGrid zones s now = some g) :
    nextBackupRun zones s now = some (g.slotAfter (max s.backupLastRun (now - g.intervalMs))) := by
  simp [nextBackupRun, slotAfter, h, backupGrid_interval h]

/-- **Due and next run agree.** A reference further back than one interval has its slot in the
past, clamped or not. -/
theorem backupDue_iff_next (now : ℚ) : backupDue zones s now = true ↔
    ∃ next, nextBackupRun zones s now = some next ∧ next ≤ now := by
  cases hgrid : backupGrid zones s now with
  | none => simp [backupDue, nextBackupRun, slotAfter, hgrid]
  | some g =>
      rw [backupDue_of_grid hgrid, nextBackupRun_of_grid hgrid]
      simp only [Option.some.injEq, exists_eq_left']
      by_cases hlate : s.backupLastRun ≤ now - g.intervalMs
      · -- both slots have arrived
        have hclamped := g.slotAfter_le_add (now - g.intervalMs)
        have hraw := Grid.slotAfter_mono (g := g) hlate
        rw [max_eq_right hlate]
        constructor <;> intro _ <;> linarith
      · rw [max_eq_left (le_of_not_ge hlate)]

/-- **One grid.** The slot is the first grid instant after its reference, the scheduler fires where
the pages say that the next run has come, and after a run it waits for the next grid instant. -/
theorem backup_schedule_agrees (zones : Zones) (s : BackupSettings) (g : Grid) :
    (∀ ref, g.On (g.slotAfter ref) ∧ ref < g.slotAfter ref ∧
      ∀ t, g.On t → ref < t → g.slotAfter ref ≤ t) ∧
    (∀ now, backupDue zones s now = true ↔
      ∃ next, nextBackupRun zones s now = some next ∧ next ≤ now) ∧
    ∀ now t, backupGrid zones s now = some g → backupGrid zones s t = some g → now ≤ t →
      (backupDue zones (recordRun s now) t = true ↔ g.slotAfter now ≤ t) := by
  refine ⟨fun ref => ?_, backupDue_iff_next, fun now t _ hgrid _ => ?_⟩
  · exact ⟨Grid.slotAfter_on ref, Grid.lt_slotAfter ref, fun t => Grid.slotAfter_le⟩
  · exact backupDue_of_grid (s := recordRun s now) hgrid

end MassDeployment
