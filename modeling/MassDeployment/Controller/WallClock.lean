import MassDeployment.Controller.BackupSpacing

set_option autoImplicit false

/-! # The instant of a wall-clock time (`maintenance.ts`)

`wallClockToUtc` looks for the instant at which clocks in a zone show a given time: the time less
the offset of the zone, and the offset depends on the instant. It takes the offset at the time read
as UTC first, and the offset at what that leads to second.

Two offsets are all there is around one change of the clocks, and that two passes are enough rests
on this alone: if the first pass is wrong, the offset it finds is the other one of the two.
-/

namespace MassDeployment

/-! ## Two passes -/

/-- Two passes find the instant, if no third offset is met on the way. -/
theorem offset_of_two_passes {off : ℚ → ℚ} {a b wall t : ℚ}
    (hwall : off wall = a ∨ off wall = b)
    (hpass : off (wall - off wall) = a ∨ off (wall - off wall) = b)
    (ht : off t = a ∨ off t = b) (hread : t + off t = wall) :
    off (wall - off (wall - off wall)) = off (wall - off wall) := by
  by_cases hsame : off (wall - off wall) = off wall
  · rw [hsame]
    exact hsame
  · -- the instant has the other offset, else the first pass had found it
    have hother : off t ≠ off wall := by
      intro heq
      have hfound : wall - off wall = t := by linarith
      exact hsame (hfound ▸ heq)
    have hsecond : off t = off (wall - off wall) := by
      rcases hwall with hw | hw <;> rcases hpass with hp | hp <;> rcases ht with h | h <;>
        simp_all
    have hfound : wall - off (wall - off wall) = t := by linarith
    rw [hfound, hsecond]

/-! ## Zones with one change of the clocks -/

/-- Milliseconds of a day. -/
def dayMs : ℚ := 86400000

/-- The offset of the zone, where clocks are read: at whole seconds. -/
def OffsetOf (zone : ℚ → WallClock) (off : ℚ → ℚ) : Prop :=
  ∀ n : Int, tzOffsetMs zone ((n * 1000 : Int) : ℚ) = off ((n * 1000 : Int) : ℚ)

/-- Within two days of an instant the offset is one before a transition and another one from it on,
less than a day apart. -/
def OneTransition (off : ℚ → ℚ) (around : ℚ) : Prop :=
  ∃ transition before behind : ℚ, |behind - before| < dayMs ∧
    ∀ t, |t - around| ≤ 2 * dayMs → off t = if t < transition then before else behind

/-- What clocks in the zone show, as milliseconds in the manner of `Date.UTC`. -/
def reading (zone : ℚ → WallClock) (t : ℚ) : ℚ :=
  let p := zone t
  dateUTC p.date p.hour p.minute p.second

theorem reading_eq (zone : ℚ → WallClock) (t : ℚ) : reading zone t = t + tzOffsetMs zone t := by
  simp [reading, tzOffsetMs]

theorem OneTransition.two_offsets {off : ℚ → ℚ} {around : ℚ} (h : OneTransition off around) :
    ∃ a b, ∀ t, |t - around| ≤ 2 * dayMs → off t = a ∨ off t = b := by
  obtain ⟨transition, before, behind, -, hoff⟩ := h
  refine ⟨before, behind, fun t ht => ?_⟩
  rw [hoff t ht]
  split
  · exact .inl rfl
  · exact .inr rfl

theorem exists_dateUTC (date : Calendar.Date) (hour minute second : Int) :
    ∃ n : Int, dateUTC date hour minute second = n * 1000 := ⟨_, rfl⟩

/-- The offset of a time in whole seconds leads to whole seconds. -/
theorem sub_tzOffsetMs (zone : ℚ → WallClock) (wall n : Int) :
    ∃ m : Int, ((wall * 1000 : Int) : ℚ) - tzOffsetMs zone ((n * 1000 : Int) : ℚ) =
      ((m * 1000 : Int) : ℚ) := by
  obtain ⟨k, hk⟩ := exists_dateUTC (zone ((n * 1000 : Int) : ℚ)).date
    (zone ((n * 1000 : Int) : ℚ)).hour (zone ((n * 1000 : Int) : ℚ)).minute
    (zone ((n * 1000 : Int) : ℚ)).second
  refine ⟨wall + n - k, ?_⟩
  unfold tzOffsetMs
  dsimp only
  rw [hk]
  push_cast
  ring

/-- **The instant of a wall-clock time is exact** around one change of the clocks: if clocks show
the time at some instant, they show it at the instant found. -/
theorem wallClockToUtc_exact (zone : ℚ → WallClock) (off : ℚ → ℚ) (date : Calendar.Date)
    (hour minute : Int) (hzone : OffsetOf zone off)
    (hone : OneTransition off (dateUTC date hour minute 0))
    (hsize : ∀ t, |off t| ≤ 2 * dayMs) (hshown : ∃ t, t + off t = dateUTC date hour minute 0) :
    let ts := wallClockToUtc date hour minute zone
    ts + off ts = dateUTC date hour minute 0 ∧ reading zone ts = dateUTC date hour minute 0 := by
  obtain ⟨t, ht⟩ := hshown
  obtain ⟨a, b, htwo⟩ := hone.two_offsets
  obtain ⟨n, hn⟩ := exists_dateUTC date hour minute 0
  rw [hn] at htwo ht ⊢
  set wall : ℚ := ((n * 1000 : Int) : ℚ) with hwall
  -- the three instants that are met lie within two days of the time
  have hnear : ∀ s, |wall - off s - wall| ≤ 2 * dayMs := by
    intro s
    rw [sub_sub_cancel_left, abs_neg]
    exact hsize s
  have hself : |wall - wall| ≤ 2 * dayMs := by
    rw [sub_self, abs_zero]
    norm_num [dayMs]
  have hat : |t - wall| ≤ 2 * dayMs := by
    have heq : t = wall - off t := by linarith
    rw [heq]
    exact hnear t
  have hoffset := offset_of_two_passes (htwo wall hself) (htwo _ (hnear wall)) (htwo t hat) ht
  -- both passes ask for the offset at whole seconds
  obtain ⟨m, hm⟩ := sub_tzOffsetMs zone n n
  have hfirst : tzOffsetMs zone wall = off wall := hzone n
  have hsecond : tzOffsetMs zone (wall - off wall) = off (wall - off wall) := by
    rw [← hfirst, hwall, hm]
    exact hzone m
  obtain ⟨k, hk⟩ := sub_tzOffsetMs zone n m
  have hts : wallClockToUtc date hour minute zone = wall - off (wall - off wall) := by
    unfold wallClockToUtc
    dsimp only
    rw [hn, ← hwall, hfirst, hsecond]
  have hthird : tzOffsetMs zone (wall - off (wall - off wall)) =
      off (wall - off (wall - off wall)) := by
    rw [← hsecond, ← hfirst, hwall, hm, hk]
    exact hzone k
  have hexact : wall - off (wall - off wall) + off (wall - off (wall - off wall)) = wall := by
    rw [hoffset]
    ring
  dsimp only
  rw [hts, reading_eq, hthird]
  exact ⟨hexact, hexact⟩

/-! ## Zones given by their offsets -/

/-- A zone whose clocks are ahead of UTC by a number of seconds that depends on the second. -/
def zoneOf (ahead : Int → Int) (t : ℚ) : WallClock := fixedZone (ahead ⌊t / 1000⌋) t

/-- The offset of such a zone in milliseconds. -/
def aheadMs (ahead : Int → Int) (t : ℚ) : ℚ := ahead ⌊t / 1000⌋ * 1000

theorem floor_seconds (n : Int) : ⌊((n * 1000 : Int) : ℚ) / 1000⌋ = n := by
  push_cast
  rw [mul_div_cancel_right₀ _ (by norm_num : (1000 : ℚ) ≠ 0), Int.floor_intCast]

theorem offsetOf_zoneOf (ahead : Int → Int) : OffsetOf (zoneOf ahead) (aheadMs ahead) := by
  intro n
  have hfixed : tzOffsetMs (zoneOf ahead) ((n * 1000 : Int) : ℚ) =
      tzOffsetMs (fixedZone (ahead ⌊((n * 1000 : Int) : ℚ) / 1000⌋)) ((n * 1000 : Int) : ℚ) := rfl
  rw [hfixed, tzOffsetMs_fixed, aheadMs]

/-- The second has begun. -/
theorem floor_lt_iff {t : ℚ} {n : Int} : ⌊t / 1000⌋ < n ↔ t < (n * 1000 : Int) := by
  rw [Int.floor_lt, div_lt_iff₀ (by norm_num)]
  push_cast
  rfl

/-- Clocks that go from five hours behind UTC to four on the tenth of March 2024, at two. -/
def springForward (second : Int) : Int := if second < 1710054000 then -18000 else -14400

theorem wallClockToUtc_exact_springForward :
    let ts := wallClockToUtc ⟨2024, 2, 10⟩ 3 30 (zoneOf springForward)
    reading (zoneOf springForward) ts = dateUTC ⟨2024, 2, 10⟩ 3 30 0 := by
  have hutc : dateUTC ⟨2024, 2, 10⟩ 3 30 0 = 1710041400000 := by decide
  have hoff : ∀ t, aheadMs springForward t =
      if t < ((1710054000 * 1000 : Int) : ℚ) then -18000000 else -14400000 := by
    intro t
    unfold aheadMs springForward
    by_cases h : ⌊t / 1000⌋ < 1710054000
    · rw [if_pos h, if_pos (floor_lt_iff.mp h)]
      norm_num
    · rw [if_neg h, if_neg (mt floor_lt_iff.mpr h)]
      norm_num
  refine (wallClockToUtc_exact (zoneOf springForward) (aheadMs springForward) ⟨2024, 2, 10⟩ 3 30
    (offsetOf_zoneOf springForward) ?_ ?_ ?_).2
  · refine ⟨_, -18000000, -14400000, ?_, fun t _ => hoff t⟩
    norm_num [dayMs, abs_lt]
  · intro t
    rw [hoff t]
    split <;> norm_num [dayMs, abs_le]
  · refine ⟨1710055800000, ?_⟩
    rw [hoff, hutc]
    norm_num

/-- Clocks that are three days ahead of UTC, and were less far ahead before. -/
def threeDaysAhead (second : Int) : Int :=
  if second < 108000 then 36000 else if second < 172800 then 216000 else 259200

/-- Clocks that are more than two days ahead show the time at an instant where they were ahead by
another offset, and the two passes miss it. -/
theorem wallClockToUtc_missed :
    OffsetOf (zoneOf threeDaysAhead) (aheadMs threeDaysAhead) ∧
      OneTransition (aheadMs threeDaysAhead) (dateUTC ⟨1970, 0, 5⟩ 0 0 0) ∧
      (∃ t, t + aheadMs threeDaysAhead t = dateUTC ⟨1970, 0, 5⟩ 0 0 0) ∧
      (let ts := wallClockToUtc ⟨1970, 0, 5⟩ 0 0 (zoneOf threeDaysAhead)
      ts + aheadMs threeDaysAhead ts ≠ dateUTC ⟨1970, 0, 5⟩ 0 0 0 ∧
        reading (zoneOf threeDaysAhead) ts ≠ dateUTC ⟨1970, 0, 5⟩ 0 0 0) := by
  have hutc : dateUTC ⟨1970, 0, 5⟩ 0 0 0 = 345600000 := by decide
  have hfar : ∀ t : ℚ, 172800000 ≤ t → aheadMs threeDaysAhead t = 259200000 := by
    intro t ht
    have hfloor : 172800 ≤ ⌊t / 1000⌋ := Int.le_floor.mpr (by push_cast; linarith)
    unfold aheadMs threeDaysAhead
    rw [if_neg (by omega), if_neg (by omega)]
    norm_num
  have hzone := offsetOf_zoneOf threeDaysAhead
  have htz : ∀ n : Int, tzOffsetMs (zoneOf threeDaysAhead) ((n * 1000 : Int) : ℚ) =
      threeDaysAhead n * 1000 := by
    intro n
    rw [hzone n, aheadMs, floor_seconds]
  have hts : wallClockToUtc ⟨1970, 0, 5⟩ 0 0 (zoneOf threeDaysAhead) =
      ((309600 * 1000 : Int) : ℚ) := by
    have hfirst := htz 345600
    have hsecond := htz 86400
    norm_num [threeDaysAhead] at hfirst hsecond
    unfold wallClockToUtc
    dsimp only
    rw [hutc]
    norm_num [hfirst, hsecond]
  refine ⟨hzone, ⟨0, 259200000, 259200000, by norm_num [dayMs], fun t ht => ?_⟩,
    ⟨129600000, ?_⟩, ?_⟩
  · have hlate := (abs_le.mp ht).1
    rw [hutc] at hlate
    norm_num [dayMs] at hlate
    rw [hfar t (by linarith), ite_self]
  · have hfloor : ⌊(129600000 : ℚ) / 1000⌋ = 129600 := by norm_num
    rw [aheadMs, hfloor, hutc]
    norm_num [threeDaysAhead]
  · dsimp only
    rw [hts, reading_eq, htz, hutc, hfar _ (by norm_num)]
    norm_num [threeDaysAhead]

end MassDeployment
