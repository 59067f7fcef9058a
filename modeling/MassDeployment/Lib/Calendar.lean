import Mathlib.Tactic.Linarith
import Mathlib.Tactic.Ring

set_option autoImplicit false

/-! # Calendar days

Days are counted from the first of January 1970, and years, months and days of the month are those
of the Gregorian calendar, extended to all years. Months are counted from 0.
-/

namespace Calendar

/-- The day the epoch is counted from, in days from the first of January of the year 0. -/
def epoch : Int := 719528

/-- The days before the first of January of a year. -/
def daysBeforeYear (y : Int) : Int :=
  365 * y + (y + 3) / 4 - (y + 99) / 100 + (y + 399) / 400 - epoch

def isLeap (y : Int) : Bool := y % 4 = 0 ∧ (y % 100 ≠ 0 ∨ y % 400 = 0)

/-- 400 years have 146097 days; other spans differ from the average by two days at most. -/
theorem daysBeforeYear_bounds (y : Int) :
    146097 * y - 800 ≤ 400 * (daysBeforeYear y + epoch) ∧
      400 * (daysBeforeYear y + epoch) ≤ 146097 * y + 800 := by
  unfold daysBeforeYear
  constructor <;> omega

/-- The year of a day: an estimate from the length of 400 years, put right. -/
def yearOf (d : Int) : Int :=
  let y := (d + epoch) * 400 / 146097
  if daysBeforeYear (y + 1) ≤ d then y + 1
  else if d < daysBeforeYear y then y - 1
  else y

/-- The year of a day has begun, and the next one has not. -/
theorem yearOf_spec (d : Int) :
    daysBeforeYear (yearOf d) ≤ d ∧ d < daysBeforeYear (yearOf d + 1) := by
  unfold yearOf
  generalize hy : (d + epoch) * 400 / 146097 = y
  dsimp only
  by_cases hnext : daysBeforeYear (y + 1) ≤ d
  · have hbound := (daysBeforeYear_bounds (y + 1 + 1)).1
    rw [if_pos hnext]
    refine ⟨hnext, ?_⟩
    omega
  · rw [if_neg hnext]
    by_cases hprev : d < daysBeforeYear y
    · have hbound := (daysBeforeYear_bounds (y - 1)).2
      rw [if_pos hprev, Int.sub_add_cancel]
      refine ⟨?_, hprev⟩
      omega
    · rw [if_neg hprev]
      omega

/-! ## Months -/

/-- The days before each month of a year but the first. -/
def monthStarts (leap : Bool) : List Int :=
  let extra := if leap then 1 else 0
  [31, 59 + extra, 90 + extra, 120 + extra, 151 + extra, 181 + extra, 212 + extra, 243 + extra,
    273 + extra, 304 + extra, 334 + extra]

/-- The month that the `n`-th day of a year falls in, from 0. -/
def monthOf (leap : Bool) (n : Int) : Nat := (monthStarts leap).countP fun start => start ≤ n

/-- The days of a year before its month `m`. -/
def daysBeforeMonth (leap : Bool) (m : Nat) : Int := (0 :: monthStarts leap).getD m 0

/-- A day of the calendar. -/
structure Date where
  year : Int
  month : Nat
  day : Int
  deriving DecidableEq

/-- The day of the calendar. -/
def dateOf (d : Int) : Date :=
  let year := yearOf d
  let n := d - daysBeforeYear year
  let month := monthOf (isLeap year) n
  { year, month, day := n - daysBeforeMonth (isLeap year) month + 1 }

/-- The day with a date. -/
def Date.toDay (date : Date) : Int :=
  daysBeforeYear date.year + daysBeforeMonth (isLeap date.year) date.month + (date.day - 1)

theorem toDay_dateOf (d : Int) : (dateOf d).toDay = d := by
  unfold dateOf Date.toDay
  dsimp only
  omega

example : dateOf 19782 = ⟨2024, 1, 29⟩ := by decide

end Calendar
