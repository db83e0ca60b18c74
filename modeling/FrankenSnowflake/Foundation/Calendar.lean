import Mathlib.Data.Int.Order.Basic
import Mathlib.Tactic.IntervalCases
import Mathlib.Tactic.Ring

/-!
# The proleptic Gregorian calendar

Dates with an astronomical year, and their day numbers counted from 1970-01-01.
-/

namespace Foundation.Calendar

/-! ## Years and months -/

def isLeap (year : Int) : Bool := year % 4 = 0 && (year % 100 ≠ 0 || year % 400 = 0)

def leapDay (year : Int) : Nat := if isLeap year then 1 else 0

theorem leapDay_le_one (year : Int) : leapDay year ≤ 1 := by
  unfold leapDay
  split_ifs <;> decide

def daysInMonth (year : Int) : Nat → Nat
  | 1 | 3 | 5 | 7 | 8 | 10 | 12 => 31
  | 4 | 6 | 9 | 11 => 30
  | 2 => 28 + leapDay year
  | _ => 0

theorem daysInMonth_le (year : Int) (month : Nat) : daysInMonth year month ≤ 31 := by
  have hleap := leapDay_le_one year
  unfold daysInMonth
  split <;> omega

/-- The days of a year before a month. -/
def daysBeforeMonth (year : Int) : Nat → Nat
  | 0 | 1 => 0
  | month + 1 => daysBeforeMonth year month + daysInMonth year month

/-- The days from 0001-01-01 to the first day of a year. -/
def daysBeforeYear (year : Int) : Int :=
  365 * (year - 1) + (year - 1) / 4 - (year - 1) / 100 + (year - 1) / 400

/-- The days from 0001-01-01 to 1970-01-01. -/
def epochDays : Int := 719162

theorem leapDay_eq (year : Int) :
    (leapDay year : Int) =
      year / 4 - (year - 1) / 4 - (year / 100 - (year - 1) / 100) +
        (year / 400 - (year - 1) / 400) := by
  unfold leapDay isLeap
  split_ifs with hleap
  · simp only [Bool.and_eq_true, Bool.or_eq_true, decide_eq_true_eq] at hleap
    omega
  · simp only [Bool.and_eq_true, Bool.or_eq_true, decide_eq_true_eq, not_and, not_or,
      not_not] at hleap
    omega

/-- The length of a year, from its months. -/
theorem daysBeforeMonth_december (year : Int) :
    daysBeforeMonth year 12 + 31 = 365 + leapDay year := by
  simp only [daysBeforeMonth, daysInMonth]
  omega

/-- A year is as long as its twelve months. -/
theorem daysBeforeYear_succ (year : Int) :
    daysBeforeYear (year + 1) = daysBeforeYear year + (daysBeforeMonth year 12 + 31 : Nat) := by
  have hleap := leapDay_eq year
  rw [daysBeforeMonth_december]
  unfold daysBeforeYear
  push_cast
  rw [hleap, add_sub_cancel_right]
  omega

/-- Counted from March, the days before a month follow one rule: `153` days for
five months.  The leap day is the last one. -/
theorem daysBefore_march (year : Int) {month : Nat} (hpos : 1 ≤ month) (hle : month ≤ 12) :
    daysBeforeYear year + daysBeforeMonth year month =
      daysBeforeYear (if month ≤ 2 then year else year + 1) - 306 +
        ((153 * ((month + 9) % 12) + 2) / 5 : Nat) := by
  have hyear := daysBeforeYear_succ year
  split_ifs with hmonth
  · interval_cases month
    all_goals
      simp only [daysBeforeMonth, daysInMonth]
      omega
  · interval_cases month
    all_goals
      simp only [daysBeforeMonth, daysInMonth] at hyear ⊢
      omega

/-! ## Dates -/

structure Date where
  year : Int
  month : Nat
  day : Nat
  one_le_month : 1 ≤ month
  month_le : month ≤ 12
  one_le_day : 1 ≤ day
  day_le : day ≤ daysInMonth year month
deriving DecidableEq, Repr

/-- The date of these fields, if there is one. -/
def Date.of? (year : Int) (month day : Nat) : Option Date :=
  if h : 1 ≤ month ∧ month ≤ 12 ∧ 1 ≤ day ∧ day ≤ daysInMonth year month then
    some ⟨year, month, day, h.1, h.2.1, h.2.2.1, h.2.2.2⟩
  else none

theorem Date.of?_eq (d : Date) : Date.of? d.year d.month d.day = some d :=
  dif_pos ⟨d.one_le_month, d.month_le, d.one_le_day, d.day_le⟩

/-- The days from 1970-01-01 to a date. -/
def Date.dayNumber (d : Date) : Int :=
  daysBeforeYear d.year + daysBeforeMonth d.year d.month + (d.day - 1) - epochDays

end Foundation.Calendar
