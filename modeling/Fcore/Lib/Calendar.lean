import Mathlib.Data.Int.ConditionallyCompleteOrder
import Mathlib.Order.SuccPred.IntervalSucc
import Mathlib.Order.Interval.Set.Basic
import Mathlib.Order.Monotone.Basic

/-!
# The Gregorian calendar

Days are integers counted from 1 January 1970. Months are integers too, one
sequence through all years: month `12 * y` is March of the year `y`. Beginning
the year in March puts the leap day at its end, so the first day of a month is a
formula in divisions by constants.

`monthStart` is strictly increasing, and `monthOf` finds the month of a day by an
estimate that is off by at most one. Everything else about months follows from
`monthOf_eq_iff`.
-/

namespace Fcore

namespace Calendar

/-- The first day of a month. -/
def monthStart (k : ℤ) : ℤ :=
  365 * (k / 12) + k / 12 / 4 - k / 12 / 100 + k / 12 / 400 + (153 * (k % 12) + 2) / 5 - 719468

theorem monthStart_succ_bounds (k : ℤ) :
    monthStart k + 28 ≤ monthStart (k + 1) ∧ monthStart (k + 1) ≤ monthStart k + 31 := by
  have hyear : ∀ y : ℤ, y / 100 = y / 4 / 25 ∧ y / 400 = y / 4 / 25 / 4 := by omega
  unfold monthStart
  rw [(hyear (k / 12)).1, (hyear (k / 12)).2, (hyear ((k + 1) / 12)).1, (hyear ((k + 1) / 12)).2]
  by_cases hlast : k % 12 = 11
  · rw [show (k + 1) / 12 = k / 12 + 1 by omega, show (k + 1) % 12 = 0 by omega, hlast]
    omega
  · rw [show (k + 1) / 12 = k / 12 by omega, show (k + 1) % 12 = k % 12 + 1 by omega]
    omega

theorem monthStart_strictMono : StrictMono monthStart :=
  strictMono_int_of_lt_succ fun k => by have := (monthStart_succ_bounds k).1; omega

def monthEstimate (d : ℤ) : ℤ := (d + 719468) * 4800 / 146097

theorem monthEstimate_bounds (d : ℤ) :
    monthStart (monthEstimate d - 1) ≤ d ∧ d < monthStart (monthEstimate d + 2) := by
  unfold monthStart monthEstimate
  omega

def monthOf (d : ℤ) : ℤ :=
  let k := monthEstimate d
  if d < monthStart k then k - 1 else if monthStart (k + 1) ≤ d then k + 1 else k

theorem monthOf_spec (d : ℤ) : monthStart (monthOf d) ≤ d ∧ d < monthStart (monthOf d + 1) := by
  obtain ⟨hlow, hhigh⟩ := monthEstimate_bounds d
  unfold monthOf
  simp only
  split
  · exact ⟨hlow, by simpa⟩
  split
  · exact ⟨by assumption, by simpa [Int.add_assoc] using hhigh⟩
  · exact ⟨by omega, by omega⟩

theorem monthOf_eq_iff {d k : ℤ} :
    monthOf d = k ↔ monthStart k ≤ d ∧ d < monthStart (k + 1) := by
  constructor
  · rintro rfl
    exact monthOf_spec d
  · rintro ⟨hlow, hhigh⟩
    obtain ⟨hlow', hhigh'⟩ := monthOf_spec d
    have hle : monthOf d < k + 1 := monthStart_strictMono.lt_iff_lt.mp (hlow'.trans_lt hhigh)
    have hge : k < monthOf d + 1 := monthStart_strictMono.lt_iff_lt.mp (hlow.trans_lt hhigh')
    omega

def monthIndex (year month : ℤ) : ℤ := 12 * year + month - 3

def year (d : ℤ) : ℤ := (monthOf d + 2) / 12

def month (d : ℤ) : ℤ := (monthOf d + 2) % 12 + 1

def day (d : ℤ) : ℤ := d - monthStart (monthOf d) + 1

def fromYmd (year month day : ℤ) : ℤ := monthStart (monthIndex year month) + (day - 1)

@[simp] theorem monthIndex_year_month (d : ℤ) : monthIndex (year d) (month d) = monthOf d := by
  unfold monthIndex year month
  omega

theorem day_pos (d : ℤ) : 1 ≤ day d := by
  have := (monthOf_spec d).1
  unfold day
  omega

theorem day_monthStart_sub_one (k : ℤ) :
    day (monthStart (k + 1) - 1) = monthStart (k + 1) - monthStart k := by
  have hk : monthOf (monthStart (k + 1) - 1) = k := by
    have := (monthStart_succ_bounds k).1
    exact monthOf_eq_iff.mpr ⟨by omega, by omega⟩
  rw [day, hk]
  omega

example : fromYmd 1970 1 1 = 0 ∧ fromYmd 2024 2 29 = 19782 ∧ fromYmd 2024 3 1 = 19783 := by decide

example : (year 19782, month 19782, day 19782) = (2024, 2, 29) := by decide

end Calendar

end Fcore
