import Fcore.Lib.Calendar

/-!
# Dates of a range of years

A date library represents the dates of finitely many years, and an operation whose result
is outside gives no date. `YearRange` is such a range; its months are the months of the
calendar from the first of the first year to the last of the last.
-/

namespace Fcore

namespace Calendar

structure YearRange where
  first : ℤ
  last : ℤ
  deriving DecidableEq, Repr

namespace YearRange

variable (range : YearRange)

def firstMonth : ℤ := monthIndex range.first 1

def lastMonth : ℤ := monthIndex range.last 12

/-- The date with the given year, month and day, if there is one in the range. -/
def fromYmdOpt (year month day : ℤ) : Option ℤ :=
  if range.first ≤ year ∧ year ≤ range.last ∧ 1 ≤ month ∧ month ≤ 12 ∧ 1 ≤ day ∧
      day ≤ monthStart (monthIndex year month + 1) - monthStart (monthIndex year month) then
    some (fromYmd year month day)
  else none

def predOpt (d : ℤ) : Option ℤ := if monthStart range.firstMonth < d then some (d - 1) else none

variable {range}

theorem fromYmdOpt_eq_some {year month day : ℤ} (hmonth : 1 ≤ month ∧ month ≤ 12)
    (hfirst : range.firstMonth ≤ monthIndex year month)
    (hlast : monthIndex year month ≤ range.lastMonth)
    (hday : 1 ≤ day ∧
      day ≤ monthStart (monthIndex year month + 1) - monthStart (monthIndex year month)) :
    range.fromYmdOpt year month day = some (fromYmd year month day) := by
  unfold firstMonth monthIndex at hfirst
  unfold lastMonth monthIndex at hlast
  rw [fromYmdOpt, if_pos]
  exact ⟨by omega, by omega, hmonth.1, hmonth.2, hday.1, hday.2⟩

/-- The first of a month is a date exactly if the range has the month. -/
theorem fromYmdOpt_one {year month : ℤ} (hmonth : 1 ≤ month ∧ month ≤ 12) :
    range.fromYmdOpt year month 1 =
      if range.firstMonth ≤ monthIndex year month ∧ monthIndex year month ≤ range.lastMonth then
        some (monthStart (monthIndex year month))
      else none := by
  have hlength := (monthStart_succ_bounds (monthIndex year month)).1
  split
  · rename_i hrange
    rw [fromYmdOpt_eq_some hmonth hrange.1 hrange.2 ⟨le_rfl, by omega⟩, fromYmd, sub_self, add_zero]
  · rename_i hrange
    unfold firstMonth lastMonth monthIndex at hrange
    rw [fromYmdOpt, if_neg]
    rintro ⟨hfirst, hlast, -⟩
    exact hrange ⟨by omega, by omega⟩

theorem predOpt_monthStart (k : ℤ) :
    range.predOpt (monthStart k) =
      if range.firstMonth < k then some (monthStart k - 1) else none := by
  rw [predOpt]
  simp only [monthStart_strictMono.lt_iff_lt]

end YearRange

end Calendar

end Fcore
