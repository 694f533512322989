import Mathlib.Algebra.Order.Group.Unbundled.Int
import Mathlib.Data.Option.Basic

/-!
# Bounded time

A date library represents durations and instants in fixed ranges, and an operation whose
result lies outside does not return. Instants and durations are integers in one unit of
time; a duration is made from a number of days, whose length is a parameter. `none` is the
operation that does not return.
-/

namespace Fcore

/-- The largest number of days of a duration, either way, and the first and the last
instant. -/
structure TimeRange where
  maxDays : ℤ
  minInstant : ℤ
  maxInstant : ℤ
  deriving DecidableEq, Repr

namespace TimeRange

variable (range : TimeRange)

def Representable (t : ℤ) : Prop := range.minInstant ≤ t ∧ t ≤ range.maxInstant

instance decidableRepresentable (t : ℤ) : Decidable (range.Representable t) :=
  inferInstanceAs (Decidable (_ ∧ _))

def days (day n : ℤ) : Option ℤ :=
  if |n| ≤ range.maxDays then some (n * day) else none

def add (t d : ℤ) : Option ℤ :=
  if range.Representable (t + d) then some (t + d) else none

def addDays (day t n : ℤ) : Option ℤ := (range.days day n).bind (range.add t)

def Fits (day t n : ℤ) : Prop := |n| ≤ range.maxDays ∧ range.Representable (t + n * day)

variable {range} {day t n : ℤ}

theorem addDays_eq_some_iff {t' : ℤ} :
    range.addDays day t n = some t' ↔ range.Fits day t n ∧ t' = t + n * day := by
  unfold addDays days add Fits
  by_cases hdays : |n| ≤ range.maxDays
  · by_cases hrep : range.Representable (t + n * day)
    · simp [hdays, hrep, eq_comm]
    · simp [hdays, hrep]
  · simp [hdays]

theorem addDays_isSome_iff : (range.addDays day t n).isSome ↔ range.Fits day t n := by
  rw [Option.isSome_iff_exists]
  constructor
  · rintro ⟨t', h⟩
    exact (addDays_eq_some_iff.mp h).1
  · intro h
    exact ⟨_, addDays_eq_some_iff.mpr ⟨h, rfl⟩⟩

end TimeRange

end Fcore
