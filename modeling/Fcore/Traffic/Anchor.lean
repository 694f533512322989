import Fcore.Lib.CalendarRange
import Fcore.Traffic

/-!
# Monthly anchors in a range of years

The date library represents a range of years, and the code takes the dates it asks for to
exist. To find the length of a month it asks for the first of the next one, so it has no
anchor in the last month of the range, and none before the first.

Everywhere else the anchors are those of the unbounded calendar, so the laws of the
calendar carry over: the monthly anchor is the last one not after an instant, the previous
anchor is the last one before, and the loops over both kinds of edge end with exactly the
edges of their range.
-/

namespace Fcore

namespace Traffic

def chronoYears : Calendar.YearRange := ⟨-262143, 262142⟩

section Definitions

variable (range : Calendar.YearRange)

def daysInMonth? (year month : ℤ) : Option ℤ :=
  let nextMonthFirst :=
    if month = 12 then range.fromYmdOpt (year + 1) 1 1 else range.fromYmdOpt year (month + 1) 1
  (nextMonthFirst.bind range.predOpt).map Calendar.day

def buildAnchor? (year month day time : ℤ) : Option DateTime :=
  (daysInMonth? range year month).bind fun lastDay =>
    (range.fromYmdOpt year month (min day lastDay)).map fun d => d * dayNanos + time

/-- The anchor in the month before the one of a date. -/
def previousAnchor? (createdAt : DateTime) (d : ℤ) : Option DateTime :=
  let year := Calendar.year d
  let month := Calendar.month d
  let prev := if month = 1 then (year - 1, 12) else (year, month - 1)
  buildAnchor? range prev.1 prev.2 (Calendar.day (date createdAt)) (timeOfDay createdAt)

def monthlyAnchor? (createdAt now : DateTime) : Option DateTime :=
  (buildAnchor? range (Calendar.year (date now)) (Calendar.month (date now))
    (Calendar.day (date createdAt)) (timeOfDay createdAt)).bind fun anchor =>
      if now < anchor then previousAnchor? range createdAt (date now) else some anchor

def prevMonthlyAnchor? (createdAt anchor : DateTime) : Option DateTime :=
  previousAnchor? range createdAt (date anchor)

def dayBefore? (t : DateTime) : Option DateTime :=
  if Calendar.monthStart range.firstMonth * dayNanos ≤ t - dayNanos then some (t - dayNanos)
  else none

/-- The two loops of `connectionDeltasBetween`, each with the given number of turns. -/
def boundaries? (createdAt lo hi : DateTime) (turns : ℕ) : Option (List DateTime) :=
  (Timeline.descend (dayBefore? range) lo hi turns (dayStart hi)).bind fun midnights =>
    (monthlyAnchor? range createdAt hi).bind fun anchor =>
      (Timeline.descend (prevMonthlyAnchor? range createdAt) lo hi turns anchor).map
        fun anchors => midnights ++ anchors

/-- An instant `build_anchor` gives for the day and the time of a creation. -/
def IsAnchor (createdAt t : DateTime) : Prop :=
  ∃ year month, buildAnchor? range year month (Calendar.day (date createdAt))
    (timeOfDay createdAt) = some t

end Definitions

variable {d k : ℤ}

section Anchors

variable {range : Calendar.YearRange} {createdAt t : DateTime}

theorem daysInMonth?_eq {year month : ℤ} (hmonth : 1 ≤ month ∧ month ≤ 12) :
    daysInMonth? range year month =
      if range.firstMonth ≤ Calendar.monthIndex year month ∧
          Calendar.monthIndex year month < range.lastMonth then
        some (daysInMonth year month)
      else none := by
  have hnext : (if month = 12 then range.fromYmdOpt (year + 1) 1 1
      else range.fromYmdOpt year (month + 1) 1) =
        if range.firstMonth ≤ Calendar.monthIndex year month + 1 ∧
            Calendar.monthIndex year month + 1 ≤ range.lastMonth then
          some (Calendar.monthStart (Calendar.monthIndex year month + 1))
        else none := by
    by_cases hlast : month = 12
    · have hindex : Calendar.monthIndex (year + 1) 1 = Calendar.monthIndex year month + 1 := by
        unfold Calendar.monthIndex
        omega
      rw [if_pos hlast, Calendar.YearRange.fromYmdOpt_one (by decide), hindex]
    · have hindex : Calendar.monthIndex year (month + 1) = Calendar.monthIndex year month + 1 := by
        unfold Calendar.monthIndex
        omega
      rw [if_neg hlast, Calendar.YearRange.fromYmdOpt_one (by omega), hindex]
  unfold daysInMonth?
  dsimp only
  rw [hnext, daysInMonth_eq]
  by_cases hrange : range.firstMonth ≤ Calendar.monthIndex year month ∧
      Calendar.monthIndex year month < range.lastMonth
  · rw [if_pos hrange, if_pos (by omega), Option.bind_some,
      Calendar.YearRange.predOpt_monthStart, if_pos (by omega), Option.map_some,
      Calendar.day_monthStart_sub_one]
  · split
    · rw [Option.bind_some, Calendar.YearRange.predOpt_monthStart, if_neg (by omega),
        Option.map_none]
    · rfl

theorem buildAnchor?_eq_some {year month : ℤ} :
    buildAnchor? range year month (Calendar.day (date createdAt)) (timeOfDay createdAt) = some t ↔
      (1 ≤ month ∧ month ≤ 12) ∧ (range.firstMonth ≤ Calendar.monthIndex year month ∧
        Calendar.monthIndex year month < range.lastMonth) ∧
        t = anchorAt createdAt (Calendar.monthIndex year month) := by
  by_cases hmonth : 1 ≤ month ∧ month ≤ 12
  · rw [buildAnchor?, daysInMonth?_eq hmonth]
    by_cases hrange : range.firstMonth ≤ Calendar.monthIndex year month ∧
        Calendar.monthIndex year month < range.lastMonth
    · have hday := Calendar.day_pos (date createdAt)
      have hlength := (Calendar.monthStart_succ_bounds (Calendar.monthIndex year month)).1
      have hdays : 1 ≤ min (Calendar.day (date createdAt)) (daysInMonth year month) ∧
          min (Calendar.day (date createdAt)) (daysInMonth year month) ≤
            Calendar.monthStart (Calendar.monthIndex year month + 1) -
              Calendar.monthStart (Calendar.monthIndex year month) := by
        rw [daysInMonth_eq]
        omega
      rw [if_pos hrange, Option.bind_some,
        Calendar.YearRange.fromYmdOpt_eq_some hmonth hrange.1 hrange.2.le hdays, Option.map_some,
        Option.some_inj, ← buildAnchor_eq]
      simp only [hmonth, hrange, and_self, true_and]
      exact eq_comm
    · simp [hrange]
  · have hnone : ∀ day, range.fromYmdOpt year month day = none := by
      intro day
      rw [Calendar.YearRange.fromYmdOpt, if_neg]
      rintro ⟨-, -, hlow, hhigh, -⟩
      exact hmonth ⟨hlow, hhigh⟩
    simp [buildAnchor?, hnone, hmonth]

theorem isAnchor_iff :
    IsAnchor range createdAt t ↔
      ∃ k, range.firstMonth ≤ k ∧ k < range.lastMonth ∧ t = anchorAt createdAt k := by
  constructor
  · rintro ⟨year, month, hbuild⟩
    obtain ⟨-, ⟨hfirst, hlast⟩, rfl⟩ := buildAnchor?_eq_some.mp hbuild
    exact ⟨_, hfirst, hlast, rfl⟩
  · rintro ⟨k, hfirst, hlast, rfl⟩
    have hindex : Calendar.monthIndex ((k + 2) / 12) ((k + 2) % 12 + 1) = k := by
      unfold Calendar.monthIndex
      omega
    refine ⟨(k + 2) / 12, (k + 2) % 12 + 1, buildAnchor?_eq_some.mpr ⟨by omega, ?_, ?_⟩⟩
    · rw [hindex]
      exact ⟨hfirst, hlast⟩
    · rw [hindex]

theorem buildAnchor?_date (hfirst : range.firstMonth ≤ Calendar.monthOf d)
    (hlast : Calendar.monthOf d < range.lastMonth) :
    buildAnchor? range (Calendar.year d) (Calendar.month d) (Calendar.day (date createdAt))
      (timeOfDay createdAt) = some (anchorAt createdAt (Calendar.monthOf d)) := by
  refine buildAnchor?_eq_some.mpr ⟨?_, ?_, ?_⟩
  · unfold Calendar.month
    omega
  · rw [Calendar.monthIndex_year_month]
    exact ⟨hfirst, hlast⟩
  · rw [Calendar.monthIndex_year_month]

theorem previousAnchor?_eq (hfirst : range.firstMonth < Calendar.monthOf d)
    (hlast : Calendar.monthOf d ≤ range.lastMonth) :
    previousAnchor? range createdAt d = some (anchorAt createdAt (Calendar.monthOf d - 1)) := by
  have hindex := Calendar.monthIndex_year_month d
  unfold Calendar.monthIndex at hindex
  have hmonth : 1 ≤ Calendar.month d ∧ Calendar.month d ≤ 12 := by
    unfold Calendar.month
    omega
  unfold previousAnchor?
  dsimp only
  split
  · have hprev : Calendar.monthIndex (Calendar.year d - 1) 12 = Calendar.monthOf d - 1 := by
      unfold Calendar.monthIndex
      omega
    refine buildAnchor?_eq_some.mpr ⟨by omega, ?_, ?_⟩
    · rw [hprev]
      omega
    · rw [hprev]
  · have hprev : Calendar.monthIndex (Calendar.year d) (Calendar.month d - 1) =
        Calendar.monthOf d - 1 := by
      unfold Calendar.monthIndex
      omega
    refine buildAnchor?_eq_some.mpr ⟨by omega, ?_, ?_⟩
    · rw [hprev]
      omega
    · rw [hprev]

theorem date_mono {t' : DateTime} (h : t ≤ t') : date t ≤ date t' :=
  Int.ediv_le_ediv dayNanos_pos h

theorem monthOf_mono {d' : ℤ} (h : d ≤ d') : Calendar.monthOf d ≤ Calendar.monthOf d' := by
  have hlow := (Calendar.monthOf_spec d).1
  have hhigh := (Calendar.monthOf_spec d').2
  have := Calendar.monthStart_strictMono.lt_iff_lt.mp (hlow.trans_lt (h.trans_lt hhigh))
  omega

theorem month_le_of_anchorAt_le (h : anchorAt createdAt k ≤ t) :
    k ≤ Calendar.monthOf (date t) := by
  simpa [monthOf_anchorAt] using monthOf_mono (date_mono h)

theorem monthlyAnchor?_eq {now : DateTime} (hfirst : anchorAt createdAt range.firstMonth ≤ now)
    (hlast : Calendar.monthOf (date now) < range.lastMonth) :
    monthlyAnchor? range createdAt now = some (monthlyAnchor createdAt now) := by
  have hmonth := month_le_of_anchorAt_le hfirst
  rw [monthlyAnchor?, buildAnchor?_date hmonth hlast, monthlyAnchor, buildAnchor_eq,
    Calendar.monthIndex_year_month, previousAnchor_eq, Option.bind_some]
  rcases hmonth.eq_or_lt with heq | hlt
  · rw [← heq, if_neg hfirst.not_gt, if_neg hfirst.not_gt]
  · rw [previousAnchor?_eq hlt hlast.le]
    exact (apply_ite some _ _ _).symm

theorem monthlyAnchor?_anchorAt (hfirst : range.firstMonth ≤ k) (hlast : k < range.lastMonth) :
    monthlyAnchor? range createdAt (anchorAt createdAt k) = some (anchorAt createdAt k) := by
  have hmonth := monthOf_anchorAt createdAt k
  rw [monthlyAnchor?, buildAnchor?_date (by rwa [hmonth]) (by rwa [hmonth]), Option.bind_some,
    hmonth, if_neg (lt_irrefl _)]

theorem prevMonthlyAnchor?_anchorAt (hfirst : range.firstMonth < k) (hlast : k ≤ range.lastMonth) :
    prevMonthlyAnchor? range createdAt (anchorAt createdAt k) =
      some (anchorAt createdAt (k - 1)) := by
  have hmonth := monthOf_anchorAt createdAt k
  rw [prevMonthlyAnchor?, previousAnchor?_eq (by rwa [hmonth]) (by rwa [hmonth]), hmonth]

end Anchors

section Loops

variable {range : Calendar.YearRange} {createdAt lo hi t : DateTime}

theorem dayBefore?_midnight (hfirst : range.firstMonth ≤ Calendar.monthOf (date lo))
    (hlo : lo < midnight k) : dayBefore? range (midnight k) = some (midnight (k - 1)) := by
  have hdate : date lo ≤ k - 1 := by
    have hlt : date lo * dayNanos < k * dayNanos :=
      (Int.ediv_mul_le lo dayNanos_pos.ne').trans_lt hlo
    have := lt_of_mul_lt_mul_right hlt dayNanos_pos.le
    omega
  have hmonth : Calendar.monthStart range.firstMonth ≤ date lo :=
    (Calendar.monthStart_strictMono.monotone hfirst).trans (Calendar.monthOf_spec (date lo)).1
  have hprev : midnight k - dayNanos = midnight (k - 1) := by
    unfold midnight
    ring
  rw [dayBefore?, hprev, if_pos]
  exact mul_le_mul_of_nonneg_right (hmonth.trans hdate) dayNanos_pos.le

/-- From the first anchor on and up to the last month the loops end, with the midnights and
the anchors of their range. -/
theorem boundaries?_spec (createdAt : DateTime) (hle : lo ≤ hi)
    (hfirst : anchorAt createdAt range.firstMonth ≤ lo)
    (hlast : Calendar.monthOf (date hi) < range.lastMonth) :
    ∃ collected, (∀ turns, maxTurns lo hi < turns →
        boundaries? range createdAt lo hi turns = some collected) ∧
      ∀ t, t ∈ collected ↔ lo < t ∧ t ≤ hi ∧ (dayStart t = t ∨ IsAnchor range createdAt t) := by
  have hprev : ∀ k, midnight k - dayNanos = midnight (k - 1) := fun k => by
    unfold midnight
    ring
  have hturns := le_maxTurns_mul lo hi
  have hafter : ∀ k, lo < anchorAt createdAt k → range.firstMonth < k := fun k hlo =>
    (anchorAt_strictMono createdAt).lt_iff_lt.mp (hfirst.trans_lt hlo)
  have hprev? : ∀ k, lo < anchorAt createdAt k → anchorAt createdAt k ≤ hi →
      prevMonthlyAnchor? range createdAt (anchorAt createdAt k) =
        some (anchorAt createdAt (k - 1)) := by
    intro k hlo hhi
    exact prevMonthlyAnchor?_anchorAt (hafter k hlo)
      ((month_le_of_anchorAt_le hhi).trans hlast.le)
  have hanchor : ∀ t, lo < t → t ≤ hi →
      ((∃ k, t = anchorAt createdAt k) ↔ IsAnchor range createdAt t) := by
    intro t hlo hhi
    rw [isAnchor_iff]
    constructor
    · rintro ⟨k, rfl⟩
      exact ⟨k, (hafter k hlo).le, (month_le_of_anchorAt_le hhi).trans_lt hlast, rfl⟩
    · rintro ⟨k, -, -, rfl⟩
      exact ⟨k, rfl⟩
  obtain ⟨midnights, hmids, hmem⟩ := (isFloor_dayStart hi).descend_spec (fun d => d - dayNanos)
    dayNanos_pos midnight_step hprev
    (fun k hlo _ => dayBefore?_midnight (month_le_of_anchorAt_le hfirst) hlo) hturns
  obtain ⟨anchors, hancs, hmem'⟩ := (isFloor_monthlyAnchor createdAt hi).descend_spec
    (prevMonthlyAnchor createdAt) dayNanos_pos (anchorAt_step createdAt)
    (prevMonthlyAnchor_anchorAt createdAt) hprev? hturns
  refine ⟨midnights ++ anchors, fun turns hlt => ?_, fun t => ?_⟩
  · rw [boundaries?, hmids turns hlt, Option.bind_some, monthlyAnchor?_eq (hfirst.trans hle) hlast,
      Option.bind_some, hancs turns hlt, Option.map_some]
  · rw [List.mem_append, hmem, hmem', ← dayStart_eq_self_iff]
    constructor
    · rintro (⟨hlo, hhi, hday⟩ | ⟨hlo, hhi, hk⟩)
      · exact ⟨hlo, hhi, .inl hday⟩
      · exact ⟨hlo, hhi, .inr ((hanchor t hlo hhi).mp hk)⟩
    · rintro ⟨hlo, hhi, hday | hanc⟩
      · exact .inl ⟨hlo, hhi, hday⟩
      · exact .inr ⟨hlo, hhi, (hanchor t hlo hhi).mpr hanc⟩

end Loops

/-- The law of the monthly anchors, for instants from the first anchor on and before the last
month of the range: the anchor of an instant is the last one not after it and its own anchor; the
previous anchor is the last one before it, unless it is in the first month; and the loops
over a period end with exactly its midnights and anchors. -/
theorem monthlyAnchor_law (range : Calendar.YearRange) (createdAt : DateTime) :
    (∀ now, anchorAt createdAt range.firstMonth ≤ now →
      Calendar.monthOf (date now) < range.lastMonth →
      ∃ a, monthlyAnchor? range createdAt now = some a ∧ a ≤ now ∧
        (∀ t, IsAnchor range createdAt t → ¬ (a < t ∧ t ≤ now)) ∧
        monthlyAnchor? range createdAt a = some a ∧
        (range.firstMonth < Calendar.monthOf (date a) →
          ∃ b, prevMonthlyAnchor? range createdAt a = some b ∧ IsAnchor range createdAt b ∧
            b < a ∧ ∀ t, IsAnchor range createdAt t → t < a → t ≤ b)) ∧
    ∀ lo hi, lo < hi → anchorAt createdAt range.firstMonth ≤ lo →
      Calendar.monthOf (date hi) < range.lastMonth →
      ∃ collected, (∀ turns, maxTurns lo hi < turns →
          boundaries? range createdAt lo hi turns = some collected) ∧
        ∀ t, t ∈ collected ↔
          lo < t ∧ t ≤ hi ∧ (dayStart t = t ∨ IsAnchor range createdAt t) := by
  refine ⟨fun now hfirst hlast => ?_, fun lo hi hlt hfirst hlast =>
    boundaries?_spec createdAt hlt.le hfirst hlast⟩
  have hmono := anchorAt_strictMono createdAt
  obtain ⟨k, hk, hle, hnext⟩ := isFloor_monthlyAnchor createdAt now
  have hlow : range.firstMonth ≤ k :=
    Int.lt_add_one_iff.mp (hmono.lt_iff_lt.mp (hfirst.trans_lt hnext))
  have hhigh : k < range.lastMonth := (month_le_of_anchorAt_le hle).trans_lt hlast
  refine ⟨anchorAt createdAt k, ?_, hle, ?_, monthlyAnchor?_anchorAt hlow hhigh, ?_⟩
  · rw [monthlyAnchor?_eq hfirst hlast, hk]
  · rintro t hanchor ⟨hlt, hle'⟩
    obtain ⟨j, -, -, rfl⟩ := isAnchor_iff.mp hanchor
    have hj := hmono.lt_iff_lt.mp hlt
    have hj' := hmono.lt_iff_lt.mp (hle'.trans_lt hnext)
    omega
  · rw [monthOf_anchorAt]
    intro hk'
    refine ⟨anchorAt createdAt (k - 1), prevMonthlyAnchor?_anchorAt hk' hhigh.le,
      isAnchor_iff.mpr ⟨k - 1, by omega, by omega, rfl⟩, hmono (by omega), ?_⟩
    intro t hanchor hlt
    obtain ⟨j, -, -, rfl⟩ := isAnchor_iff.mp hanchor
    have hj := hmono.lt_iff_lt.mp hlt
    exact hmono.monotone (by omega)

/-- A creation on 31 January 2024 and the first of March, whose anchor is the leap day. -/
theorem monthlyAnchor_law_leap_day :
    ∃ a, monthlyAnchor? chronoYears (19753 * dayNanos) (19783 * dayNanos) = some a ∧
      a ≤ 19783 * dayNanos ∧
      (∀ t, IsAnchor chronoYears (19753 * dayNanos) t → ¬ (a < t ∧ t ≤ 19783 * dayNanos)) ∧
      a = 19782 * dayNanos := by
  obtain ⟨a, hsome, hle, hlast, -⟩ := (monthlyAnchor_law chronoYears (19753 * dayNanos)).1
    (19783 * dayNanos) (by decide +kernel) (by decide +kernel)
  refine ⟨a, hsome, hle, hlast, ?_⟩
  have hvalue : monthlyAnchor? chronoYears (19753 * dayNanos) (19783 * dayNanos) =
      some (19782 * dayNanos) := by decide +kernel
  rw [hvalue, Option.some_inj] at hsome
  exact hsome.symm

/-- In the last month of the range there is no anchor: its length cannot be found. -/
theorem no_anchor_in_last_month :
    ¬ ∀ createdAt now : DateTime, (chronoYears.first ≤ Calendar.year (date createdAt) ∧
      Calendar.year (date createdAt) ≤ chronoYears.last) →
      (chronoYears.first ≤ Calendar.year (date now) ∧
        Calendar.year (date now) ≤ chronoYears.last) →
      ∃ a, monthlyAnchor? chronoYears createdAt now = some a ∧ a ≤ now := by
  intro h
  obtain ⟨a, hsome, -⟩ := h 0 (Calendar.fromYmd 262142 12 15 * dayNanos)
    (by decide +kernel) (by decide +kernel)
  have hnone : monthlyAnchor? chronoYears 0 (Calendar.fromYmd 262142 12 15 * dayNanos) = none := by
    decide +kernel
  rw [hnone] at hsome
  cases hsome

end Traffic

end Fcore
