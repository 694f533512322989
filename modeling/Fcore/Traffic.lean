import Fcore.Lib.Calendar
import Fcore.Memory.Subscription
import Fcore.Metrics.Storage

/-!
# Traffic windows

The traffic of a connection between two instants is read from the metric store
in windows cut at midnights and at the monthly anchors of the subscription: the
day of the month and the time of day of its creation, moved to the last day of a
month that is too short.

Both kinds of edge are strictly increasing sequences, and the two loops of
`connectionDeltasBetween` collect exactly the edges of their range.
-/

namespace Fcore

namespace Traffic

def date (t : DateTime) : ℤ := t / dayNanos

def timeOfDay (t : DateTime) : ℤ := t % dayNanos

def dayStart (t : DateTime) : DateTime := date t * dayNanos

def daysInMonth (year month : ℤ) : ℤ :=
  let nextMonthFirst :=
    if month = 12 then Calendar.fromYmd (year + 1) 1 1 else Calendar.fromYmd year (month + 1) 1
  Calendar.day (nextMonthFirst - 1)

def buildAnchor (year month day time : ℤ) : DateTime :=
  let d := min day (daysInMonth year month)
  Calendar.fromYmd year month d * dayNanos + time

/-- The anchor in the month before the one of a date. -/
def previousAnchor (createdAt : DateTime) (d : ℤ) : DateTime :=
  let year := Calendar.year d
  let month := Calendar.month d
  let prev := if month = 1 then (year - 1, 12) else (year, month - 1)
  buildAnchor prev.1 prev.2 (Calendar.day (date createdAt)) (timeOfDay createdAt)

def monthlyAnchor (createdAt now : DateTime) : DateTime :=
  let anchor := buildAnchor (Calendar.year (date now)) (Calendar.month (date now))
    (Calendar.day (date createdAt)) (timeOfDay createdAt)
  if now < anchor then previousAnchor createdAt (date now) else anchor

def prevMonthlyAnchor (createdAt anchor : DateTime) : DateTime :=
  previousAnchor createdAt (date anchor)

/-- The two loops take a turn for an edge, and edges of one kind are at least a
day apart. -/
def maxTurns (lo hi : DateTime) : ℕ := ((hi - lo) / dayNanos).toNat + 1

/-- The midnights and the monthly anchors in `(lo, hi]`. -/
def boundaries (createdAt lo hi : DateTime) : List DateTime :=
  Timeline.walkDown (fun d => d - dayNanos) lo hi (maxTurns lo hi) (dayStart hi) ++
    Timeline.walkDown (prevMonthlyAnchor createdAt) lo hi (maxTurns lo hi)
      (monthlyAnchor createdAt hi)

def points (createdAt lo hi : DateTime) : List DateTime :=
  sortDedup (· ≤ ·) (· = ·) (lo :: (sortDedup (· ≤ ·) (· = ·) (boundaries createdAt lo hi) ++ [hi]))

inductive Direction where
  | uplink
  | downlink
  deriving DecidableEq, Repr

namespace Direction

def metric : Direction → String
  | uplink => MetricStorage.uplinkMetric
  | downlink => MetricStorage.downlinkMetric

def ofPair : Direction → ℕ × ℕ → ℕ
  | uplink, delta => delta.1
  | downlink, delta => delta.2

end Direction

structure SegmentTraffic where
  dayBucket : DateTime
  monthBucket : DateTime
  uplink : ℕ
  downlink : ℕ
  deriving DecidableEq, Repr

def SegmentTraffic.bytes (segment : SegmentTraffic) : Direction → ℕ
  | .uplink => segment.uplink
  | .downlink => segment.downlink

def timestampMillis (t : DateTime) : ℤ := t / 1000000

/-- The turn of the loop for one window: the segment it pushes, if any. -/
def windowSegment (metrics : MetricStorage) (connId : Uuid) (createdAt : DateTime)
    (window : DateTime × DateTime) : Option SegmentTraffic :=
  let delta := metrics.getConnectionDeltaTraffic connId (timestampMillis window.1)
    (timestampMillis window.2)
  if delta = (0, 0) then none
  else some
    { dayBucket := dayStart window.2
      monthBucket := monthlyAnchor createdAt window.2
      uplink := delta.1
      downlink := delta.2 }

def connectionDeltasBetween (metrics : MetricStorage) (connId : Uuid)
    (createdAt lo hi : DateTime) : List SegmentTraffic :=
  if hi ≤ lo then []
  else (Timeline.windows (points createdAt lo hi)).filterMap
    (windowSegment metrics connId createdAt)

variable {t createdAt : DateTime}

section Edges

theorem dayNanos_pos : 0 < dayNanos := by decide

def midnight (k : ℤ) : DateTime := k * dayNanos

theorem midnight_step (k : ℤ) : midnight k + dayNanos ≤ midnight (k + 1) := by
  unfold midnight
  linarith

theorem midnight_strictMono : StrictMono midnight :=
  strictMono_int_of_lt_succ fun k => by linarith [midnight_step k, dayNanos_pos]

theorem isFloor_dayStart (t : DateTime) : Timeline.IsFloor midnight t (dayStart t) := by
  refine ⟨date t, rfl, ?_, ?_⟩
  · exact Int.ediv_mul_le t dayNanos_pos.ne'
  · exact Int.lt_ediv_add_one_mul_self t dayNanos_pos

def anchorAt (createdAt : DateTime) (k : ℤ) : DateTime :=
  (Calendar.monthStart k + (min (Calendar.day (date createdAt))
    (Calendar.monthStart (k + 1) - Calendar.monthStart k) - 1)) * dayNanos + timeOfDay createdAt

theorem timeOfDay_bounds (t : DateTime) : 0 ≤ timeOfDay t ∧ timeOfDay t < dayNanos :=
  ⟨Int.emod_nonneg t dayNanos_pos.ne', Int.emod_lt_of_pos t dayNanos_pos⟩

theorem date_add_time {d time : ℤ} (h : 0 ≤ time ∧ time < dayNanos) :
    date (d * dayNanos + time) = d := by
  rw [date, add_comm, Int.add_mul_ediv_right _ _ dayNanos_pos.ne', Int.ediv_eq_zero_of_lt h.1 h.2,
    zero_add]

theorem daysInMonth_eq {year month : ℤ} :
    daysInMonth year month = Calendar.monthStart (Calendar.monthIndex year month + 1) -
      Calendar.monthStart (Calendar.monthIndex year month) := by
  have hnext : (if month = 12 then Calendar.fromYmd (year + 1) 1 1
      else Calendar.fromYmd year (month + 1) 1) =
        Calendar.monthStart (Calendar.monthIndex year month + 1) := by
    unfold Calendar.fromYmd Calendar.monthIndex
    split
    · rename_i h
      rw [h, sub_self, add_zero, show 12 * (year + 1) + 1 - 3 = 12 * year + 12 - 3 + 1 by omega]
    · rw [sub_self, add_zero, show 12 * year + (month + 1) - 3 = 12 * year + month - 3 + 1 by omega]
  simp only [daysInMonth, hnext, Calendar.day_monthStart_sub_one]

theorem buildAnchor_eq (createdAt : DateTime) (year month : ℤ) :
    buildAnchor year month (Calendar.day (date createdAt)) (timeOfDay createdAt) =
      anchorAt createdAt (Calendar.monthIndex year month) := by
  rw [buildAnchor, anchorAt, daysInMonth_eq, Calendar.fromYmd]

theorem monthOf_anchorAt (createdAt : DateTime) (k : ℤ) :
    Calendar.monthOf (date (anchorAt createdAt k)) = k := by
  have hday := Calendar.day_pos (date createdAt)
  have hmonth := (Calendar.monthStart_succ_bounds k).1
  rw [anchorAt, date_add_time (timeOfDay_bounds createdAt), Calendar.monthOf_eq_iff]
  omega

theorem previousAnchor_eq (createdAt : DateTime) (d : ℤ) :
    previousAnchor createdAt d = anchorAt createdAt (Calendar.monthOf d - 1) := by
  unfold previousAnchor
  rw [buildAnchor_eq]
  congr 1
  rw [← Calendar.monthIndex_year_month]
  split
  · rename_i h
    simp only [Calendar.monthIndex, h]
    omega
  · simp only [Calendar.monthIndex]
    omega

theorem anchorAt_step (createdAt : DateTime) (k : ℤ) :
    anchorAt createdAt k + dayNanos ≤ anchorAt createdAt (k + 1) := by
  have hday := Calendar.day_pos (date createdAt)
  have hmonth := (Calendar.monthStart_succ_bounds (k + 1)).1
  unfold anchorAt
  have hdates : Calendar.monthStart k + (min (Calendar.day (date createdAt))
      (Calendar.monthStart (k + 1) - Calendar.monthStart k) - 1) + 1 ≤
      Calendar.monthStart (k + 1) + (min (Calendar.day (date createdAt))
        (Calendar.monthStart (k + 1 + 1) - Calendar.monthStart (k + 1)) - 1) := by omega
  have := mul_le_mul_of_nonneg_right hdates dayNanos_pos.le
  linarith

theorem anchorAt_strictMono (createdAt : DateTime) : StrictMono (anchorAt createdAt) :=
  strictMono_int_of_lt_succ fun k => by linarith [anchorAt_step createdAt k, dayNanos_pos]

theorem prevMonthlyAnchor_anchorAt (createdAt : DateTime) (k : ℤ) :
    prevMonthlyAnchor createdAt (anchorAt createdAt k) = anchorAt createdAt (k - 1) := by
  rw [prevMonthlyAnchor, previousAnchor_eq, monthOf_anchorAt]

theorem lt_of_date_lt {t' : DateTime} (h : date t < date t') : t < t' :=
  lt_of_not_ge fun hle => absurd (Int.ediv_le_ediv dayNanos_pos hle) (not_le.mpr h)

theorem anchorAt_lt_of_month_lt {k : ℤ} (h : k < Calendar.monthOf (date t)) :
    anchorAt createdAt k < t := by
  have hanchor := (Calendar.monthOf_spec (date (anchorAt createdAt k))).2
  rw [monthOf_anchorAt] at hanchor
  have hmonths : Calendar.monthStart (k + 1) ≤ Calendar.monthStart (Calendar.monthOf (date t)) :=
    Calendar.monthStart_strictMono.monotone (by omega)
  exact lt_of_date_lt (by linarith [(Calendar.monthOf_spec (date t)).1])

theorem lt_anchorAt_of_month_lt {k : ℤ} (h : Calendar.monthOf (date t) < k) :
    t < anchorAt createdAt k := by
  have hanchor := (Calendar.monthOf_spec (date (anchorAt createdAt k))).1
  rw [monthOf_anchorAt] at hanchor
  have hmonths : Calendar.monthStart (Calendar.monthOf (date t) + 1) ≤ Calendar.monthStart k :=
    Calendar.monthStart_strictMono.monotone (by omega)
  exact lt_of_date_lt (by linarith [(Calendar.monthOf_spec (date t)).2])

theorem isFloor_monthlyAnchor (createdAt now : DateTime) :
    Timeline.IsFloor (anchorAt createdAt) now (monthlyAnchor createdAt now) := by
  unfold monthlyAnchor
  simp only [buildAnchor_eq, Calendar.monthIndex_year_month, previousAnchor_eq]
  split
  · rename_i hlate
    exact ⟨_, rfl, (anchorAt_lt_of_month_lt (by omega)).le, by simpa using hlate⟩
  · rename_i hearly
    exact ⟨_, rfl, not_lt.mp hearly, lt_anchorAt_of_month_lt (by omega)⟩

def IsBoundary (createdAt t : DateTime) : Prop :=
  dayStart t = t ∨ monthlyAnchor createdAt t = t

instance decidableIsBoundary (createdAt t : DateTime) : Decidable (IsBoundary createdAt t) :=
  inferInstanceAs (Decidable (_ ∨ _))

theorem dayStart_eq_self_iff : dayStart t = t ↔ ∃ k, t = midnight k := by
  constructor
  · intro h
    exact ⟨date t, h.symm⟩
  · rintro ⟨k, rfl⟩
    exact (isFloor_dayStart _).unique midnight_strictMono (.of_edge midnight_strictMono k)

theorem monthlyAnchor_eq_self_iff :
    monthlyAnchor createdAt t = t ↔ ∃ k, t = anchorAt createdAt k := by
  constructor
  · intro h
    obtain ⟨k, hk, -⟩ := isFloor_monthlyAnchor createdAt t
    exact ⟨k, h.symm.trans hk⟩
  · rintro ⟨k, rfl⟩
    exact (isFloor_monthlyAnchor createdAt _).unique (anchorAt_strictMono createdAt)
      (.of_edge (anchorAt_strictMono createdAt) k)

theorem le_maxTurns_mul (lo hi : DateTime) : hi - lo ≤ maxTurns lo hi * dayNanos := by
  have hlt : hi - lo < ((hi - lo) / dayNanos + 1) * dayNanos :=
    Int.lt_ediv_add_one_mul_self _ dayNanos_pos
  have hturns : (hi - lo) / dayNanos + 1 ≤ maxTurns lo hi := by
    exact Int.add_le_add_right (Int.self_le_toNat _) 1
  exact hlt.le.trans (mul_le_mul_of_nonneg_right hturns dayNanos_pos.le)

theorem mem_boundaries {lo hi : DateTime} :
    t ∈ boundaries createdAt lo hi ↔ lo < t ∧ t ≤ hi ∧ IsBoundary createdAt t := by
  have hprev : ∀ k, midnight k - dayNanos = midnight (k - 1) := fun k => by
    unfold midnight
    ring
  rw [boundaries, List.mem_append,
    (isFloor_dayStart hi).mem_walkDown dayNanos_pos midnight_step hprev (le_maxTurns_mul lo hi),
    (isFloor_monthlyAnchor createdAt hi).mem_walkDown dayNanos_pos (anchorAt_step createdAt)
      (prevMonthlyAnchor_anchorAt createdAt) (le_maxTurns_mul lo hi),
    IsBoundary, dayStart_eq_self_iff, monthlyAnchor_eq_self_iff]
  tauto

theorem mem_points {lo hi : DateTime} :
    t ∈ points createdAt lo hi ↔ t = lo ∨ (lo < t ∧ t ≤ hi ∧ IsBoundary createdAt t) ∨ t = hi := by
  simp [points, mem_boundaries]

theorem pairwise_points (createdAt lo hi : DateTime) :
    (points createdAt lo hi).Pairwise (· < ·) :=
  byKey_id.pairwise_sortDedup _

end Edges

end Traffic

end Fcore
