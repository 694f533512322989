import Fcore.Traffic

/-!
# Which day and month a segment is booked on

A segment is booked on the day and the month of the right end of its window. For
the last window of a period that is the day and the month of its samples. Every
other window ends on a midnight or on a monthly anchor, where the next day or
month begins, so samples strictly inside such a window belong to the day or month
before the one they are booked on.
-/

namespace Fcore

namespace Traffic

def sampledAt (p : MetricPoint) : DateTime := p.timestamp * 1000000

/-- The samples the segment of a window is computed from. -/
def windowSamples (metrics : MetricStorage) (connId : Uuid) (window : DateTime × DateTime) :
    List MetricPoint :=
  (metrics.connSeries connId).flatMap
    (MetricStorage.inRange (timestampMillis window.1) (timestampMillis window.2))

/-- A sample with a timestamp strictly between the ends of a window. -/
def StrictlyInside (window : DateTime × DateTime) (p : MetricPoint) : Prop :=
  timestampMillis window.1 < p.timestamp ∧ p.timestamp < timestampMillis window.2

instance decidableStrictlyInside (window : DateTime × DateTime) (p : MetricPoint) :
    Decidable (StrictlyInside window p) :=
  inferInstanceAs (Decidable (_ ∧ _))

/-- Every segment with all its samples strictly inside its window is booked on
the day and the month of each of them. -/
def BookedExactly (metrics : MetricStorage) (connId : Uuid) (createdAt lo hi : DateTime) : Prop :=
  ∀ window ∈ Timeline.windows (points createdAt lo hi),
    ∀ segment ∈ windowSegment metrics connId createdAt window,
      (∀ p ∈ windowSamples metrics connId window, StrictlyInside window p) →
        ∀ p ∈ windowSamples metrics connId window,
          segment.dayBucket = dayStart (sampledAt p) ∧
            segment.monthBucket = monthlyAnchor createdAt (sampledAt p)

variable {t : DateTime}

section Windows

variable {metrics : MetricStorage} {connId : Uuid} {createdAt lo hi : DateTime}
  {window : DateTime × DateTime} {p : MetricPoint}

theorem mem_windowSamples : p ∈ windowSamples metrics connId window ↔
    ∃ series ∈ metrics.connSeries connId, p ∈ series ∧
      timestampMillis window.1 ≤ p.timestamp ∧ p.timestamp ≤ timestampMillis window.2 := by
  simp [windowSamples, MetricStorage.inRange, Timeline.within]

theorem StrictlyInside.lt_sampledAt (h : StrictlyInside window p) :
    window.1 < sampledAt p ∧ sampledAt p < window.2 := by
  obtain ⟨hlo, hhi⟩ := h
  unfold timestampMillis at hlo hhi
  unfold sampledAt
  constructor
  · have := Int.lt_ediv_add_one_mul_self window.1 (show (0 : ℤ) < 1000000 by decide)
    nlinarith
  · have := Int.ediv_mul_le window.2 (show (1000000 : ℤ) ≠ 0 by decide)
    nlinarith

theorem no_boundary_of_mem_windows (hlt : lo < hi)
    (hwindow : window ∈ Timeline.windows (points createdAt lo hi))
    (hend : ¬ IsBoundary createdAt window.2) (ht : IsBoundary createdAt t) :
    ¬ (window.1 < t ∧ t ≤ window.2) := by
  rintro ⟨hstart, hle⟩
  obtain ⟨hmem₁, hmem₂⟩ := Timeline.mem_of_mem_windows hwindow
  have hlo : lo ≤ window.1 := by
    rcases mem_points.mp hmem₁ with h | ⟨h, -⟩ | h
    · exact h.ge
    · exact h.le
    · exact h ▸ hlt.le
  have hhi : window.2 ≤ hi := by
    rcases mem_points.mp hmem₂ with h | ⟨-, h, -⟩ | h
    · exact h ▸ hlt.le
    · exact h
    · exact h.le
  have hpoint : t ∈ points createdAt lo hi :=
    mem_points.mpr (.inr (.inl ⟨hlo.trans_lt hstart, hle.trans hhi, ht⟩))
  rcases Timeline.le_or_le_of_mem_windows (pairwise_points createdAt lo hi) hwindow hpoint
    with hbefore | hafter
  · exact absurd hstart (not_lt.mpr hbefore)
  · exact hend (le_antisymm hle hafter ▸ ht)

/-- In a window that does not end on a boundary, every instant after the start
has the day and the month of the end. -/
theorem buckets_eq_of_not_boundary (hlt : lo < hi)
    (hwindow : window ∈ Timeline.windows (points createdAt lo hi))
    (hend : ¬ IsBoundary createdAt window.2) (hstart : window.1 < t) (hle : t ≤ window.2) :
    dayStart window.2 = dayStart t ∧
      monthlyAnchor createdAt window.2 = monthlyAnchor createdAt t := by
  have hnone : ∀ s, IsBoundary createdAt s → ¬ (t < s ∧ s ≤ window.2) := fun s hs h =>
    no_boundary_of_mem_windows hlt hwindow hend hs ⟨hstart.trans h.1, h.2⟩
  constructor
  · refine ((isFloor_dayStart t).eq_of_no_edge midnight_strictMono (isFloor_dayStart _) hle
      fun k => hnone _ (.inl ?_)).symm
    exact dayStart_eq_self_iff.mpr ⟨k, rfl⟩
  · refine ((isFloor_monthlyAnchor createdAt t).eq_of_no_edge (anchorAt_strictMono createdAt)
      (isFloor_monthlyAnchor createdAt _) hle fun k => hnone _ (.inr ?_)).symm
    exact monthlyAnchor_eq_self_iff.mpr ⟨k, rfl⟩

/-- At a window's end on a boundary a day or a month begins, so nothing before it
has both the day and the month of the end. -/
theorem buckets_ne_of_boundary (hend : IsBoundary createdAt window.2) (hlt : t < window.2) :
    ¬ (dayStart window.2 = dayStart t ∧
      monthlyAnchor createdAt window.2 = monthlyAnchor createdAt t) := by
  rintro ⟨hday, hmonth⟩
  rcases hend with h | h
  · exact absurd ((h.symm.trans hday).le.trans (isFloor_dayStart t).le) (not_le.mpr hlt)
  · exact absurd ((h.symm.trans hmonth).le.trans (isFloor_monthlyAnchor createdAt t).le)
      (not_le.mpr hlt)

end Windows

/-- Segments are booked on the day and month of their samples exactly when every
window that ends on a boundary and has growth has a sample on one of its ends. -/
theorem bookedExactly_iff (metrics : MetricStorage) (connId : Uuid) (createdAt lo hi : DateTime)
    (hlt : lo < hi) :
    BookedExactly metrics connId createdAt lo hi ↔
      ∀ window ∈ Timeline.windows (points createdAt lo hi), IsBoundary createdAt window.2 →
        metrics.getConnectionDeltaTraffic connId (timestampMillis window.1)
          (timestampMillis window.2) ≠ (0, 0) →
        ∃ p ∈ windowSamples metrics connId window,
          p.timestamp = timestampMillis window.1 ∨ p.timestamp = timestampMillis window.2 := by
  constructor
  · intro h window hwindow hend hgrowth
    by_contra hnone
    have hinside : ∀ p ∈ windowSamples metrics connId window, StrictlyInside window p := by
      intro p hp
      obtain ⟨-, -, -, hlo, hhi⟩ := mem_windowSamples.mp hp
      exact ⟨lt_of_le_of_ne hlo fun heq => hnone ⟨p, hp, .inl heq.symm⟩,
        lt_of_le_of_ne hhi fun heq => hnone ⟨p, hp, .inr heq⟩⟩
    obtain ⟨series, hseries, p, hp, hrange⟩ := MetricStorage.exists_sample hgrowth
    have hsample : p ∈ windowSamples metrics connId window :=
      mem_windowSamples.mpr ⟨series, hseries, hp, hrange⟩
    exact buckets_ne_of_boundary hend (hinside p hsample).lt_sampledAt.2
      (h window hwindow _ (if_neg hgrowth) hinside p hsample)
  · intro h window hwindow segment hsegment hinside p hp
    have hgrowth : metrics.getConnectionDeltaTraffic connId (timestampMillis window.1)
        (timestampMillis window.2) ≠ (0, 0) := by
      intro hzero
      simp [windowSegment, hzero] at hsegment
    obtain rfl : _ = segment := by simpa [windowSegment, hgrowth] using hsegment
    have hend : ¬ IsBoundary createdAt window.2 := by
      intro hboundary
      obtain ⟨q, hq, hside⟩ := h window hwindow hboundary hgrowth
      obtain ⟨hlo, hhi⟩ := hinside q hq
      omega
    obtain ⟨hstart, hle⟩ := (hinside p hp).lt_sampledAt
    exact buckets_eq_of_not_boundary hlt hwindow hend hstart hle.le

section Examples

def hourNanos : ℤ := 3600 * 1000000000

/-- One node reports the uplink of connection 5, at the given hours with the given
counter values. -/
def uplinkStore (samples : List (ℤ × ℚ)) : MetricStorage :=
  samples.foldl (fun m sample => m.insertEnvelope (fun _ _ => 1)
    { nodeId := 1
      name := MetricStorage.uplinkMetric
      value := sample.2
      timestamp := timestampMillis (sample.1 * hourNanos)
      tags := MetricStorage.connTags 5 }) (.new 100 1000000)

/-- Growth between 20:00 and 22:00, read at 23:00 of the same day, is booked on
that day. -/
theorem bookedExactly_same_day :
    BookedExactly (uplinkStore [(20, 0), (22, 100)]) 5 0 (12 * hourNanos) (23 * hourNanos) :=
  (bookedExactly_iff _ 5 0 (12 * hourNanos) (23 * hourNanos) (by decide)).mpr (by decide +kernel)

/-- The same growth read at noon of the next day is booked on the next day. -/
theorem not_bookedExactly_next_day :
    (connectionDeltasBetween (uplinkStore [(20, 0), (22, 100)]) 5 0 (12 * hourNanos)
      (36 * hourNanos)).map (fun segment => (segment.dayBucket, segment.uplink)) =
        [(24 * hourNanos, 100)] ∧
      dayStart (20 * hourNanos) = 0 ∧
      ¬ BookedExactly (uplinkStore [(20, 0), (22, 100)]) 5 0 (12 * hourNanos)
        (36 * hourNanos) := by
  refine ⟨by decide +kernel, by decide, fun h => ?_⟩
  have hwindow : (12 * hourNanos, 24 * hourNanos) ∈
      Timeline.windows (points 0 (12 * hourNanos) (36 * hourNanos)) := by decide +kernel
  have hbooked := h _ hwindow ⟨24 * hourNanos, 0, 100, 0⟩ (by decide +kernel) (by decide +kernel)
    ⟨timestampMillis (20 * hourNanos), 0⟩ (by decide +kernel)
  exact absurd hbooked.1 (by decide +kernel)

end Examples

end Traffic

end Fcore
