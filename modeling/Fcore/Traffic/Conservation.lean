import Fcore.Lib.Aggregate
import Fcore.Traffic.Attribution

/-!
# Growth that persistence keeps and growth it loses

The traffic task reads each connection's counters from one run to the next, and
within that period window by window. A window contributes the last sample in it
less the first, so growth between two samples on different sides of an edge is in
no window, and growth between two samples of one edge millisecond is in several.

`persisted_add_lost` is the account over a sequence of runs: what is booked and
what is lost add up to the growth of the counters and what is booked again.
-/

namespace Fcore

namespace Traffic

/-- The segments of a connection over a sequence of runs of the traffic task. -/
def persistedSegments (metrics : MetricStorage) (connId : Uuid) (createdAt : DateTime)
    (instants : List DateTime) : List SegmentTraffic :=
  (Timeline.windows instants).flatMap fun period =>
    connectionDeltasBetween metrics connId createdAt period.1 period.2

def persistedBytes (metrics : MetricStorage) (connId : Uuid) (createdAt : DateTime)
    (instants : List DateTime) (dir : Direction) : ℕ :=
  ((persistedSegments metrics connId createdAt instants).map fun s => s.bytes dir).sum

/-- Where a sequence of runs cuts: at each run, and at every boundary between the
first and the last. -/
def cuts (createdAt : DateTime) : List DateTime → List DateTime
  | [] => []
  | first :: rest => sortDedup (· ≤ ·) (· = ·)
      (first :: rest ++ boundaries createdAt first (rest.getLastD first))

def edges (createdAt : DateTime) (instants : List DateTime) : List ℤ :=
  (cuts createdAt instants).map timestampMillis

/-- An integer counter that never falls, sampled in the order of time. -/
structure IsCounter (series : List MetricPoint) : Prop where
  integer : ∀ p ∈ series, p.value.den = 1
  ordered : series.Pairwise fun p q => p.timestamp ≤ q.timestamp
  monotone : series.Pairwise fun p q => p.value ≤ q.value

instance decidableIsCounter (series : List MetricPoint) : Decidable (IsCounter series) :=
  decidable_of_iff ((∀ p ∈ series, p.value.den = 1) ∧
      series.Pairwise (fun p q => p.timestamp ≤ q.timestamp) ∧
      series.Pairwise fun p q => p.value ≤ q.value)
    ⟨fun h => ⟨h.1, h.2.1, h.2.2⟩, fun h => ⟨h.integer, h.ordered, h.monotone⟩⟩

variable {t : DateTime}

section Windows

variable {createdAt : DateTime}

theorem le_getLastD {first : DateTime} {rest : List DateTime}
    (h : (first :: rest).Pairwise (· < ·)) : ∀ t ∈ first :: rest, t ≤ rest.getLastD first := by
  induction rest generalizing first with
  | nil => simp
  | cons second rest ih =>
    intro t ht
    rw [List.getLastD_cons]
    rcases List.mem_cons.mp ht with rfl | ht
    · exact (List.rel_of_pairwise_cons h (by simp)).le.trans (ih h.of_cons second (by simp))
    · exact ih h.of_cons t ht

theorem mem_cuts {first : DateTime} {rest : List DateTime} :
    t ∈ cuts createdAt (first :: rest) ↔
      t ∈ first :: rest ∨ (first < t ∧ t ≤ rest.getLastD first ∧ IsBoundary createdAt t) := by
  rw [cuts, mem_sortDedup, List.mem_append, mem_boundaries]

theorem pairwise_cuts (createdAt : DateTime) (instants : List DateTime) :
    (cuts createdAt instants).Pairwise (· < ·) := by
  cases instants with
  | nil => exact List.Pairwise.nil
  | cons first rest => exact byKey_id.pairwise_sortDedup _

theorem filter_cuts_le {first second : DateTime} {rest : List DateTime}
    (h : (first :: second :: rest).Pairwise (· < ·)) :
    (cuts createdAt (first :: second :: rest)).filter (· ≤ second) =
      points createdAt first second := by
  refine ((pairwise_cuts createdAt _).filter _).eq_of_mem_iff (pairwise_points createdAt _ _)
    fun t => ?_
  have hsecond : first < second := List.rel_of_pairwise_cons h (by simp)
  have hlast := le_getLastD h second (by simp)
  have hrest : ∀ s ∈ rest, second < s := fun s hs => List.rel_of_pairwise_cons h.of_cons hs
  rw [List.mem_filter, mem_cuts, mem_points, decide_eq_true_eq, List.mem_cons, List.mem_cons]
  constructor
  · rintro ⟨(rfl | rfl | ht) | ⟨hlo, -, hboundary⟩, hle⟩
    · exact .inl rfl
    · exact .inr (.inr rfl)
    · exact absurd hle (not_le.mpr (hrest t ht))
    · exact .inr (.inl ⟨hlo, hle, hboundary⟩)
  · rintro (rfl | ⟨hlo, hle, hboundary⟩ | rfl)
    · exact ⟨.inl (.inl rfl), hsecond.le⟩
    · exact ⟨.inr ⟨hlo, hle.trans hlast, hboundary⟩, hle⟩
    · exact ⟨.inl (.inr (.inl rfl)), le_rfl⟩

theorem filter_le_cuts {first second : DateTime} {rest : List DateTime}
    (h : (first :: second :: rest).Pairwise (· < ·)) :
    (cuts createdAt (first :: second :: rest)).filter (second ≤ ·) =
      cuts createdAt (second :: rest) := by
  refine ((pairwise_cuts createdAt _).filter _).eq_of_mem_iff (pairwise_cuts createdAt _)
    fun t => ?_
  have hsecond : first < second := List.rel_of_pairwise_cons h (by simp)
  have hrest : ∀ s ∈ second :: rest, second ≤ s := by
    intro s hs
    rcases List.mem_cons.mp hs with rfl | hs
    · exact le_rfl
    · exact (List.rel_of_pairwise_cons h.of_cons hs).le
  rw [List.mem_filter, mem_cuts, mem_cuts, decide_eq_true_eq, List.mem_cons, List.getLastD_cons]
  constructor
  · rintro ⟨(rfl | ht) | ⟨-, hhi, hboundary⟩, hle⟩
    · exact absurd hle (not_le.mpr hsecond)
    · exact .inl ht
    · rcases hle.eq_or_lt with rfl | hlt
      · exact .inl (by simp)
      · exact .inr ⟨hlt, hhi, hboundary⟩
  · rintro (ht | ⟨hlo, hhi, hboundary⟩)
    · exact ⟨.inl (.inr ht), hrest t ht⟩
    · exact ⟨.inr ⟨hsecond.trans hlo, hhi, hboundary⟩, hlo.le⟩

theorem windows_cuts {instants : List DateTime} (h : instants.Pairwise (· < ·)) :
    Timeline.windows (cuts createdAt instants) = (Timeline.windows instants).flatMap fun period =>
      Timeline.windows (points createdAt period.1 period.2) := by
  induction instants with
  | nil => rfl
  | cons first rest ih =>
    cases rest with
    | nil =>
      have hcuts : cuts createdAt [first] = [first] := by
        refine (pairwise_cuts createdAt _).eq_of_mem_iff (List.pairwise_singleton _ _)
          fun t => ?_
        rw [mem_cuts]
        refine or_iff_left fun hbetween => ?_
        exact absurd hbetween.1 (not_lt.mpr hbetween.2.1)
      rw [hcuts]
      rfl
    | cons second rest =>
      have hmem : second ∈ cuts createdAt (first :: second :: rest) :=
        mem_cuts.mpr (.inl (by simp))
      rw [Timeline.windows_eq_append (pairwise_cuts createdAt _) hmem, filter_cuts_le h,
        filter_le_cuts h, ih h.of_cons, Timeline.windows_cons_cons, List.flatMap_cons]

end Windows

section Account

variable {metrics : MetricStorage} {connId : Uuid} {createdAt : DateTime}
  {instants : List DateTime} {dir : Direction}

theorem persistedSegments_eq (h : instants.Pairwise (· < ·)) :
    persistedSegments metrics connId createdAt instants =
      (Timeline.windows (cuts createdAt instants)).filterMap
        (windowSegment metrics connId createdAt) := by
  rw [windows_cuts h, List.filterMap_flatMap]
  refine List.flatMap_congr fun period hperiod => ?_
  have hlt : period.1 < period.2 := Timeline.rel_of_mem_windows h hperiod
  rw [connectionDeltasBetween, if_neg (not_le.mpr hlt)]

theorem sum_bytes_filterMap (windows : List (DateTime × DateTime)) :
    ((windows.filterMap (windowSegment metrics connId createdAt)).map fun s => s.bytes dir).sum =
      (windows.map fun w => dir.ofPair (metrics.getConnectionDeltaTraffic connId
        (timestampMillis w.1) (timestampMillis w.2))).sum := by
  induction windows with
  | nil => rfl
  | cons w windows ih =>
    rw [List.map_cons, List.sum_cons, ← ih, List.filterMap_cons, windowSegment]
    split_ifs with h
    · rw [h]
      cases dir <;> simp [Direction.ofPair]
    · cases dir <;> simp [Direction.ofPair, SegmentTraffic.bytes]

theorem ofPair_getConnectionDeltaTraffic (lo hi : ℤ) :
    dir.ofPair (metrics.getConnectionDeltaTraffic connId lo hi) =
      asU64 (metrics.deltaSum (some dir.metric) (MetricStorage.connTags connId) lo hi) := by
  cases dir <;> rfl

theorem IsCounter.inRange {series : List MetricPoint} (h : IsCounter series) (lo hi : ℤ) :
    IsCounter (MetricStorage.inRange lo hi series) :=
  ⟨fun p hp => h.integer p (List.mem_of_mem_filter hp), h.ordered.filter _, h.monotone.filter _⟩

theorem IsCounter.exists_rise_eq {series : List MetricPoint} (h : IsCounter series) :
    ∃ n : ℕ, Timeline.rise MetricPoint.value series = n := by
  by_cases hempty : series = []
  · exact ⟨0, by simp [hempty]⟩
  · obtain ⟨first, hfirst, last, hlast, hrise⟩ :=
      Timeline.rise_eq_sub MetricPoint.value hempty
    have hnonneg := Timeline.rise_nonneg MetricPoint.value h.monotone
    rw [hrise, ← Rat.coe_int_num_of_den_eq_one (h.integer last hlast),
      ← Rat.coe_int_num_of_den_eq_one (h.integer first hfirst), ← Int.cast_sub] at hnonneg ⊢
    obtain ⟨n, hn⟩ := Int.eq_ofNat_of_zero_le (Int.cast_nonneg_iff.mp hnonneg)
    exact ⟨n, by rw [hn, Int.cast_natCast]⟩

theorem asU64_deltaSum {tags : Tags} {metric : Option String}
    (h : ∀ series ∈ metrics.matching metric tags, IsCounter series) (lo hi : ℤ) :
    (asU64 (metrics.deltaSum metric tags lo hi) : ℚ) = ((metrics.matching metric tags).map
      fun series => Timeline.rise MetricPoint.value (MetricStorage.inRange lo hi series)).sum := by
  have hsum : ∀ all : List (List MetricPoint), (∀ series ∈ all, IsCounter series) →
      ∃ n : ℕ, (all.map fun series => max (Timeline.rise MetricPoint.value
          (MetricStorage.inRange lo hi series)) 0).sum = n ∧
        (all.map fun series => Timeline.rise MetricPoint.value
          (MetricStorage.inRange lo hi series)).sum = n := by
    intro all hall
    induction all with
    | nil => exact ⟨0, by simp, by simp⟩
    | cons series all ih =>
      obtain ⟨n, hmax, hrise⟩ := ih fun s hs => hall s (List.mem_cons_of_mem _ hs)
      obtain ⟨k, hk⟩ := ((hall series (by simp)).inRange lo hi).exists_rise_eq
      refine ⟨k + n, ?_, ?_⟩
      · rw [List.map_cons, List.sum_cons, hmax, hk, max_eq_left k.cast_nonneg, Nat.cast_add]
      · rw [List.map_cons, List.sum_cons, hrise, hk, Nat.cast_add]
  obtain ⟨n, hmax, hrise⟩ := hsum _ h
  rw [MetricStorage.deltaSum, hmax, hrise, MetricStorage.asU64_natCast]

def growth (metrics : MetricStorage) (connId : Uuid) (dir : Direction) : ℚ :=
  ((metrics.matching (some dir.metric) (MetricStorage.connTags connId)).map
    (Timeline.rise MetricPoint.value)).sum

/-- The growth between consecutive samples that an edge separates. -/
def lostBytes (metrics : MetricStorage) (connId : Uuid) (createdAt : DateTime)
    (instants : List DateTime) (dir : Direction) : ℚ :=
  ((metrics.matching (some dir.metric) (MetricStorage.connTags connId)).map
    (Timeline.lost MetricPoint.timestamp MetricPoint.value (edges createdAt instants))).sum

/-- The growth between consecutive samples of one timestamp, once for every
window after the first that holds the timestamp. -/
def rebookedBytes (metrics : MetricStorage) (connId : Uuid) (createdAt : DateTime)
    (instants : List DateTime) (dir : Direction) : ℚ :=
  ((metrics.matching (some dir.metric) (MetricStorage.connTags connId)).map
    (Timeline.recounted MetricPoint.timestamp MetricPoint.value (edges createdAt instants))).sum

/-- The bytes booked are those found in the windows of each series. -/
theorem persistedBytes_eq (h : instants.Pairwise (· < ·))
    (hcounters : ∀ series ∈ metrics.matching (some dir.metric) (MetricStorage.connTags connId),
      IsCounter series) :
    (persistedBytes metrics connId createdAt instants dir : ℚ) =
      ((metrics.matching (some dir.metric) (MetricStorage.connTags connId)).map fun series =>
        ((Timeline.windows (edges createdAt instants)).map fun w => Timeline.rise MetricPoint.value
          (Timeline.within MetricPoint.timestamp w.1 w.2 series)).sum).sum := by
  rw [← Aggregate.sum_comm, persistedBytes, persistedSegments_eq h, sum_bytes_filterMap, edges,
    Timeline.windows_map, List.map_map, ← Nat.coe_castRingHom, map_list_sum, List.map_map]
  refine congrArg List.sum (List.map_congr_left fun w _ => ?_)
  simp only [Function.comp_apply, ofPair_getConnectionDeltaTraffic]
  exact asU64_deltaSum hcounters _ _

variable {first : DateTime} {rest : List DateTime}

theorem pairwise_edges (createdAt : DateTime) (instants : List DateTime) :
    (edges createdAt instants).Pairwise (· ≤ ·) := by
  refine List.pairwise_map.mpr ((pairwise_cuts createdAt instants).imp fun hlt => ?_)
  exact Int.ediv_le_ediv (by decide) hlt.le

theorem mem_edges_of_mem (ht : t ∈ first :: rest) :
    timestampMillis t ∈ edges createdAt (first :: rest) :=
  List.mem_map_of_mem (mem_cuts.mpr (.inl ht))

theorem windows_edges_ne_nil (hrest : rest ≠ []) (h : (first :: rest).Pairwise (· < ·)) :
    Timeline.windows (edges createdAt (first :: rest)) ≠ [] := by
  obtain ⟨second, hsecond⟩ := List.exists_mem_of_ne_nil rest hrest
  have hlt : first < second := List.rel_of_pairwise_cons h hsecond
  rw [edges, Timeline.windows_map, ne_eq, List.map_eq_nil_iff]
  exact Timeline.windows_ne_nil (mem_cuts.mpr (.inl (by simp)))
    (mem_cuts.mpr (.inl (List.mem_cons_of_mem first hsecond))) hlt.ne

theorem timestampMillis_le {p : MetricPoint} (h : t ≤ sampledAt p) :
    timestampMillis t ≤ p.timestamp :=
  Int.ediv_le_of_le_mul (by decide) h

theorem le_timestampMillis {p : MetricPoint} (h : sampledAt p ≤ t) :
    p.timestamp ≤ timestampMillis t :=
  (Int.le_ediv_iff_mul_le (by decide)).mpr h

/-- The account over a sequence of runs. -/
theorem persisted_add_lost (h : (first :: rest).Pairwise (· < ·)) (hrest : rest ≠ [])
    (hcounters : ∀ series ∈ metrics.matching (some dir.metric) (MetricStorage.connTags connId),
      IsCounter series)
    (hobserved : ∀ series ∈ metrics.matching (some dir.metric) (MetricStorage.connTags connId),
      ∀ p ∈ series, first ≤ sampledAt p ∧ sampledAt p ≤ rest.getLastD first) :
    persistedBytes metrics connId createdAt (first :: rest) dir +
        lostBytes metrics connId createdAt (first :: rest) dir =
      growth metrics connId dir + rebookedBytes metrics connId createdAt (first :: rest) dir := by
  rw [persistedBytes_eq h hcounters, lostBytes, growth, rebookedBytes, ← List.sum_map_add,
    ← List.sum_map_add]
  refine congrArg List.sum (List.map_congr_left fun series hseries => ?_)
  refine Timeline.sum_rise_add_lost _ _ (hcounters series hseries).ordered
    (pairwise_edges createdAt _) (windows_edges_ne_nil hrest h) (fun p hp => ?_) fun p hp => ?_
  · exact ⟨_, mem_edges_of_mem (by simp), timestampMillis_le (hobserved series hseries p hp).1⟩
  · exact ⟨_, mem_edges_of_mem List.getLastD_mem_cons,
      le_timestampMillis (hobserved series hseries p hp).2⟩

/-- Nothing is lost exactly when no cut separates two consecutive samples of
different values. -/
theorem lostBytes_eq_zero_iff
    (hcounters : ∀ series ∈ metrics.matching (some dir.metric) (MetricStorage.connTags connId),
      IsCounter series) :
    lostBytes metrics connId createdAt instants dir = 0 ↔
      ∀ series ∈ metrics.matching (some dir.metric) (MetricStorage.connTags connId),
        ∀ pair ∈ Timeline.windows series, pair.1.value < pair.2.value →
          ∀ cut ∈ cuts createdAt instants, ¬ (pair.1.timestamp < timestampMillis cut ∧
            timestampMillis cut < pair.2.timestamp) := by
  have hlost : ∀ series ∈ metrics.matching (some dir.metric) (MetricStorage.connTags connId),
      (Timeline.lost MetricPoint.timestamp MetricPoint.value (edges createdAt instants) series = 0 ↔
        ∀ pair ∈ Timeline.windows series, pair.1.value < pair.2.value →
          ∀ cut ∈ cuts createdAt instants, ¬ (pair.1.timestamp < timestampMillis cut ∧
            timestampMillis cut < pair.2.timestamp)) := by
    intro series hseries
    rw [Timeline.lost_eq_zero_iff _ _ (hcounters series hseries).monotone]
    simp only [edges, List.forall_mem_map]
  constructor
  · intro h series hseries
    refine (hlost series hseries).mp ?_
    refine List.all_zero_of_le_zero_le_of_sum_eq_zero (fun x hx => ?_) h
      (List.mem_map_of_mem hseries)
    obtain ⟨s, hs, rfl⟩ := List.mem_map.mp hx
    exact Timeline.lost_nonneg _ _ (hcounters s hs).monotone _
  · intro h
    refine List.sum_eq_zero fun x hx => ?_
    obtain ⟨series, hseries, rfl⟩ := List.mem_map.mp hx
    exact (hlost series hseries).mpr (h series hseries)

theorem rebookedBytes_eq_zero
    (h : ∀ series ∈ metrics.matching (some dir.metric) (MetricStorage.connTags connId),
      series.Pairwise fun p q => p.timestamp < q.timestamp) :
    rebookedBytes metrics connId createdAt instants dir = 0 := by
  refine List.sum_eq_zero fun x hx => ?_
  obtain ⟨series, hseries, rfl⟩ := List.mem_map.mp hx
  exact Timeline.recounted_eq_zero _ _ (h series hseries) _

end Account

section Examples

end Examples

end Traffic

end Fcore
