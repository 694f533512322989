import Fcore.Metrics.Snapshot
import Mathlib.Tactic.Linarith

/-!
# What compaction does to a series

The points older than a threshold are put into buckets of time, and of every bucket the last
point is kept. In a series in the order of time this is a sound thinning out: nothing recent is
lost, and compacting once more changes nothing.

The traffic of a series is its last value less its first. Compaction keeps the last point, but
replaces the first by the last one of its bucket. So the rise inside the first bucket is lost.
-/

namespace Fcore

namespace MetricStorage

variable {points : List MetricPoint} {threshold interval : ℤ}

theorem tdiv_eq_of_between {a b c : ℤ} (hab : a ≤ b) (hbc : b ≤ c)
    (h : a.tdiv interval = c.tdiv interval) : b.tdiv interval = a.tdiv interval := by
  have hpos : ∀ i : ℤ, 0 < i → a.tdiv i = c.tdiv i → b.tdiv i = a.tdiv i := by
    intro i hi heq
    have hle := Int.tdiv_le_tdiv hi hbc
    rw [← heq] at hle
    exact le_antisymm hle (Int.tdiv_le_tdiv hi hab)
  rcases lt_trichotomy interval 0 with hneg | rfl | hi
  · have hflip := hpos (-interval) (by omega)
    simp only [Int.tdiv_neg, neg_inj] at hflip
    exact hflip h
  · simp
  · exact hpos interval hi h

/-- The points of a series are in the order of time. -/
def InOrder (points : List MetricPoint) : Prop :=
  points.Pairwise fun p q => p.timestamp ≤ q.timestamp

theorem InOrder.together (h : InOrder points) (interval : ℤ) :
    Together (bucket interval) points := by
  intro p q r hsub heq
  have hpqr := h.sublist hsub
  simp only [List.pairwise_cons, List.mem_cons, List.not_mem_nil, or_false, forall_eq_or_imp,
    forall_eq] at hpqr
  exact tdiv_eq_of_between hpqr.1.1 hpqr.2.1 heq

def older (threshold : ℤ) (points : List MetricPoint) : List MetricPoint :=
  points.filter fun p => decide (p.timestamp < threshold)

def recent (threshold : ℤ) (points : List MetricPoint) : List MetricPoint :=
  points.filter fun p => !decide (p.timestamp < threshold)

theorem mem_older {p : MetricPoint} :
    p ∈ older threshold points ↔ p ∈ points ∧ p.timestamp < threshold := by
  simp [older]

theorem InOrder.older_append_recent (h : InOrder points) (threshold : ℤ) :
    older threshold points ++ recent threshold points = points := by
  induction points with
  | nil => rfl
  | cons p points ih =>
    by_cases hp : p.timestamp < threshold
    · have hrest := ih h.of_cons
      simpa [older, recent, hp] using hrest
    · -- and so is every later point
      have hall : ∀ q ∈ p :: points, ¬ q.timestamp < threshold := by
        intro q hq
        rcases List.mem_cons.mp hq with rfl | hq
        · exact hp
        · have := List.rel_of_pairwise_cons h hq
          omega
      rw [older, List.filter_eq_nil_iff.mpr fun q hq => by simpa using hall q hq, recent,
        List.filter_eq_self.mpr fun q hq => by simpa using hall q hq, List.nil_append]

theorem compactPoints_eq (h : 100 ≤ points.length) :
    compactPoints threshold interval points =
      lastOfRuns (bucket interval) (older threshold points) ++ recent threshold points := by
  rw [compactPoints, if_neg (by omega), compactSeries_eq]
  rfl

theorem older_of_sublist {l : List MetricPoint} (h : l.Sublist (older threshold points)) :
    older threshold l = l ∧ recent threshold l = [] := by
  have hall : ∀ p ∈ l, p.timestamp < threshold := fun p hp => (mem_older.mp (h.mem hp)).2
  exact ⟨List.filter_eq_self.mpr fun p hp => by simpa using hall p hp,
    List.filter_eq_nil_iff.mpr fun p hp => by simpa using hall p hp⟩

theorem older_compactPoints (h : 100 ≤ points.length) :
    older threshold (compactPoints threshold interval points) =
      lastOfRuns (bucket interval) (older threshold points) := by
  have hrecent : older threshold (recent threshold points) = [] := by
    simp [older, recent, List.filter_filter]
  rw [compactPoints_eq h, older, List.filter_append, ← older, ← older, hrecent,
    (older_of_sublist (lastOfRuns_sublist _ _)).1, List.append_nil]

theorem recent_compactPoints (h : 100 ≤ points.length) :
    recent threshold (compactPoints threshold interval points) = recent threshold points := by
  have hrecent : recent threshold (recent threshold points) = recent threshold points := by
    simp [recent, List.filter_filter]
  rw [compactPoints_eq h, recent, List.filter_append, ← recent, ← recent, hrecent,
    (older_of_sublist (lastOfRuns_sublist _ _)).2, List.nil_append]

theorem InOrder.compactPoints_sublist (h : InOrder points) (threshold interval : ℤ) :
    (compactPoints threshold interval points).Sublist points := by
  by_cases hlength : 100 ≤ points.length
  · rw [compactPoints_eq hlength]
    have hsub := (lastOfRuns_sublist (bucket interval) (older threshold points)).append
      (List.Sublist.refl (recent threshold points))
    rwa [h.older_append_recent] at hsub
  · rw [compactPoints, if_pos (by omega)]

theorem compactPoints_idem (h : 100 ≤ points.length) :
    compactPoints threshold interval (compactPoints threshold interval points) =
      compactPoints threshold interval points := by
  by_cases hlength : 100 ≤ (compactPoints threshold interval points).length
  · rw [compactPoints_eq hlength, older_compactPoints h, recent_compactPoints h, lastOfRuns_idem,
      ← compactPoints_eq h]
  · exact if_pos (by omega)

/-- Compacting a long series in the order of time keeps points of the series in their order,
all those at or after the threshold, and of the older ones the last of every bucket and no other.
Compacting again changes nothing. -/
theorem compaction_sound (m : MetricStorage) (nodeId : Uuid) (key : UInt64)
    (points : List MetricPoint) (now olderThanSec intervalSec : ℤ)
    (hseries : seriesIn m.inner nodeId key = some points)
    (horder : InOrder points) (hlength : 100 ≤ points.length) :
    let m' := m.compactOldPoints now olderThanSec intervalSec
    let old := fun p : MetricPoint => decide (p.timestamp < now - olderThanSec * 1000)
    ∃ kept, seriesIn m'.inner nodeId key = some kept ∧ kept.Sublist points ∧
      (kept.filter fun p => !old p) = (points.filter fun p => !old p) ∧
      (∀ b, (kept.filter fun p => old p && decide (bucket (intervalSec * 1000) p = b)) =
        (points.filter fun p =>
          old p && decide (bucket (intervalSec * 1000) p = b)).getLast?.toList) ∧
      seriesIn (m'.compactOldPoints now olderThanSec intervalSec).inner nodeId key = some kept := by
  intro m' old
  have hkept : seriesIn m'.inner nodeId key = some (compactPoints (now - olderThanSec * 1000)
      (intervalSec * 1000) points) := by
    rw [seriesIn_compactOldPoints, hseries, Option.map_some]
  refine ⟨_, hkept, horder.compactPoints_sublist _ _, recent_compactPoints hlength, fun b => ?_, ?_⟩
  · have hsplit : ∀ l : List MetricPoint,
        l.filter (fun p => old p && decide (bucket (intervalSec * 1000) p = b)) =
          (older (now - olderThanSec * 1000) l).filter fun p =>
            decide (bucket (intervalSec * 1000) p = b) := by
      intro l
      rw [older, List.filter_filter]
      exact List.filter_congr fun p _ => Bool.and_comm _ _
    have htogether := (horder.together (intervalSec * 1000)).sublist
      (List.filter_sublist (p := old))
    rw [hsplit, hsplit, older_compactPoints hlength]
    exact filter_lastOfRuns htogether b
  · rw [seriesIn_compactOldPoints, hkept, Option.map_some, compactPoints_idem hlength]

/-- A sample every second, of a counter that goes up by one. -/
def samples : List MetricPoint := (List.range 100).map fun i => ⟨i * 1000, i⟩

/-- The samples as the uplink of a connection. -/
def sampled : MetricStorage :=
  (new 1000 86400).restoreSeries (fun _ _ => 7) ⟨0, uplinkMetric, [("conn_id", "c")], samples⟩

theorem inOrder_samples : InOrder samples := by
  unfold InOrder
  decide +kernel

theorem compaction_sound_samples :
    ∃ kept, seriesIn (sampled.compactOldPoints 3700000 3600 60).inner 0 7 = some kept ∧
      kept.Sublist samples ∧ kept.length = 2 := by
  obtain ⟨kept, hkept, hsub, -⟩ := compaction_sound sampled 0 7 samples 3700000 3600 60
    (by decide +kernel) inOrder_samples (by decide)
  have hlength : (seriesIn (sampled.compactOldPoints 3700000 3600 60).inner 0 7).map List.length =
      some 2 := by
    decide +kernel
  rw [hkept, Option.map_some, Option.some.injEq] at hlength
  exact ⟨kept, hkept, hsub, hlength⟩

/-! ## The traffic of a compacted series -/

/-- The values of a counter do not go down. -/
def Counts (points : List MetricPoint) : Prop := points.Pairwise fun p q => p.value ≤ q.value

theorem getLast?_compactPoints (h : InOrder points) (threshold interval : ℤ) :
    (compactPoints threshold interval points).getLast? = points.getLast? := by
  by_cases hlength : 100 ≤ points.length
  · rw [compactPoints_eq hlength, List.getLast?_append, getLast?_lastOfRuns, ← List.getLast?_append,
      h.older_append_recent]
  · rw [compactPoints, if_pos (by omega)]

/-- The values in the bucket of the first point are the same, or the series is not compacted. -/
def KeepsFirst (threshold interval : ℤ) (points : List MetricPoint) : Prop :=
  100 ≤ points.length → ∀ first ∈ points.head?, ∀ p ∈ points, p.timestamp < threshold →
    bucket interval p = bucket interval first → p.value = first.value

theorem value_le_of_head? (hcounts : Counts points) {first p : MetricPoint}
    (hfirst : points.head? = some first) (hp : p ∈ points) : first.value ≤ p.value := by
  obtain ⟨rest, rfl⟩ := List.head?_eq_some_iff.mp hfirst
  rcases List.mem_cons.mp hp with rfl | hp
  · exact le_rfl
  · exact List.rel_of_pairwise_cons hcounts hp

theorem value_le_of_getLast? (hcounts : Counts points) {last p : MetricPoint}
    (hlast : points.getLast? = some last) (hp : p ∈ points) : p.value ≤ last.value := by
  obtain ⟨front, rfl⟩ := List.getLast?_eq_some_iff.mp hlast
  rcases List.mem_append.mp hp with hp | hp
  · exact (List.pairwise_append.mp hcounts).2.2 p hp last (by simp)
  · rw [List.mem_singleton.mp hp]

/-- The first point of a compacted series is the last of its bucket. -/
theorem head?_compactPoints (h : InOrder points) (hlength : 100 ≤ points.length)
    {first : MetricPoint} (hfirst : points.head? = some first)
    (hold : first.timestamp < threshold) :
    (compactPoints threshold interval points).head? = ((older threshold points).filter fun p =>
      decide (bucket interval p = bucket interval first)).getLast? := by
  have hhead : (older threshold points).head? = some first := by
    obtain ⟨rest, rfl⟩ := List.head?_eq_some_iff.mp hfirst
    simp [older, hold]
  have htogether : Together (bucket interval) (older threshold points) :=
    (h.together interval).sublist List.filter_sublist
  have hfilter := filter_lastOfRuns htogether (bucket interval first)
  have hbucket := map_head?_lastOfRuns (bucket interval) (older threshold points)
  rw [hhead] at hbucket
  rw [compactPoints_eq hlength]
  cases hruns : lastOfRuns (bucket interval) (older threshold points) with
  | nil =>
    rw [hruns] at hbucket
    cases hbucket
  | cons kept rest =>
    rw [hruns] at hbucket hfilter
    have hkept : bucket interval kept = bucket interval first := Option.some.inj hbucket
    rw [List.filter_cons_of_pos (by simpa using hkept)] at hfilter
    rw [List.cons_append, List.head?_cons]
    cases hlast : ((older threshold points).filter fun p =>
        decide (bucket interval p = bucket interval first)).getLast? with
    | none =>
      rw [hlast] at hfilter
      cases hfilter
    | some last =>
      rw [hlast, Option.toList_some, List.cons.injEq] at hfilter
      rw [hfilter.1]

theorem InOrder.first_le (h : InOrder points) {first p : MetricPoint}
    (hfirst : points.head? = some first) (hp : p ∈ points) : first.timestamp ≤ p.timestamp := by
  obtain ⟨rest, rfl⟩ := List.head?_eq_some_iff.mp hfirst
  rcases List.mem_cons.mp hp with rfl | hp
  · exact le_rfl
  · exact List.rel_of_pairwise_cons h hp

-- a short series, or one that has no old points, stays as it is
theorem compactPoints_eq_self (h : InOrder points) {first : MetricPoint}
    (hfirst : points.head? = some first)
    (hnot : ¬ (100 ≤ points.length ∧ first.timestamp < threshold)) (interval : ℤ) :
    compactPoints threshold interval points = points ∧ KeepsFirst threshold interval points := by
  by_cases hlength : 100 ≤ points.length
  · have hrecent : ∀ p ∈ points, ¬ p.timestamp < threshold := by
      intro p hp hlt
      exact hnot ⟨hlength, (h.first_le hfirst hp).trans_lt hlt⟩
    have hold : older threshold points = [] :=
      List.filter_eq_nil_iff.mpr fun p hp => by simpa using hrecent p hp
    have hsplit := h.older_append_recent threshold
    rw [compactPoints_eq hlength, hold]
    rw [hold] at hsplit
    exact ⟨hsplit, fun _ first' _ p hp hlt => absurd hlt (hrecent p hp)⟩
  · exact ⟨if_pos (by omega), fun hlong => absurd hlong hlength⟩

theorem rise_eq {l : List MetricPoint} {first last : MetricPoint} (hfirst : l.head? = some first)
    (hlast : l.getLast? = some last) :
    Timeline.rise MetricPoint.value l = last.value - first.value := by
  rw [Timeline.rise, hfirst, hlast]

/-- The rise of a compacted counter is at most that of the counter, and the same exactly when
the values in the bucket of the first point are the same. -/
theorem rise_compactPoints (h : InOrder points) (hcounts : Counts points)
    (threshold interval : ℤ) :
    Timeline.rise MetricPoint.value (compactPoints threshold interval points) ≤
        Timeline.rise MetricPoint.value points ∧
      (Timeline.rise MetricPoint.value (compactPoints threshold interval points) =
        Timeline.rise MetricPoint.value points ↔ KeepsFirst threshold interval points) := by
  cases hfirst : points.head? with
  | none =>
    obtain rfl : points = [] := List.head?_eq_none_iff.mp hfirst
    exact ⟨le_rfl, by simp [KeepsFirst, compactPoints]⟩
  | some first =>
    by_cases hlong : 100 ≤ points.length ∧ first.timestamp < threshold
    · obtain ⟨hlength, hold⟩ := hlong
      obtain ⟨rest, rfl⟩ := List.head?_eq_some_iff.mp hfirst
      -- `kept` is the last point in the bucket of the first one
      obtain ⟨kept, hkept⟩ : ∃ kept, ((older threshold (first :: rest)).filter fun p =>
          decide (bucket interval p = bucket interval first)).getLast? = some kept := by
        refine Option.isSome_iff_exists.mp (List.getLast?_isSome.mpr ?_)
        exact List.ne_nil_of_mem (List.mem_filter.mpr ⟨mem_older.mpr ⟨by simp, hold⟩, by simp⟩)
      have hbucket : kept ∈ (older threshold (first :: rest)).filter fun p =>
          decide (bucket interval p = bucket interval first) := List.mem_of_getLast? hkept
      obtain ⟨hmem, hsame⟩ := List.mem_filter.mp hbucket
      obtain ⟨hmem, hlt⟩ := mem_older.mp hmem
      have hhead : (compactPoints threshold interval (first :: rest)).head? = some kept := by
        rw [head?_compactPoints h hlength hfirst hold, hkept]
      obtain ⟨last, hlast⟩ : ∃ last, (first :: rest).getLast? = some last :=
        Option.isSome_iff_exists.mp (List.getLast?_isSome.mpr (by simp))
      have hlast' := (getLast?_compactPoints h threshold interval).trans hlast
      have hle : first.value ≤ kept.value := value_le_of_head? hcounts hfirst hmem
      rw [rise_eq hhead hlast', rise_eq hfirst hlast]
      refine ⟨sub_le_sub_left hle _, ?_⟩
      rw [sub_right_inj]
      constructor
      · intro heq _ first' hfirst' p hp hold' hp'
        cases hfirst'
        have hcounts' : Counts ((older threshold (first :: rest)).filter fun p =>
            decide (bucket interval p = bucket interval first)) :=
          hcounts.sublist (List.filter_sublist.trans List.filter_sublist)
        have hpk : p.value ≤ kept.value := value_le_of_getLast? hcounts' hkept
          (List.mem_filter.mpr ⟨mem_older.mpr ⟨hp, hold'⟩, decide_eq_true hp'⟩)
        rw [heq] at hpk
        exact le_antisymm hpk (value_le_of_head? hcounts hfirst hp)
      · intro hkeeps
        exact hkeeps hlength first rfl kept hmem hlt (of_decide_eq_true hsame)
    · obtain ⟨hsame, hkeeps⟩ := compactPoints_eq_self h hfirst hlong interval
      rw [hsame]
      exact ⟨le_rfl, fun _ => hkeeps, fun _ => rfl⟩

theorem matching_compactOldPoints (m : MetricStorage) (metric : Option String) (tags : Tags)
    (now olderThanSec intervalSec : ℤ) :
    (m.compactOldPoints now olderThanSec intervalSec).matching metric tags =
      (m.matching metric tags).map
        (compactPoints (now - olderThanSec * 1000) (intervalSec * 1000)) := by
  have hkeys : (m.compactOldPoints now olderThanSec intervalSec).seriesFor metric tags =
      m.seriesFor metric tags := rfl
  simp only [matching, hkeys, List.map_flatMap, List.map_filterMap]
  simp only [compactOldPoints, AList.entries_mapRows, List.flatMap_map, AList.lookup_mapRows]

/-- For counters in the order of time that lie in the range, compaction leaves the traffic as it
is exactly when in each series the values in the bucket of the first point are the same. -/
theorem deltaSum_compactOldPoints_iff (m : MetricStorage) (metric : Option String) (tags : Tags)
    (now olderThanSec intervalSec lo hi : ℤ)
    (hseries : ∀ points ∈ m.matching metric tags, InOrder points ∧ Counts points ∧
      ∀ p ∈ points, lo ≤ p.timestamp ∧ p.timestamp ≤ hi) :
    (m.compactOldPoints now olderThanSec intervalSec).deltaSum metric tags lo hi =
        m.deltaSum metric tags lo hi ↔
      ∀ points ∈ m.matching metric tags,
        KeepsFirst (now - olderThanSec * 1000) (intervalSec * 1000) points := by
  have hrise : ∀ l points : List MetricPoint, points ∈ m.matching metric tags → l.Sublist points →
      max (Timeline.rise MetricPoint.value (inRange lo hi l)) 0 =
        Timeline.rise MetricPoint.value l := by
    intro l points hpoints hsub
    obtain ⟨-, hcounts, hrange⟩ := hseries points hpoints
    have hall : inRange lo hi l = l := by
      refine List.filter_eq_self.mpr fun p hp => ?_
      simpa using hrange p (hsub.mem hp)
    rw [hall, max_eq_left (Timeline.rise_nonneg MetricPoint.value (hcounts.sublist hsub))]
  have hcompact := fun points hpoints =>
    rise_compactPoints (hseries points hpoints).1 (hseries points hpoints).2.1
      (now - olderThanSec * 1000) (intervalSec * 1000)
  have hbefore : m.deltaSum metric tags lo hi =
      ((m.matching metric tags).map (Timeline.rise MetricPoint.value)).sum :=
    congrArg List.sum (List.map_congr_left fun points hpoints =>
      hrise points points hpoints (.refl points))
  have hafter : (m.compactOldPoints now olderThanSec intervalSec).deltaSum metric tags lo hi =
      ((m.matching metric tags).map fun points => Timeline.rise MetricPoint.value
        (compactPoints (now - olderThanSec * 1000) (intervalSec * 1000) points)).sum := by
    rw [deltaSum, matching_compactOldPoints, List.map_map]
    exact congrArg List.sum (List.map_congr_left fun points hpoints =>
      hrise _ points hpoints ((hseries points hpoints).1.compactPoints_sublist _ _))
  rw [hbefore, hafter]
  constructor
  · intro hsum points hpoints
    by_contra hnot
    have hlt := lt_of_le_of_ne (hcompact points hpoints).1 ((hcompact points hpoints).2.not.mpr hnot)
    exact (List.sum_lt_sum _ _ (fun points hpoints => (hcompact points hpoints).1)
      ⟨points, hpoints, hlt⟩).ne hsum
  · intro hkeeps
    exact congrArg List.sum (List.map_congr_left fun points hpoints =>
      (hcompact points hpoints).2.mpr (hkeeps points hpoints))

/-- A counter that stands still in the first minute. -/
def steady : MetricStorage :=
  (new 1000 86400).restoreSeries (fun _ _ => 7)
    ⟨0, uplinkMetric, [("conn_id", "c")],
      (List.range 100).map fun i => ⟨i * 1000, if i < 60 then 0 else i⟩⟩

theorem deltaSum_compactOldPoints_iff_steady :
    (steady.compactOldPoints 3700000 3600 60).deltaSum (some uplinkMetric) [("conn_id", "c")] 0
      100000 = steady.deltaSum (some uplinkMetric) [("conn_id", "c")] 0 100000 := by
  refine (deltaSum_compactOldPoints_iff steady (some uplinkMetric) [("conn_id", "c")] 3700000 3600
    60 0 100000 ?_).mpr ?_
  · unfold InOrder Counts
    decide +kernel
  · unfold KeepsFirst
    decide +kernel

theorem deltaSum_lost_in_first_bucket :
    InOrder samples ∧ Counts samples ∧
      sampled.matching (some uplinkMetric) [("conn_id", "c")] = [samples] ∧
      sampled.deltaSum (some uplinkMetric) [("conn_id", "c")] 0 100000 = 99 ∧
      (sampled.compactOldPoints 3700000 3600 60).deltaSum (some uplinkMetric) [("conn_id", "c")] 0
        100000 = 40 := by
  unfold InOrder Counts
  decide +kernel

end MetricStorage

end Fcore
