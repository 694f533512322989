import Fcore.Lib.Run
import Fcore.Metrics.Snapshot

/-!
# The tag index

The tag index is the metadata read the other way round: it has a key for a tag exactly when the
metadata of the key have the tag. Insertions, collections, restored series and compactions keep
this, as long as no two series share a key, and so a query by tags finds the series that have
them, and no others.

The keys are hashes of 64 bits, so that only some names and tags can have keys of their own;
here those of the operations in question have.
-/

namespace Fcore

inductive MetricOp where
  | insert (e : MetricEnvelope)
  | gc (now : ℤ)
  | restore (series : MetricSeriesSnapshot)
  | compact (now olderThanSec intervalSec : ℤ)

namespace MetricOp

def apply (seriesKey : String → Tags → UInt64) (m : MetricStorage) : MetricOp → MetricStorage
  | insert e => m.insertEnvelope seriesKey e
  | gc now => m.performGc now
  | restore series => m.restoreSeries seriesKey series
  | compact now olderThanSec intervalSec => m.compactOldPoints now olderThanSec intervalSec

/-- The name and the tags of the series that an operation is about. -/
def entry : MetricOp → Option (String × Tags)
  | insert e => some (e.name, e.tags)
  | restore series => some (series.metric, series.tags)
  | _ => none

/-- A restored series has no more points than are kept. -/
def Fits (maxPoints : ℕ) : MetricOp → Prop
  | restore series => series.points.length ≤ maxPoints
  | _ => True

end MetricOp

namespace MetricStorage

variable {seriesKey : String → Tags → UInt64} {known : Set (String × Tags)} {m : MetricStorage}
  {key : UInt64}

/-- The index agrees with the metadata, which all series have. -/
structure Indexed (seriesKey : String → Tags → UInt64) (known : Set (String × Tags))
    (m : MetricStorage) : Prop where
  index_iff : ∀ tag key, key ∈ indexed m.tagIndex tag ↔
    ∃ entry ∈ m.metadata.lookup key, tag ∈ entry.2
  described : ∀ nodeId key, (seriesIn m.inner nodeId key).isSome → (m.metadata.lookup key).isSome
  bounded : ∀ nodeId key, ∀ series ∈ seriesIn m.inner nodeId key, series.length ≤ m.maxPoints
  keyed : ∀ key, ∀ entry ∈ m.metadata.lookup key, entry ∈ known ∧ seriesKey entry.1 entry.2 = key

theorem indexed_new (maxPoints : ℕ) (retentionSeconds : ℤ) :
    (new maxPoints retentionSeconds).Indexed seriesKey known := by
  have hnone : ∀ nodeId key, seriesIn (new maxPoints retentionSeconds).inner nodeId key = none :=
    fun _ _ => rfl
  refine ⟨fun tag key => ?_, ?_, ?_, ?_⟩
  · simp [indexed, new]
  · simp [hnone]
  · simp [hnone]
  · simp [new]

namespace Indexed

variable {now : ℤ} {entry : String × Tags} {nodeId : Uuid} {points : List MetricPoint}

theorem performGc (h : m.Indexed seriesKey known) (now : ℤ) :
    (m.performGc now).Indexed seriesKey known := by
  have hmetadata : ∀ key, (m.performGc now).metadata.lookup key =
      (m.metadata.lookup key).filter fun _ => decide (key ∈ aliveKeys (m.performGc now).inner) :=
    fun key => AList.lookup_filterRows _ _ _
  have hseries : ∀ nodeId key, ∀ series ∈ seriesIn (m.performGc now).inner nodeId key,
      ∃ old ∈ seriesIn m.inner nodeId key, series.length ≤ old.length := by
    intro nodeId key series hmem
    rw [MetricStorage.performGc, seriesIn_retainInner] at hmem
    obtain ⟨hmap, -⟩ := Option.filter_eq_some_iff.mp hmem
    obtain ⟨old, hold, rfl⟩ := Option.map_eq_some_iff.mp hmap
    exact ⟨old, hold, (List.dropWhile_sublist _).length_le⟩
  refine ⟨fun tag key => ?_, fun nodeId key hsome => ?_, fun nodeId key series hmem => ?_,
    fun key entry hentry => ?_⟩
  · rw [hmetadata, MetricStorage.performGc, indexed_retainIndex, List.mem_filter, h.index_iff]
    simp only [Option.mem_def, Option.filter_eq_some_iff, decide_eq_true_eq]
    constructor
    · rintro ⟨⟨entry, hentry, htag⟩, halive⟩
      exact ⟨entry, ⟨hentry, halive⟩, htag⟩
    · rintro ⟨entry, ⟨hentry, halive⟩, htag⟩
      exact ⟨⟨entry, hentry, htag⟩, halive⟩
  · have halive : key ∈ aliveKeys (m.performGc now).inner := mem_aliveKeys.mpr ⟨nodeId, hsome⟩
    obtain ⟨series, hmem⟩ := Option.isSome_iff_exists.mp hsome
    obtain ⟨old, hold, -⟩ := hseries nodeId key series hmem
    have hdescribed := h.described nodeId key (Option.isSome_of_mem hold)
    rw [hmetadata, decide_eq_true halive]
    simpa using hdescribed
  · obtain ⟨old, hold, hle⟩ := hseries nodeId key series hmem
    exact hle.trans (h.bounded nodeId key old hold)
  · rw [hmetadata] at hentry
    exact h.keyed key entry (Option.filter_eq_some_iff.mp hentry).1

theorem compactOldPoints (h : m.Indexed seriesKey known) (now olderThanSec intervalSec : ℤ) :
    (m.compactOldPoints now olderThanSec intervalSec).Indexed seriesKey known := by
  refine ⟨h.index_iff, fun nodeId key hsome => ?_, fun nodeId key series hmem => ?_, h.keyed⟩
  · rw [seriesIn_compactOldPoints, Option.isSome_map] at hsome
    exact h.described nodeId key hsome
  · rw [seriesIn_compactOldPoints] at hmem
    obtain ⟨old, hold, rfl⟩ := Option.map_eq_some_iff.mp hmem
    exact (length_compactPoints_le _ _ old).trans (h.bounded nodeId key old hold)

/-- A series that is new, or has the metadata it is given again, may be indexed. -/
theorem describe (h : m.Indexed seriesKey known)
    (hkey : Set.InjOn (fun entry => seriesKey entry.1 entry.2) known) (hknown : entry ∈ known) :
    (m.describe (seriesKey entry.1 entry.2) entry).Indexed seriesKey known := by
  unfold MetricStorage.describe
  refine ⟨fun tag key => ?_, fun nodeId key hsome => ?_, h.bounded, fun key entry' hentry => ?_⟩
  · rw [mem_indexed_foldl_indexTag, h.index_iff, AList.lookup_insert_eq_ite]
    split_ifs with heq
    · have hsame : ∀ entry' ∈ m.metadata.lookup key, entry' = entry := by
        intro entry' hentry
        obtain ⟨hknown', hkey'⟩ := h.keyed key entry' hentry
        exact hkey hknown' hknown (hkey'.trans heq)
      simp only [heq, true_and, Option.mem_def, Option.some.injEq, exists_eq_left']
      constructor
      · rintro (⟨entry', hentry, htag⟩ | htag)
        · rwa [← hsame entry' (heq ▸ hentry)]
        · exact htag
      · exact .inr
    · simp [heq]
  · rw [AList.lookup_insert_eq_ite]
    split_ifs
    · rfl
    · exact h.described nodeId key hsome
  · rcases AList.lookup_insert_cases hentry with ⟨rfl, rfl⟩ | hold
    · exact ⟨hknown, rfl⟩
    · exact h.keyed key entry' hold

theorem put (h : m.Indexed seriesKey known) (hsome : (m.metadata.lookup key).isSome)
    (hlength : points.length ≤ m.maxPoints) (nodeId : Uuid) :
    Indexed seriesKey known { m with
      inner := m.inner.insert nodeId (((m.inner.lookup nodeId).getD ∅).insert key points) } := by
  refine ⟨h.index_iff, fun nodeId' key' hsome' => ?_, fun nodeId' key' series hmem => ?_, h.keyed⟩
  · rw [seriesIn_put] at hsome'
    split_ifs at hsome' with heq
    · rwa [heq.2]
    · exact h.described nodeId' key' hsome'
  · rw [seriesIn_put] at hmem
    split_ifs at hmem with heq
    · cases hmem
      exact hlength
    · exact h.bounded nodeId' key' series hmem

theorem pushPoint (h : m.Indexed seriesKey known) (hsome : (m.metadata.lookup key).isSome)
    (e : MetricEnvelope) : (m.pushPoint key e).Indexed seriesKey known := by
  refine h.put hsome ((List.dropWhile_sublist _).length_le.trans ?_) e.nodeId
  rw [List.length_drop]
  omega

theorem insertEnvelope (h : m.Indexed seriesKey known)
    (hkey : Set.InjOn (fun entry => seriesKey entry.1 entry.2) known) (e : MetricEnvelope)
    (hknown : (e.name, e.tags) ∈ known) :
    (m.insertEnvelope seriesKey e).Indexed seriesKey known := by
  cases hlookup : m.metadata.lookup (seriesKey e.name e.tags) with
  | some entry =>
    have hsome := Option.isSome_of_mem hlookup
    rw [insertEnvelope_of_known hsome]
    exact h.pushPoint hsome e
  | none =>
    rw [insertEnvelope_of_new hlookup]
    exact (h.describe hkey hknown).pushPoint (by simp [MetricStorage.describe]) e

theorem restoreSeries (h : m.Indexed seriesKey known)
    (hkey : Set.InjOn (fun entry => seriesKey entry.1 entry.2) known)
    (series : MetricSeriesSnapshot) (hknown : (series.metric, series.tags) ∈ known)
    (hlength : series.points.length ≤ m.maxPoints) :
    (m.restoreSeries seriesKey series).Indexed seriesKey known :=
  (h.describe hkey hknown).put (by simp [MetricStorage.describe]) hlength series.nodeId

theorem apply (h : m.Indexed seriesKey known)
    (hkey : Set.InjOn (fun entry => seriesKey entry.1 entry.2) known) {op : MetricOp}
    (hknown : ∀ entry ∈ op.entry, entry ∈ known) (hfits : op.Fits m.maxPoints) :
    (op.apply seriesKey m).Indexed seriesKey known := by
  cases op with
  | insert e => exact h.insertEnvelope hkey e (hknown _ rfl)
  | gc now => exact h.performGc now
  | restore series => exact h.restoreSeries hkey series (hknown _ rfl) hfits
  | compact now olderThanSec intervalSec => exact h.compactOldPoints now olderThanSec intervalSec

end Indexed

theorem maxPoints_apply (op : MetricOp) : (op.apply seriesKey m).maxPoints = m.maxPoints := by
  cases op with
  | insert e =>
    rw [MetricOp.apply, insertEnvelope]
    split <;> rfl
  | _ => rfl

theorem mem_foldl_narrow (prev : List UInt64) (tags : Tags) :
    key ∈ (tags.foldl m.narrow (some prev)).getD [] ↔
      key ∈ prev ∧ ∀ tag ∈ tags, key ∈ indexed m.tagIndex tag := by
  induction tags generalizing prev with
  | nil => simp
  | cons tag tags ih =>
    rw [List.foldl_cons, narrow, ih, List.mem_filter, List.forall_mem_cons, and_assoc,
      decide_eq_true_eq]
    rfl

theorem Indexed.mem_seriesFor (h : m.Indexed seriesKey known) (metric : Option String) {tags : Tags}
    (htags : tags ≠ []) : key ∈ m.seriesFor metric tags ↔ ∃ entry ∈ m.metadata.lookup key,
      (∀ name ∈ metric, entry.1 = name) ∧ ∀ tag ∈ tags, tag ∈ entry.2 := by
  obtain ⟨first, rest, rfl⟩ := List.exists_cons_of_ne_nil htags
  have hset : key ∈ ((first :: rest).foldl m.narrow none).getD [] ↔
      ∃ entry ∈ m.metadata.lookup key, ∀ tag ∈ first :: rest, tag ∈ entry.2 := by
    rw [List.foldl_cons]
    refine (mem_foldl_narrow (indexed m.tagIndex first) rest).trans ?_
    simp only [h.index_iff, List.forall_mem_cons]
    cases m.metadata.lookup key with
    | none => simp
    | some entry => simp
  cases metric with
  | none => simpa [seriesFor] using hset
  | some name =>
    rw [seriesFor, List.mem_filter, hset]
    cases m.metadata.lookup key with
    | none => simp
    | some entry => simp [and_comm]

/-- After any operations on a new store, restored series being no longer than what is kept and
the series of the operations having keys of their own, the index has a key for a tag exactly when
the metadata have the tag for the key, every series has metadata and no more points than are
kept, and a query by tags finds exactly the series with the given name and tags. -/
theorem index_exact (seriesKey : String → Tags → UInt64) (maxPoints : ℕ) (retentionSeconds : ℤ)
    (ops : List MetricOp)
    (hkey : Set.InjOn (fun entry => seriesKey entry.1 entry.2)
      {entry | ∃ op ∈ ops, op.entry = some entry})
    (hfits : ∀ op ∈ ops, op.Fits maxPoints) :
    let m := ops.foldl (MetricOp.apply seriesKey) (new maxPoints retentionSeconds)
    (∀ tag key, key ∈ indexed m.tagIndex tag ↔
        ∃ entry ∈ m.metadata.lookup key, tag ∈ entry.2) ∧
      (∀ nodeId key, (seriesIn m.inner nodeId key).isSome → (m.metadata.lookup key).isSome) ∧
      (∀ nodeId key, ∀ series ∈ seriesIn m.inner nodeId key, series.length ≤ maxPoints) ∧
      ∀ metric tags, tags ≠ [] → ∀ key, key ∈ m.seriesFor metric tags ↔
        ∃ entry ∈ m.metadata.lookup key,
          (∀ name ∈ metric, entry.1 = name) ∧ ∀ tag ∈ tags, tag ∈ entry.2 := by
  intro m
  have hstep : ∀ m : MetricStorage, ∀ op ∈ ops,
      m.Indexed seriesKey {entry | ∃ op ∈ ops, op.entry = some entry} ∧ m.maxPoints = maxPoints →
      (op.apply seriesKey m).Indexed seriesKey {entry | ∃ op ∈ ops, op.entry = some entry} ∧
        (op.apply seriesKey m).maxPoints = maxPoints := by
    rintro m op hop ⟨h, hmax⟩
    refine ⟨h.apply hkey (fun entry hentry => ⟨op, hop, hentry⟩) ?_, ?_⟩
    · rw [hmax]
      exact hfits op hop
    · rw [maxPoints_apply, hmax]
  obtain ⟨h, hmax⟩ := Run.invariant_foldl
    (s := new maxPoints retentionSeconds) ⟨indexed_new _ _, rfl⟩ hstep
  exact ⟨h.index_iff, h.described, hmax ▸ h.bounded, fun metric tags htags key =>
    h.mem_seriesFor metric htags⟩

def twoSeries : List MetricOp :=
  [.insert ⟨0, "up", 5, 1000, [("conn_id", "c")]⟩,
    .restore ⟨0, "down", [("conn_id", "c")], [⟨1000, 7⟩]⟩, .gc 2000, .compact 2000 1 1]

theorem index_exact_two :
    let m := twoSeries.foldl (MetricOp.apply fun name _ => UInt64.ofNat name.length) (new 10 60)
    m.seriesFor (some "up") [("conn_id", "c")] = [2] ∧
      ∀ key, key ∈ m.seriesFor (some "up") [("conn_id", "c")] ↔
        ∃ entry ∈ m.metadata.lookup key, (∀ name ∈ some "up", entry.1 = name) ∧
          ∀ tag ∈ [("conn_id", "c")], tag ∈ entry.2 := by
  have hkey : Set.InjOn (fun entry : String × Tags => UInt64.ofNat entry.1.length)
      {entry | ∃ op ∈ twoSeries, op.entry = some entry} := by
    have hentries : ∀ entry : String × Tags, (∃ op ∈ twoSeries, op.entry = some entry) →
        entry = ("up", [("conn_id", "c")]) ∨ entry = ("down", [("conn_id", "c")]) := by
      simp [twoSeries, MetricOp.entry, eq_comm]
    intro entry hentry entry' hentry' heq
    rcases hentries entry hentry with rfl | rfl <;> rcases hentries entry' hentry' with rfl | rfl
    · rfl
    · exact absurd heq (by decide)
    · exact absurd heq (by decide)
    · rfl
  have hfits : ∀ op ∈ twoSeries, op.Fits 10 := by simp [twoSeries, MetricOp.Fits]
  exact ⟨by decide +kernel, (index_exact _ 10 60 twoSeries hkey hfits).2.2.2 (some "up")
    [("conn_id", "c")] (by simp)⟩

end MetricStorage

end Fcore
