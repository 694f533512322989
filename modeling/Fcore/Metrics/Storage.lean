import Fcore.Lib.Timeline
import Fcore.Memory.Env
import Fcore.Lib.Table
import Mathlib.Data.Rat.Floor

/-!
# The metric store

Samples are kept per node and per series, in the order of arrival. A series is
found through an index from tags to series keys. Values are floating-point
numbers in the code; here they are rationals, so sums and differences are exact
and the conversion to an integer is the floor of a non-negative value.
-/

namespace Fcore

structure MetricPoint where
  timestamp : ℤ
  value : ℚ
  deriving DecidableEq, Repr

abbrev Tags := List (String × String)

structure MetricEnvelope where
  nodeId : Uuid
  name : String
  value : ℚ
  timestamp : ℤ
  tags : Tags

/-- The sets of series keys in the tag index are lists without repetitions. -/
structure MetricStorage where
  inner : Table Uuid (Table UInt64 (List MetricPoint))
  metadata : Table UInt64 (String × Tags)
  tagIndex : Table String (Table String (List UInt64))
  maxPoints : ℕ
  retentionSeconds : ℤ

def asU64 (x : ℚ) : ℕ := x.floor.toNat

namespace MetricStorage

def new (maxPoints : ℕ) (retentionSeconds : ℤ) : MetricStorage where
  inner := ∅
  metadata := ∅
  tagIndex := ∅
  maxPoints := maxPoints
  retentionSeconds := retentionSeconds

def indexTag (key : UInt64) (index : Table String (Table String (List UInt64)))
    (tag : String × String) : Table String (Table String (List UInt64)) :=
  let values := (index.lookup tag.1).getD ∅
  AList.insert tag.1 (AList.insert tag.2 (((values.lookup tag.2).getD []).insert key) values) index

/-- The two trimming loops of an insertion: at most `maxPoints` points, and none
at the front that is past its retention. -/
def trimSeries (maxPoints : ℕ) (minTs : ℤ) (series : List MetricPoint) : List MetricPoint :=
  (series.drop (series.length - maxPoints)).dropWhile fun p => decide (p.timestamp < minTs)

/-- The hash of a name and its tags is the argument `seriesKey`. -/
def insertEnvelope (seriesKey : String → Tags → UInt64) (m : MetricStorage)
    (e : MetricEnvelope) : MetricStorage :=
  let key := seriesKey e.name e.tags
  let m := match m.metadata.lookup key with
    | some _ => m
    | none => { m with
        tagIndex := e.tags.foldl (indexTag key) m.tagIndex
        metadata := AList.insert key (e.name, e.tags) m.metadata }
  let nodeMap := (m.inner.lookup e.nodeId).getD ∅
  let series := (nodeMap.lookup key).getD [] ++ [⟨e.timestamp, e.value⟩]
  let kept := trimSeries m.maxPoints (e.timestamp - m.retentionSeconds * 1000) series
  { m with inner := AList.insert e.nodeId (AList.insert key kept nodeMap) m.inner }

/-- One turn of the loop over the tags of a query: intersect with the keys of
the next tag. -/
def narrow (m : MetricStorage) (result : Option (List UInt64)) (tag : String × String) :
    Option (List UInt64) :=
  let current := ((m.tagIndex.lookup tag.1).bind fun values => values.lookup tag.2).getD []
  match result with
  | none => some current
  | some prev => some (prev.filter fun key => key ∈ current)

def seriesFor (m : MetricStorage) (metric : Option String) (tags : Tags) : List UInt64 :=
  let set := (tags.foldl m.narrow none).getD []
  match metric with
  | some metric => set.filter fun key => (m.metadata.lookup key).any fun entry => entry.1 = metric
  | none => set

def matching (m : MetricStorage) (metric : Option String) (tags : Tags) :
    List (List MetricPoint) :=
  m.inner.entries.flatMap fun node =>
    (m.seriesFor metric tags).filterMap fun key => node.2.lookup key

def inRange (lo hi : ℤ) (series : List MetricPoint) : List MetricPoint :=
  Timeline.within MetricPoint.timestamp lo hi series

def deltaSum (m : MetricStorage) (metric : Option String) (tags : Tags) (lo hi : ℤ) : ℚ :=
  ((m.matching metric tags).map fun series =>
    max (Timeline.rise MetricPoint.value (inRange lo hi series)) 0).sum

def uplinkMetric : String := "user.traffic.uplink"

def downlinkMetric : String := "user.traffic.downlink"

def connTags (connId : Uuid) : Tags := [("conn_id", connId.toText)]

def getConnectionDeltaTraffic (m : MetricStorage) (connId : Uuid) (fromMs toMs : ℤ) : ℕ × ℕ :=
  (asU64 (m.deltaSum (some uplinkMetric) (connTags connId) fromMs toMs),
    asU64 (m.deltaSum (some downlinkMetric) (connTags connId) fromMs toMs))

def latestSum (m : MetricStorage) (metric : Option String) (tags : Tags) : ℚ :=
  ((m.matching metric tags).filterMap fun series =>
    series.getLast?.map fun p => p.value).sum

def onlineMetric : String := "user.traffic.online"

def getConnectionOnlineCount (m : MetricStorage) (connId : Uuid) : ℕ :=
  asU64 (max (m.latestSum (some onlineMetric) (connTags connId)) 0)

def connSeries (m : MetricStorage) (connId : Uuid) : List (List MetricPoint) :=
  m.matching (some uplinkMetric) (connTags connId) ++
    m.matching (some downlinkMetric) (connTags connId)

theorem asU64_zero : asU64 0 = 0 := by decide

theorem asU64_natCast (n : ℕ) : asU64 n = n := by
  rw [asU64, ← Int.cast_natCast, Rat.floor_intCast, Int.toNat_natCast]

theorem deltaSum_eq_zero {m : MetricStorage} {metric : Option String} {tags : Tags} {lo hi : ℤ}
    (h : ∀ series ∈ m.matching metric tags, inRange lo hi series = []) :
    m.deltaSum metric tags lo hi = 0 := by
  refine List.sum_eq_zero fun x hx => ?_
  obtain ⟨series, hseries, rfl⟩ := List.mem_map.mp hx
  rw [h series hseries]
  simp

theorem exists_sample {m : MetricStorage} {connId : Uuid} {lo hi : ℤ}
    (h : m.getConnectionDeltaTraffic connId lo hi ≠ (0, 0)) :
    ∃ series ∈ m.connSeries connId, ∃ p ∈ series, lo ≤ p.timestamp ∧ p.timestamp ≤ hi := by
  by_contra hnone
  push Not at hnone
  refine h ?_
  have hempty : ∀ series ∈ m.connSeries connId, inRange lo hi series = [] := by
    intro series hseries
    refine List.filter_eq_nil_iff.mpr fun p hp => ?_
    by_cases hlo : lo ≤ p.timestamp
    · simp [hnone series hseries p hp hlo]
    · simp [hlo]
  have hup := deltaSum_eq_zero fun series hs => hempty series (List.mem_append_left _ hs)
  have hdown := deltaSum_eq_zero fun series hs => hempty series (List.mem_append_right _ hs)
  rw [getConnectionDeltaTraffic, hup, hdown, asU64_zero]

end MetricStorage

end Fcore
