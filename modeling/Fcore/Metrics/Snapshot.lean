import Fcore.Lib.Runs
import Fcore.Metrics.Storage

/-!
# Collection, compaction and restoring of metrics

A collection drops the points past their retention, then the series that have none left, and
what the metadata and the tag index say about them. Compaction thins out the old points of a
series. Both run before a snapshot is saved, from which series are restored one by one.

Times are milliseconds. The division into buckets is that of machine integers, which rounds
towards zero; the code does not return for the interval zero.
-/

namespace Fcore

namespace MetricStorage

abbrev Inner := Table Uuid (Table UInt64 (List MetricPoint))

abbrev TagIndex := Table String (Table String (List UInt64))

def seriesIn (inner : Inner) (nodeId : Uuid) (key : UInt64) : Option (List MetricPoint) :=
  (inner.lookup nodeId).bind fun node => node.lookup key

/-- The keys that the index has for a tag. -/
def indexed (index : TagIndex) (tag : String × String) : List UInt64 :=
  ((index.lookup tag.1).bind fun values => values.lookup tag.2).getD []

/-! ## Collection -/

def retainInner (minTs : ℤ) (inner : Inner) : Inner :=
  (inner.mapRows fun _ node =>
    (node.mapRows fun _ series => series.dropWhile fun p => decide (p.timestamp < minTs)).filterRows
      fun _ series => !series.isEmpty).filterRows fun _ node => !node.entries.isEmpty

def aliveKeys (inner : Inner) : List UInt64 :=
  inner.entries.flatMap fun node => node.2.keys

def retainMetadata (alive : List UInt64) (metadata : Table UInt64 (String × Tags)) :
    Table UInt64 (String × Tags) :=
  metadata.filterRows fun key _ => decide (key ∈ alive)

def retainIndex (alive : List UInt64) (index : TagIndex) : TagIndex :=
  (index.mapRows fun _ values =>
    (values.mapRows fun _ keys => keys.filter fun key => decide (key ∈ alive)).filterRows
      fun _ keys => !keys.isEmpty).filterRows fun _ values => !values.entries.isEmpty

def minTs (m : MetricStorage) (now : ℤ) : ℤ := now - m.retentionSeconds * 1000

def performGc (now : ℤ) (m : MetricStorage) : MetricStorage :=
  let inner := retainInner (m.minTs now) m.inner
  let alive := aliveKeys inner
  { m with
    inner := inner
    metadata := retainMetadata alive m.metadata
    tagIndex := retainIndex alive m.tagIndex }

/-! ## Compaction -/

structure Compacting where
  result : List MetricPoint
  currentBucket : Option ℤ
  lastPoint : Option MetricPoint

def bucket (interval : ℤ) (p : MetricPoint) : ℤ := p.timestamp.tdiv interval

def Compacting.push (interval : ℤ) (c : Compacting) (p : MetricPoint) : Compacting :=
  match c.currentBucket with
  | none => { c with currentBucket := some (bucket interval p), lastPoint := some p }
  | some b =>
    if b = bucket interval p then { c with lastPoint := some p }
    else ⟨c.result ++ c.lastPoint.toList, some (bucket interval p), some p⟩

def compactSeries (points : List MetricPoint) (interval : ℤ) : List MetricPoint :=
  if points.length < 2 then points
  else
    let c := points.foldl (Compacting.push interval) ⟨[], none, none⟩
    c.result ++ c.lastPoint.toList

/-- What compaction makes of one series. -/
def compactPoints (threshold interval : ℤ) (original : List MetricPoint) : List MetricPoint :=
  if original.length < 100 then original
  else
    compactSeries (original.filter fun p => decide (p.timestamp < threshold)) interval ++
      original.filter fun p => !decide (p.timestamp < threshold)

def compactOldPoints (now olderThanSec intervalSec : ℤ) (m : MetricStorage) : MetricStorage :=
  { m with
    inner := m.inner.mapRows fun _ node => node.mapRows fun _ series =>
      compactPoints (now - olderThanSec * 1000) (intervalSec * 1000) series }

/-! ## Restoring -/

end MetricStorage

structure MetricSeriesSnapshot where
  nodeId : Uuid
  metric : String
  tags : Tags
  points : List MetricPoint
  deriving DecidableEq, Repr

namespace MetricStorage

def restoreSeries (seriesKey : String → Tags → UInt64) (m : MetricStorage)
    (series : MetricSeriesSnapshot) : MetricStorage :=
  let key := seriesKey series.metric series.tags
  let node := (m.inner.lookup series.nodeId).getD ∅
  { m with
    metadata := m.metadata.insert key (series.metric, series.tags)
    tagIndex := series.tags.foldl (indexTag key) m.tagIndex
    inner := m.inner.insert series.nodeId (node.insert key series.points) }

/-! ## Series by node and key -/

variable {m : MetricStorage} {inner : Inner} {index : TagIndex} {nodeId : Uuid} {key : UInt64}
  {tag : String × String} {alive : List UInt64}

-- an empty node is dropped, which no series notices
theorem bind_lookup_filter {κ ν : Type*} [DecidableEq κ] (node : Option (Table κ ν)) (a : κ) :
    ((node.filter fun values => !values.entries.isEmpty).bind fun values => values.lookup a) =
      node.bind fun values => values.lookup a := by
  cases node with
  | none => rfl
  | some values =>
    cases hempty : values.entries.isEmpty with
    | false => simp [Option.filter, hempty]
    | true =>
      obtain rfl : values = ∅ := AList.ext (List.isEmpty_iff.mp hempty)
      simp [Option.filter]

theorem getD_filter_isEmpty {α : Type*} (keys : Option (List α)) :
    (keys.filter fun keys => !keys.isEmpty).getD [] = keys.getD [] := by
  cases keys with
  | none => rfl
  | some keys => cases keys <;> rfl

/-! ## Insertion in two steps -/

def describe (key : UInt64) (entry : String × Tags) (m : MetricStorage) : MetricStorage :=
  { m with
    metadata := m.metadata.insert key entry
    tagIndex := entry.2.foldl (indexTag key) m.tagIndex }

def pushPoint (key : UInt64) (e : MetricEnvelope) (m : MetricStorage) : MetricStorage :=
  let nodeMap := (m.inner.lookup e.nodeId).getD ∅
  let series := (nodeMap.lookup key).getD [] ++ [⟨e.timestamp, e.value⟩]
  let kept := trimSeries m.maxPoints (m.minTs e.timestamp) series
  { m with inner := m.inner.insert e.nodeId (nodeMap.insert key kept) }

theorem insertEnvelope_of_known {seriesKey : String → Tags → UInt64} {e : MetricEnvelope}
    (h : (m.metadata.lookup (seriesKey e.name e.tags)).isSome) :
    m.insertEnvelope seriesKey e = m.pushPoint (seriesKey e.name e.tags) e := by
  obtain ⟨entry, hentry⟩ := Option.isSome_iff_exists.mp h
  simp only [insertEnvelope, hentry]
  rfl

theorem insertEnvelope_of_new {seriesKey : String → Tags → UInt64} {e : MetricEnvelope}
    (h : m.metadata.lookup (seriesKey e.name e.tags) = none) :
    m.insertEnvelope seriesKey e =
      (m.describe (seriesKey e.name e.tags) (e.name, e.tags)).pushPoint
        (seriesKey e.name e.tags) e := by
  simp only [insertEnvelope, h]
  rfl

theorem seriesIn_retainInner (minTs : ℤ) : seriesIn (retainInner minTs inner) nodeId key =
    ((seriesIn inner nodeId key).map fun series =>
      series.dropWhile fun p => decide (p.timestamp < minTs)).filter
        fun series => !series.isEmpty := by
  rw [seriesIn, retainInner, AList.lookup_filterRows, bind_lookup_filter, AList.lookup_mapRows, seriesIn]
  cases inner.lookup nodeId with
  | none => rfl
  | some node => simp

theorem mem_aliveKeys : key ∈ aliveKeys inner ↔ ∃ nodeId, (seriesIn inner nodeId key).isSome := by
  simp only [aliveKeys, List.mem_flatMap, seriesIn]
  constructor
  · rintro ⟨node, hnode, hkey⟩
    refine ⟨node.1, ?_⟩
    rw [AList.lookup_of_mem_entries hnode]
    exact AList.lookup_isSome.mpr hkey
  · rintro ⟨nodeId, hsome⟩
    cases hnode : inner.lookup nodeId with
    | none => simp [hnode] at hsome
    | some node =>
      rw [hnode] at hsome
      exact ⟨⟨nodeId, node⟩, AList.mem_entries_iff.mpr hnode, AList.lookup_isSome.mp hsome⟩

theorem indexed_retainIndex : indexed (retainIndex alive index) tag =
    (indexed index tag).filter fun key => decide (key ∈ alive) := by
  rw [indexed, retainIndex, AList.lookup_filterRows, bind_lookup_filter, AList.lookup_mapRows,
    indexed]
  cases index.lookup tag.1 with
  | none => rfl
  | some values =>
    rw [Option.map_some, Option.bind_some, Option.bind_some, AList.lookup_filterRows,
      getD_filter_isEmpty, AList.lookup_mapRows]
    cases values.lookup tag.2 <;> rfl

theorem mem_indexed_indexTag {key' : UInt64} {tag' : String × String} :
    key ∈ indexed (indexTag key' index tag') tag ↔
      key ∈ indexed index tag ∨ key = key' ∧ tag = tag' := by
  simp only [indexed, indexTag, AList.lookup_insert_eq_ite]
  by_cases hname : tag.1 = tag'.1
  · rw [if_pos hname, Option.bind_some, AList.lookup_insert_eq_ite, hname]
    by_cases hvalue : tag.2 = tag'.2
    · rw [if_pos hvalue, Option.getD_some, List.mem_insert_iff, hvalue]
      have htag : tag = tag' := Prod.ext hname hvalue
      cases index.lookup tag'.1 <;> simp [htag, or_comm]
    · have htag : tag ≠ tag' := fun h => hvalue (congrArg Prod.snd h)
      rw [if_neg hvalue]
      cases index.lookup tag'.1 <;> simp [htag]
  · have htag : tag ≠ tag' := fun h => hname (congrArg Prod.fst h)
    simp [hname, htag]

theorem mem_indexed_foldl_indexTag {key' : UInt64} (tags : Tags) :
    key ∈ indexed (tags.foldl (indexTag key') index) tag ↔
      key ∈ indexed index tag ∨ key = key' ∧ tag ∈ tags := by
  induction tags generalizing index with
  | nil => simp
  | cons t tags ih =>
    rw [List.foldl_cons, ih, mem_indexed_indexTag, List.mem_cons]
    tauto

theorem seriesIn_insert (node : Table UInt64 (List MetricPoint)) (nodeId' : Uuid) :
    seriesIn (inner.insert nodeId' node) nodeId key =
      if nodeId = nodeId' then node.lookup key else seriesIn inner nodeId key := by
  rw [seriesIn, AList.lookup_insert_eq_ite]
  split_ifs <;> rfl

/-- A point list put into a node, which is made if it is not there. -/
theorem seriesIn_put (nodeId' : Uuid) (key' : UInt64) (points : List MetricPoint) :
    seriesIn (inner.insert nodeId' (((inner.lookup nodeId').getD ∅).insert key' points)) nodeId key =
      if nodeId = nodeId' ∧ key = key' then some points else seriesIn inner nodeId key := by
  rw [seriesIn_insert, AList.lookup_insert_eq_ite]
  by_cases hnode : nodeId = nodeId'
  · subst hnode
    by_cases hkey : key = key'
    · simp [hkey]
    · simp only [hkey, and_false, if_false, if_true, seriesIn]
      cases inner.lookup nodeId <;> simp
  · simp [hnode]

theorem seriesIn_compactOldPoints (now olderThanSec intervalSec : ℤ) :
    seriesIn (m.compactOldPoints now olderThanSec intervalSec).inner nodeId key =
      (seriesIn m.inner nodeId key).map
        (compactPoints (now - olderThanSec * 1000) (intervalSec * 1000)) := by
  rw [seriesIn, compactOldPoints, AList.lookup_mapRows, seriesIn]
  cases m.inner.lookup nodeId with
  | none => rfl
  | some node => simp

/-! ## What compaction keeps -/

theorem foldl_push (interval : ℤ) (points result : List MetricPoint) (p : MetricPoint) :
    let c := points.foldl (Compacting.push interval) ⟨result, some (bucket interval p), some p⟩
    c.result ++ c.lastPoint.toList = result ++ lastOfRuns (bucket interval) (p :: points) := by
  induction points generalizing result p with
  | nil => rfl
  | cons q points ih =>
    rw [List.foldl_cons, Compacting.push, lastOfRuns]
    dsimp only
    by_cases hbucket : bucket interval p = bucket interval q
    · rw [if_pos hbucket, if_pos hbucket, hbucket]
      exact ih result q
    · rw [if_neg hbucket, if_neg hbucket]
      have hnext := ih (result ++ [p]) q
      rwa [List.append_assoc, List.singleton_append] at hnext

/-- Compaction keeps the last point of every run of points in one bucket. -/
theorem compactSeries_eq (points : List MetricPoint) (interval : ℤ) :
    compactSeries points interval = lastOfRuns (bucket interval) points := by
  unfold compactSeries
  match points with
  | [] => rfl
  | [p] => rfl
  | p :: q :: points => exact foldl_push interval (q :: points) [] p

theorem length_compactPoints_le (threshold interval : ℤ) (points : List MetricPoint) :
    (compactPoints threshold interval points).length ≤ points.length := by
  unfold compactPoints
  split_ifs
  · exact le_rfl
  · rw [compactSeries_eq, List.length_append]
    have hold := (lastOfRuns_sublist (bucket interval)
      (points.filter fun p => decide (p.timestamp < threshold))).length_le
    have hsplit := List.length_eq_length_filter_add (l := points)
      fun p => decide (p.timestamp < threshold)
    omega

end MetricStorage

end Fcore
