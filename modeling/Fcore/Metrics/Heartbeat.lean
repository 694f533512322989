import Fcore.Metrics.Snapshot

/-!
# The last heartbeat of a node

A node has a series of heartbeats for each set of tags it was seen with. Its last heartbeat is
the largest of the last points of these series. Points are kept in the order of arrival, so it
is the latest of all as long as the heartbeats of each series arrive in the order of their
times. One that arrives late hides those before it.
-/

namespace Fcore

namespace MetricStorage

def heartbeatMetric : String := "sys.heartbeat"

def isHeartbeat (m : MetricStorage) (key : UInt64) : Bool :=
  (m.metadata.lookup key).any fun entry => entry.1 = heartbeatMetric

def getLastHeartbeat (m : MetricStorage) (nodeId : Uuid) : Option ℤ :=
  (m.inner.lookup nodeId).bind fun node =>
    node.entries.foldl (fun latest entry =>
      if !m.isHeartbeat entry.1 then latest
      else match entry.2.getLast? with
        | some p => some (latest.elim p.timestamp fun cur => max cur p.timestamp)
        | none => latest) none

/-- The heartbeats of a node that are kept, over all its series. -/
def heartbeats (m : MetricStorage) (nodeId : Uuid) : List MetricPoint :=
  ((m.inner.lookup nodeId).map fun node =>
    (node.entries.filter fun entry => m.isHeartbeat entry.1).flatMap fun entry => entry.2).getD []

variable {m : MetricStorage} {nodeId : Uuid} {key : UInt64}
  {seriesKey : String → Tags → UInt64}

/-- The loop takes the largest of the last points. -/
theorem foldl_eq_max? (heartbeat : UInt64 → Bool) (latest : Option ℤ)
    (entries : List (Σ _ : UInt64, List MetricPoint)) :
    entries.foldl (fun latest entry =>
      if !heartbeat entry.1 then latest
      else match entry.2.getLast? with
        | some p => some (latest.elim p.timestamp fun cur => max cur p.timestamp)
        | none => latest) latest =
      (latest.toList ++ (entries.filter fun entry => heartbeat entry.1).filterMap fun entry =>
        entry.2.getLast?.map MetricPoint.timestamp).max? := by
  induction entries generalizing latest with
  | nil => cases latest <;> rfl
  | cons entry entries ih =>
    rw [List.foldl_cons, ih]
    cases hkey : heartbeat entry.1 with
    | false => simp [hkey]
    | true =>
      cases hlast : entry.2.getLast? with
      | none => simp [hkey, hlast]
      | some p =>
        cases latest with
        | none => simp [hkey, hlast]
        | some cur =>
          simp only [hkey, hlast, List.filter_cons_of_pos, List.filterMap_cons, Option.map_some]
          rfl

theorem getLastHeartbeat_of_sorted (h : ∀ key series, m.isHeartbeat key = true →
      seriesIn m.inner nodeId key = some series →
        series.Pairwise fun p q => p.timestamp ≤ q.timestamp) :
    m.getLastHeartbeat nodeId = ((m.heartbeats nodeId).map MetricPoint.timestamp).max? := by
  unfold getLastHeartbeat heartbeats
  cases hnode : m.inner.lookup nodeId with
  | none => rfl
  | some node =>
    rw [Option.bind_some, foldl_eq_max?, Option.map_some, Option.getD_some, Option.toList_none,
      List.nil_append]
    have hlast : ∀ entry ∈ node.entries.filter (fun entry => m.isHeartbeat entry.1),
        ∀ p ∈ entry.2, ∃ q ∈ entry.2.getLast?, p.timestamp ≤ q.timestamp := by
      intro entry hentry p hp
      obtain ⟨hmem, hkey⟩ := List.mem_filter.mp hentry
      have hseries : seriesIn m.inner nodeId entry.1 = some entry.2 := by
        rw [seriesIn, hnode, Option.bind_some, AList.lookup_of_mem_entries hmem]
      have : Std.Refl fun p q : MetricPoint => p.timestamp ≤ q.timestamp := ⟨fun _ => le_rfl⟩
      exact ⟨_, List.getLast?_eq_some_getLast (List.ne_nil_of_mem hp),
        (h _ _ hkey hseries).rel_getLast hp⟩
    generalize node.entries.filter (fun entry => m.isHeartbeat entry.1) = entries at hlast ⊢
    apply Option.ext
    intro latest
    simp only [List.max?_eq_some_iff, List.mem_filterMap, List.mem_map, List.mem_flatMap,
      Option.map_eq_some_iff]
    constructor
    · rintro ⟨⟨entry, hentry, q, hq, rfl⟩, hmax⟩
      refine ⟨⟨q, ⟨entry, hentry, List.mem_of_getLast? hq⟩, rfl⟩, ?_⟩
      rintro _ ⟨p, ⟨other, hother, hp⟩, rfl⟩
      obtain ⟨r, hr, hle⟩ := hlast other hother p hp
      exact hle.trans (hmax _ ⟨other, hother, r, hr, rfl⟩)
    · rintro ⟨⟨p, ⟨entry, hentry, hp⟩, rfl⟩, hmax⟩
      obtain ⟨q, hq, hle⟩ := hlast entry hentry p hp
      have hge := hmax _ ⟨q, ⟨entry, hentry, List.mem_of_getLast? hq⟩, rfl⟩
      refine ⟨⟨entry, hentry, q, hq, le_antisymm hge hle⟩, ?_⟩
      rintro _ ⟨other, hother, r, hr, rfl⟩
      exact hmax _ ⟨r, ⟨other, hother, List.mem_of_getLast? hr⟩, rfl⟩

/-! ## The order of arrival -/

theorem seriesIn_pushPoint (key' : UInt64) (e : MetricEnvelope) :
    seriesIn (m.pushPoint key' e).inner nodeId key =
      if nodeId = e.nodeId ∧ key = key' then
        some (trimSeries m.maxPoints (m.minTs e.timestamp)
          ((seriesIn m.inner nodeId key).getD [] ++ [⟨e.timestamp, e.value⟩]))
      else seriesIn m.inner nodeId key := by
  rw [pushPoint, seriesIn_put]
  split_ifs with hsame
  · rw [hsame.1, hsame.2, seriesIn]
    cases m.inner.lookup e.nodeId <;> rfl
  · rfl

theorem seriesIn_insertEnvelope (e : MetricEnvelope) :
    seriesIn (m.insertEnvelope seriesKey e).inner nodeId key =
      if nodeId = e.nodeId ∧ key = seriesKey e.name e.tags then
        some (trimSeries m.maxPoints (m.minTs e.timestamp)
          ((seriesIn m.inner nodeId key).getD [] ++ [⟨e.timestamp, e.value⟩]))
      else seriesIn m.inner nodeId key := by
  cases hlookup : m.metadata.lookup (seriesKey e.name e.tags) with
  | some entry =>
    rw [insertEnvelope_of_known (Option.isSome_of_mem hlookup)]
    exact seriesIn_pushPoint _ e
  | none =>
    rw [insertEnvelope_of_new hlookup]
    exact seriesIn_pushPoint _ e

/-- The store after a run of insertions. -/
def inserted (seriesKey : String → Tags → UInt64) (maxPoints : ℕ) (retentionSeconds : ℤ)
    (es : List MetricEnvelope) : MetricStorage :=
  es.foldl (insertEnvelope seriesKey) (new maxPoints retentionSeconds)

/-- The points of a series, in the order of arrival. -/
def arrived (seriesKey : String → Tags → UInt64) (nodeId : Uuid) (key : UInt64)
    (es : List MetricEnvelope) : List MetricPoint :=
  (es.filter fun e => decide (nodeId = e.nodeId ∧ key = seriesKey e.name e.tags)).map fun e =>
    ⟨e.timestamp, e.value⟩

theorem suffix_arrived {maxPoints : ℕ} {retentionSeconds : ℤ} {es : List MetricEnvelope}
    {series : List MetricPoint}
    (h : seriesIn (inserted seriesKey maxPoints retentionSeconds es).inner nodeId key =
      some series) : series <:+ arrived seriesKey nodeId key es := by
  induction es using List.reverseRecOn generalizing series with
  | nil => cases h
  | append_singleton es e ih =>
    rw [inserted, List.foldl_concat, ← inserted, seriesIn_insertEnvelope] at h
    rw [arrived, List.filter_append, List.map_append, ← arrived]
    split_ifs at h with hsame
    · obtain rfl := Option.some.inj h
      have hprev : (seriesIn (inserted seriesKey maxPoints retentionSeconds es).inner nodeId
          key).getD [] <:+ arrived seriesKey nodeId key es := by
        cases hold : seriesIn (inserted seriesKey maxPoints retentionSeconds es).inner nodeId
          key with
        | none => exact List.nil_suffix
        | some old => exact ih hold
      refine ((List.dropWhile_suffix _).trans (List.drop_suffix _ _)).trans ?_
      simpa [hsame] using List.suffix_append_self_iff.mpr hprev
    · simpa [hsame] using ih h

/-- The heartbeats of each series of the node arrive in the order of their times. -/
def HeartbeatsInOrder (seriesKey : String → Tags → UInt64) (m : MetricStorage) (nodeId : Uuid)
    (es : List MetricEnvelope) : Prop :=
  es.Pairwise fun e e' => nodeId = e.nodeId → nodeId = e'.nodeId →
    seriesKey e.name e.tags = seriesKey e'.name e'.tags →
      m.isHeartbeat (seriesKey e.name e.tags) = true → e.timestamp ≤ e'.timestamp

/-- The last heartbeat of a node is the latest one that is kept, if the heartbeats of each of its
series arrived in the order of their times. -/
theorem lastHeartbeat_of_inOrder (seriesKey : String → Tags → UInt64) (maxPoints : ℕ)
    (retentionSeconds : ℤ) (es : List MetricEnvelope) (nodeId : Uuid)
    (h : HeartbeatsInOrder seriesKey (inserted seriesKey maxPoints retentionSeconds es) nodeId es) :
    let m := inserted seriesKey maxPoints retentionSeconds es
    m.getLastHeartbeat nodeId = ((m.heartbeats nodeId).map MetricPoint.timestamp).max? := by
  refine getLastHeartbeat_of_sorted fun key series hkey hseries => ?_
  refine List.Pairwise.sublist (suffix_arrived hseries).sublist ?_
  rw [arrived, List.pairwise_map, List.pairwise_filter]
  refine h.imp fun hrel he he' => ?_
  simp only [decide_eq_true_eq] at he he'
  exact hrel he.1 he'.1 (he.2.symm.trans he'.2) (he.2 ▸ hkey)

def heartbeatAt (timestamp : ℤ) : MetricEnvelope := ⟨0, heartbeatMetric, 1, timestamp, []⟩

theorem lastHeartbeat_of_inOrder_two :
    (inserted (fun _ _ => 7) 10 60 [heartbeatAt 1000, heartbeatAt 2000]).getLastHeartbeat 0 =
      some 2000 :=
  (lastHeartbeat_of_inOrder (fun _ _ => 7) 10 60 [heartbeatAt 1000, heartbeatAt 2000] 0
    (by unfold HeartbeatsInOrder; decide)).trans (by decide)

/-- A heartbeat that arrives late. -/
theorem lastHeartbeat_of_late :
    let m := inserted (fun _ _ => 7) 10 60 [heartbeatAt 2000, heartbeatAt 1000]
    m.getLastHeartbeat 0 = some 1000 ∧
      ((m.heartbeats 0).map MetricPoint.timestamp).max? = some 2000 := by
  decide

end MetricStorage

end Fcore
