import Fcore.Handlers.SubscriptionTraffic

/-!
# Today and this month in the traffic report

The day and the month of a report should hold what is booked in their current bucket and
the live segments of that bucket. The booked part is taken from two maps, which the loops
over the environments empty entry by entry: what a loop adds to a value it takes out of its
map, so nothing is added twice or left out. The live part is added segment by segment, and
the bucket of a segment is not looked at. `ofPeriod_assemble` is the account, and the
values are right exactly if no segment with bytes is of an older bucket.
-/

namespace Fcore

open Traffic (Direction SegmentTraffic dayStart monthlyAnchor)

def Period.pick {α : Type*} (period : Period) (daily monthly : α) : α :=
  match period with
  | .day => daily
  | .month => monthly

def Traffic.SegmentTraffic.bucket (segment : SegmentTraffic) (period : Period) : DateTime :=
  period.pick segment.dayBucket segment.monthBucket

def currentBucket (createdAt now : DateTime) (period : Period) : DateTime :=
  period.pick (dayStart now) (monthlyAnchor createdAt now)

namespace SubscriptionTraffic

def ofPeriod (t : SubscriptionTraffic) (period : Period) : TrafficValue :=
  period.pick t.daily t.monthly

def sumsBytes (dir : Direction) (sums : ℤ × ℤ) : ℕ := (TrafficValue.ofSums sums).get dir

namespace Assembly

def pending (a : Assembly) (period : Period) : Table String (ℤ × ℤ) :=
  period.pick a.dailyMap a.monthlyMap

def pendingBytes (a : Assembly) (period : Period) (dir : Direction) : ℕ :=
  (a.pending period).total (sumsBytes dir)

end Assembly

section Loops

variable (period : Period) (dir : Direction)

theorem ofPeriod_addPersisted (t : SubscriptionTraffic) (env : String)
    (total daily monthly : TrafficValue) :
    ((t.addPersisted env total daily monthly).ofPeriod period).get dir =
      (t.ofPeriod period).get dir + (period.pick daily monthly).get dir := by
  cases period with
  | day => exact TrafficValue.get_add _ _ dir
  | month => exact TrafficValue.get_add _ _ dir

theorem sumsBytes_add_total_erase (env : String) (map : Table String (ℤ × ℤ)) :
    sumsBytes dir ((map.lookup env).getD (0, 0)) + (AList.erase env map).total (sumsBytes dir) =
      map.total (sumsBytes dir) := by
  rw [← AList.total_erase (sumsBytes dir) env map, add_comm]
  cases map.lookup env with
  | none => cases dir <;> rfl
  | some sums => rfl

theorem addEnvTotal_pending (a : Assembly) (row : String × ℤ × ℤ) :
    ((addEnvTotal a row).result.ofPeriod period).get dir +
        (addEnvTotal a row).pendingBytes period dir =
      (a.result.ofPeriod period).get dir + a.pendingBytes period dir := by
  rw [addEnvTotal, ofPeriod_addPersisted, Nat.add_assoc]
  cases period with
  | day => exact congrArg _ (sumsBytes_add_total_erase dir row.1 a.dailyMap)
  | month => exact congrArg _ (sumsBytes_add_total_erase dir row.1 a.monthlyMap)

theorem addDailyRest_month (a : Assembly) (row : Σ _ : String, ℤ × ℤ) :
    (addDailyRest a row).result.monthly.get dir + (addDailyRest a row).pendingBytes .month dir =
      a.result.monthly.get dir + a.pendingBytes .month dir := by
  have hadd := ofPeriod_addPersisted .month dir a.result row.1 0 (.ofSums row.2)
    (.ofSums ((a.monthlyMap.lookup row.1).getD (0, 0)))
  change ((a.result.addPersisted _ _ _ _).ofPeriod .month).get dir + _ = _
  rw [hadd, Nat.add_assoc]
  exact congrArg _ (sumsBytes_add_total_erase dir row.1 a.monthlyMap)

theorem ofPeriod_loops (a : Assembly) (envTotals : List (String × ℤ × ℤ)) :
    let a' := envTotals.foldl addEnvTotal a
    let a'' := a'.dailyMap.entries.foldl addDailyRest a'
    ((a''.monthlyMap.entries.foldl addMonthlyRest a''.result).ofPeriod period).get dir =
      (a.result.ofPeriod period).get dir + a.pendingBytes period dir := by
  intro a' a''
  have hfirst : (a'.result.ofPeriod period).get dir + a'.pendingBytes period dir =
      (a.result.ofPeriod period).get dir + a.pendingBytes period dir :=
    Aggregate.foldl_eq_self
      (fun a : Assembly => (a.result.ofPeriod period).get dir + a.pendingBytes period dir)
      (addEnvTotal_pending period dir) envTotals a
  rw [← hfirst]
  cases period with
  | day =>
    have hsecond : a''.result.daily.get dir =
        a'.result.daily.get dir + a'.pendingBytes .day dir :=
      Aggregate.foldl_eq_add_sum (fun a : Assembly => a.result.daily.get dir)
        (fun row => sumsBytes dir row.2)
        (fun a row => ofPeriod_addPersisted .day dir a.result row.1 _ _ _) a'.dailyMap.entries a'
    rw [show a'.result.ofPeriod .day = a'.result.daily from rfl, ← hsecond]
    refine Aggregate.foldl_eq_self (fun t : SubscriptionTraffic => t.daily.get dir)
      (fun t row => ?_) a''.monthlyMap.entries a''.result
    have hadd := ofPeriod_addPersisted .day dir t row.1 0 0 (.ofSums row.2)
    exact hadd.trans (by rw [Period.pick, TrafficValue.get_zero]; rfl)
  | month =>
    have hsecond : a''.result.monthly.get dir + a''.pendingBytes .month dir =
        a'.result.monthly.get dir + a'.pendingBytes .month dir :=
      Aggregate.foldl_eq_self
        (fun a : Assembly => a.result.monthly.get dir + a.pendingBytes .month dir)
        (addDailyRest_month dir) a'.dailyMap.entries a'
    rw [show a'.result.ofPeriod .month = a'.result.monthly from rfl, ← hsecond]
    exact Aggregate.foldl_eq_add_sum (fun t : SubscriptionTraffic => t.monthly.get dir)
      (fun row => sumsBytes dir row.2)
      (fun t row => ofPeriod_addPersisted .month dir t row.1 0 0 (.ofSums row.2))
      a''.monthlyMap.entries a''.result

end Loops

section Live

variable (period : Period) (dir : Direction)

theorem ofPeriod_addLiveSegment (t : SubscriptionTraffic) (env : String)
    (segment : SegmentTraffic) :
    ((t.addLiveSegment env segment).ofPeriod period).get dir =
      (t.ofPeriod period).get dir + segment.bytes dir := by
  rw [← TrafficValue.get_ofSegment, ← TrafficValue.get_add]
  cases period with
  | day => rfl
  | month => rfl

theorem ofPeriod_addConnTotal (t : SubscriptionTraffic) (env : String) (connTotal : TrafficValue) :
    (t.addConnTotal env connTotal).ofPeriod period = t.ofPeriod period := by
  unfold addConnTotal
  dsimp only
  split
  · rfl
  · split
    · rfl
    · rfl

theorem ofPeriod_addConnection (metrics : MetricStorage) (createdAt now : DateTime)
    (t : SubscriptionTraffic) (wm : ConnWatermark) :
    ((t.addConnection metrics createdAt now wm).ofPeriod period).get dir =
      (t.ofPeriod period).get dir +
        ((liveSegments metrics createdAt now wm).map fun s => s.bytes dir).sum := by
  unfold addConnection
  rw [ofPeriod_addConnTotal]
  exact Aggregate.foldl_eq_add_sum (fun t : SubscriptionTraffic => (t.ofPeriod period).get dir)
    (fun s => s.bytes dir) (fun t s => ofPeriod_addLiveSegment period dir t wm.env s) _ t

end Live

theorem total_mapOfRows {rows : List (String × ℤ × ℤ)} (h : (rows.map Prod.fst).Nodup)
    (dir : Direction) : (mapOfRows rows).total (sumsBytes dir) = rowBytes rows dir := by
  rw [mapOfRows, AList.total_foldl_insert (sumsBytes dir) h fun _ _ => rfl, AList.total_empty,
    zero_add]
  rfl

/-- A period of a report: the rows read for it and the live bytes of every bucket. -/
theorem ofPeriod_assemble (metrics : MetricStorage) (createdAt now : DateTime) (total : ℤ × ℤ)
    (envTotals : List (String × ℤ × ℤ)) {dailyRows monthlyRows : List (String × ℤ × ℤ)}
    (hdaily : (dailyRows.map Prod.fst).Nodup) (hmonthly : (monthlyRows.map Prod.fst).Nodup)
    (watermarks : List ConnWatermark) (period : Period) (dir : Direction) :
    ((assemble metrics createdAt now total envTotals dailyRows monthlyRows watermarks).ofPeriod
        period).get dir =
      rowBytes (period.pick dailyRows monthlyRows) dir +
        liveBytes metrics createdAt now watermarks dir := by
  have hlive := Aggregate.foldl_eq_add_sum
    (fun t : SubscriptionTraffic => (t.ofPeriod period).get dir)
    (fun wm => ((liveSegments metrics createdAt now wm).map fun s => s.bytes dir).sum)
    (ofPeriod_addConnection period dir metrics createdAt now) watermarks
  unfold assemble
  rw [hlive, ofPeriod_loops period dir]
  congr 1
  cases period with
  | day =>
    change (TrafficValue.get 0 dir) + (mapOfRows dailyRows).total (sumsBytes dir) = _
    rw [total_mapOfRows hdaily, TrafficValue.get_zero, zero_add]
    rfl
  | month =>
    change (TrafficValue.get 0 dir) + (mapOfRows monthlyRows).total (sumsBytes dir) = _
    rw [total_mapOfRows hmonthly, TrafficValue.get_zero, zero_add]
    rfl

end SubscriptionTraffic

def Traffic.Direction.ofSums (dir : Direction) (sums : ℤ × ℤ) : ℤ :=
  match dir with
  | .uplink => sums.1
  | .downlink => sums.2

namespace Db

theorem nodup_byEnv (rows : List (Σ _ : TrafficKey, TrafficRow)) :
    ((byEnv rows).map Prod.fst).Nodup := by
  rw [byEnv, List.map_map]
  exact (List.map_id _).symm ▸ List.nodup_dedup _

theorem sum_byEnv (rows : List (Σ _ : TrafficKey, TrafficRow)) (dir : Direction) :
    ((byEnv rows).map fun row => dir.ofSums row.2).sum = sumBytes rows dir := by
  rw [sumBytes, ← Aggregate.sum_groups (fun e : Σ _ : TrafficKey, TrafficRow => e.2.env)
    (fun e => e.2.bytes dir) rows, byEnv, List.map_map]
  cases dir with
  | uplink => rfl
  | downlink => rfl

theorem nodup_envBreakdown (subId : Uuid) (period : Period) (bucket : DateTime) (db : Db) :
    ((db.envBreakdown subId period bucket).map Prod.fst).Nodup :=
  nodup_byEnv _

def bookedIn (subId : Uuid) (period : Period) (bucket : DateTime) (db : Db) (dir : Direction) : ℤ :=
  sumBytes ((db.liveTraffic subId period).filter fun e => decide (e.1.bucket = bucket)) dir

end Db

section Periods

open SubscriptionTraffic

theorem cast_sumsBytes (dir : Direction) (sums : ℤ × ℤ) :
    (sumsBytes dir sums : ℤ) = dir.ofSums sums + ((-dir.ofSums sums).toNat : ℤ) := by
  cases dir <;>
    simp only [sumsBytes, TrafficValue.ofSums, TrafficValue.get, Direction.ofSums] <;> omega

theorem cast_rowBytes (rows : List (String × ℤ × ℤ)) (dir : Direction) :
    (rowBytes rows dir : ℤ) = (rows.map fun row => dir.ofSums row.2).sum +
      ((rows.map fun row => (-dir.ofSums row.2).toNat).sum : ℕ) := by
  induction rows with
  | nil => rfl
  | cons row rows ih =>
    have hrow := cast_sumsBytes dir row.2
    unfold rowBytes sumsBytes at *
    rw [List.map_cons, List.sum_cons, List.map_cons, List.sum_cons, List.map_cons, List.sum_cons]
    rw [Nat.cast_add, Nat.cast_add]
    linarith

def liveSegmentsOf (metrics : MetricStorage) (createdAt now : DateTime) (subId : Uuid) (db : Db) :
    List SegmentTraffic :=
  (db.watermarksForSubscription subId).flatMap (liveSegments metrics createdAt now)

/-- The bytes of the live segments of the current bucket. -/
def currentLiveBytes (metrics : MetricStorage) (createdAt now : DateTime) (subId : Uuid) (db : Db)
    (period : Period) (dir : Direction) : ℕ :=
  (((liveSegmentsOf metrics createdAt now subId db).filter fun s =>
    decide (s.bucket period = currentBucket createdAt now period)).map fun s => s.bytes dir).sum

theorem liveBytes_eq (metrics : MetricStorage) (createdAt now : DateTime) (subId : Uuid) (db : Db)
    (dir : Direction) :
    liveBytes metrics createdAt now (db.watermarksForSubscription subId) dir =
      ((liveSegmentsOf metrics createdAt now subId db).map fun s => s.bytes dir).sum := by
  rw [liveBytes, liveSegmentsOf, List.map_flatMap]
  induction db.watermarksForSubscription subId with
  | nil => rfl
  | cons wm watermarks ih =>
    rw [List.map_cons, List.sum_cons, List.flatMap_cons, List.sum_append, ih]

theorem buildSubscriptionTraffic_ok {metrics : MetricStorage} {subId : Uuid}
    {createdAt now : DateTime} {w : World} {t : SubscriptionTraffic}
    (h : (buildSubscriptionTraffic metrics subId createdAt now w).2 = .ok t) :
    t = assemble metrics createdAt now (w.db.totalForSubscription subId)
      (w.db.envTotalsForSubscription subId) (w.db.envBreakdown subId .day (dayStart now))
      (w.db.envBreakdown subId .month (monthlyAnchor createdAt now))
      (w.db.watermarksForSubscription subId) := by
  have hread : ∀ {α β : Type} (w : World) (q : Db → α)
      (k : World → α → World × Except SyncError β) {b : β},
      (World.andThen (w.dbRead q) k).2 = .ok b → (k w.tick (q w.db)).2 = .ok b := by
    intro α β w q k b hb
    rcases World.dbRead_eq q w with hq | hq
    · rwa [hq, World.andThen_ok rfl] at hb
    · rw [hq] at hb
      cases hb
  have h := hread _ _ _ (hread _ _ _ (hread _ _ _ (hread _ _ _ (hread _ _ _ h))))
  exact (Except.ok.inj h).symm

/-- The day, or the month, of a report is what is booked in the current bucket and the live
segments of that bucket exactly if no environment has a negative sum there and no live
segment of another bucket has bytes. -/
theorem buildSubscriptionTraffic_current_iff (metrics : MetricStorage) (subId : Uuid)
    (createdAt now : DateTime) (w : World) {t : SubscriptionTraffic}
    (h : (buildSubscriptionTraffic metrics subId createdAt now w).2 = .ok t) (period : Period)
    (dir : Direction) :
    ((t.ofPeriod period).get dir : ℤ) =
        w.db.bookedIn subId period (currentBucket createdAt now period) dir +
          currentLiveBytes metrics createdAt now subId w.db period dir ↔
      (∀ row ∈ w.db.envBreakdown subId period (currentBucket createdAt now period),
        0 ≤ dir.ofSums row.2) ∧
      ∀ s ∈ liveSegmentsOf metrics createdAt now subId w.db,
        s.bucket period ≠ currentBucket createdAt now period → s.bytes dir = 0 := by
  have hrows : period.pick (w.db.envBreakdown subId .day (dayStart now))
      (w.db.envBreakdown subId .month (monthlyAnchor createdAt now)) =
        w.db.envBreakdown subId period (currentBucket createdAt now period) := by
    cases period with
    | day => rfl
    | month => rfl
  have hzero : ∀ {α : Type} (f : α → ℕ) (l : List α), (l.map f).sum = 0 ↔ ∀ a ∈ l, f a = 0 := by
    intro α f l
    rw [List.sum_eq_zero_iff, List.forall_mem_map]
  have hread := cast_rowBytes (w.db.envBreakdown subId period (currentBucket createdAt now period))
    dir
  have hsum : ((w.db.envBreakdown subId period (currentBucket createdAt now period)).map
      fun row => dir.ofSums row.2).sum =
        w.db.bookedIn subId period (currentBucket createdAt now period) dir := Db.sum_byEnv _ dir
  have hsplit := Aggregate.sum_filter_add_sum_filter_not (fun s : SegmentTraffic => s.bytes dir)
    (fun s => decide (s.bucket period = currentBucket createdAt now period))
    (liveSegmentsOf metrics createdAt now subId w.db)
  -- what is reported too much: the sums below zero, and the segments of other buckets
  have hbelow : (∀ row ∈ w.db.envBreakdown subId period (currentBucket createdAt now period),
      0 ≤ dir.ofSums row.2) ↔
        ((w.db.envBreakdown subId period (currentBucket createdAt now period)).map
          fun row => (-dir.ofSums row.2).toNat).sum = 0 := by
    rw [hzero]
    refine forall₂_congr fun row _ => ?_
    omega
  have hother : (∀ s ∈ liveSegmentsOf metrics createdAt now subId w.db,
      s.bucket period ≠ currentBucket createdAt now period → s.bytes dir = 0) ↔
        (((liveSegmentsOf metrics createdAt now subId w.db).filter fun s =>
          !decide (s.bucket period = currentBucket createdAt now period)).map
            fun s => s.bytes dir).sum = 0 := by
    rw [hzero]
    simp only [List.mem_filter, Bool.not_eq_true', decide_eq_false_iff_not, and_imp]
  rw [buildSubscriptionTraffic_ok h, ofPeriod_assemble metrics createdAt now _ _
    (Db.nodup_envBreakdown _ _ _ _) (Db.nodup_envBreakdown _ _ _ _), hrows, liveBytes_eq, hbelow,
    hother, currentLiveBytes, ← hsplit, Nat.cast_add, hread, hsum]
  omega

/-- Traffic of the current day alone is reported as such. -/
theorem current_day_reported :
    ∃ t, (buildSubscriptionTraffic (Traffic.uplinkStore [(20, 0), (22, 100)]) 1 0
        (23 * Traffic.hourNanos) (reportWorld ∅)).2 = .ok t ∧
      ((t.ofPeriod .day).get .uplink : ℤ) =
        (reportWorld ∅).db.bookedIn 1 .day (currentBucket 0 (23 * Traffic.hourNanos) .day) .uplink +
          currentLiveBytes (Traffic.uplinkStore [(20, 0), (22, 100)]) 0 (23 * Traffic.hourNanos) 1
            (reportWorld ∅).db .day .uplink :=
  ⟨_, rfl, (buildSubscriptionTraffic_current_iff _ 1 0 (23 * Traffic.hourNanos) (reportWorld ∅)
    rfl .day .uplink).mpr ⟨by decide +kernel, by decide +kernel⟩⟩

/-- A connection not booked for two days: what it used on the first is reported as today's. -/
theorem older_day_reported_as_today :
    ∃ t, (buildSubscriptionTraffic (Traffic.uplinkStore [(20, 0), (22, 100)]) 1 0
        (60 * Traffic.hourNanos) (reportWorld ∅)).2 = .ok t ∧ t.daily = ⟨100, 0⟩ ∧
      ¬ ((t.ofPeriod .day).get .uplink : ℤ) =
        (reportWorld ∅).db.bookedIn 1 .day (currentBucket 0 (60 * Traffic.hourNanos) .day) .uplink +
          currentLiveBytes (Traffic.uplinkStore [(20, 0), (22, 100)]) 0 (60 * Traffic.hourNanos) 1
            (reportWorld ∅).db .day .uplink :=
  ⟨_, rfl, by decide +kernel, by decide +kernel⟩

end Periods

end Fcore
