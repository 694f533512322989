import Fcore.Postgres.Connection
import Fcore.Postgres.Traffic
import Fcore.Sync.World
import Fcore.Traffic.Attribution

/-!
# The traffic report of a subscription

The report is put together from a grand total, the totals of the environments,
what was booked today and this month, and what the live connections have used
since they were last booked. Five loops add to it, and each adds the same amount
to the grand total and to the environments. The grand total starts from what is
booked and the first loop adds the same bytes once more, so a report is right
only for a subscription with nothing booked.
-/

namespace Fcore

open Traffic (Direction SegmentTraffic connectionDeltasBetween dayStart monthlyAnchor)

structure TrafficValue where
  uplink : ℕ
  downlink : ℕ
  deriving DecidableEq, Repr

namespace TrafficValue

instance : Zero TrafficValue := ⟨⟨0, 0⟩⟩

instance : Add TrafficValue := ⟨fun a b => ⟨a.uplink + b.uplink, a.downlink + b.downlink⟩⟩

def get (v : TrafficValue) : Direction → ℕ
  | .uplink => v.uplink
  | .downlink => v.downlink

@[simp] theorem get_zero (dir : Direction) : (0 : TrafficValue).get dir = 0 := by
  cases dir <;> rfl

@[simp] theorem get_add (a b : TrafficValue) (dir : Direction) :
    (a + b).get dir = a.get dir + b.get dir := by
  cases dir <;> rfl

def ofSums (sums : ℤ × ℤ) : TrafficValue := ⟨(max sums.1 0).toNat, (max sums.2 0).toNat⟩

def ofSegment (segment : SegmentTraffic) : TrafficValue := ⟨segment.uplink, segment.downlink⟩

@[simp] theorem get_ofSegment (segment : SegmentTraffic) (dir : Direction) :
    (ofSegment segment).get dir = segment.bytes dir := by
  cases dir <;> rfl

end TrafficValue

structure EnvTraffic where
  total : TrafficValue
  daily : TrafficValue
  monthly : TrafficValue
  deriving DecidableEq, Repr

def EnvTraffic.zero : EnvTraffic := ⟨0, 0, 0⟩

structure SubscriptionTraffic where
  total : TrafficValue
  daily : TrafficValue
  monthly : TrafficValue
  byEnv : Table String EnvTraffic

namespace SubscriptionTraffic

def zero : SubscriptionTraffic := ⟨0, 0, 0, ∅⟩

def addPersisted (t : SubscriptionTraffic) (env : String) (total daily monthly : TrafficValue) :
    SubscriptionTraffic :=
  let entry := (t.byEnv.lookup env).getD .zero
  { total := t.total + total
    daily := t.daily + daily
    monthly := t.monthly + monthly
    byEnv := AList.insert env
      ⟨entry.total + total, entry.daily + daily, entry.monthly + monthly⟩ t.byEnv }

def addLiveSegment (t : SubscriptionTraffic) (env : String) (segment : SegmentTraffic) :
    SubscriptionTraffic :=
  let value := TrafficValue.ofSegment segment
  let entry := (t.byEnv.lookup env).getD .zero
  { t with
    daily := t.daily + value
    monthly := t.monthly + value
    byEnv := AList.insert env
      { entry with daily := entry.daily + value, monthly := entry.monthly + value } t.byEnv }

structure Assembly where
  result : SubscriptionTraffic
  dailyMap : Table String (ℤ × ℤ)
  monthlyMap : Table String (ℤ × ℤ)

def mapOfRows (rows : List (String × ℤ × ℤ)) : Table String (ℤ × ℤ) :=
  rows.foldl (fun acc row => AList.insert row.1 row.2 acc) ∅

/-- One turn of the loop over the totals of the environments. -/
def addEnvTotal (a : Assembly) (row : String × ℤ × ℤ) : Assembly where
  result := a.result.addPersisted row.1 (.ofSums row.2)
    (.ofSums ((a.dailyMap.lookup row.1).getD (0, 0)))
    (.ofSums ((a.monthlyMap.lookup row.1).getD (0, 0)))
  dailyMap := AList.erase row.1 a.dailyMap
  monthlyMap := AList.erase row.1 a.monthlyMap

/-- One turn of the loop over environments with rows of today only. -/
def addDailyRest (a : Assembly) (row : Σ _ : String, ℤ × ℤ) : Assembly where
  result := a.result.addPersisted row.1 0 (.ofSums row.2)
    (.ofSums ((a.monthlyMap.lookup row.1).getD (0, 0)))
  dailyMap := a.dailyMap
  monthlyMap := AList.erase row.1 a.monthlyMap

def addMonthlyRest (t : SubscriptionTraffic) (row : Σ _ : String, ℤ × ℤ) : SubscriptionTraffic :=
  t.addPersisted row.1 0 0 (.ofSums row.2)

def liveSegments (metrics : MetricStorage) (createdAt now : DateTime) (wm : ConnWatermark) :
    List SegmentTraffic :=
  connectionDeltasBetween metrics wm.connId createdAt wm.lastPersistAt now

/-- The bytes of one connection, on the grand total and on its environment. -/
def addConnTotal (t : SubscriptionTraffic) (env : String) (connTotal : TrafficValue) :
    SubscriptionTraffic :=
  let t := { t with total := t.total + connTotal }
  match t.byEnv.lookup env with
  | some acc => { t with
      byEnv := AList.insert env { acc with total := acc.total + connTotal } t.byEnv }
  | none =>
    if 0 < connTotal.uplink ∨ 0 < connTotal.downlink then
      { t with byEnv := AList.insert env { EnvTraffic.zero with total := 0 + connTotal } t.byEnv }
    else t

/-- One turn of the loop over the live connections. -/
def addConnection (metrics : MetricStorage) (createdAt now : DateTime) (t : SubscriptionTraffic)
    (wm : ConnWatermark) : SubscriptionTraffic :=
  let segments := liveSegments metrics createdAt now wm
  let connTotal := segments.foldl (fun acc segment => acc + .ofSegment segment) 0
  let t := segments.foldl (fun t segment => t.addLiveSegment wm.env segment) t
  t.addConnTotal wm.env connTotal

def assemble (metrics : MetricStorage) (createdAt now : DateTime) (total : ℤ × ℤ)
    (envTotals dailyRows monthlyRows : List (String × ℤ × ℤ)) (watermarks : List ConnWatermark) :
    SubscriptionTraffic :=
  let start : Assembly :=
    ⟨{ zero with total := .ofSums total }, mapOfRows dailyRows, mapOfRows monthlyRows⟩
  let a := envTotals.foldl addEnvTotal start
  let a := a.dailyMap.entries.foldl addDailyRest a
  let t := a.monthlyMap.entries.foldl addMonthlyRest a.result
  watermarks.foldl (addConnection metrics createdAt now) t

end SubscriptionTraffic

def buildSubscriptionTraffic (metrics : MetricStorage) (subId : Uuid) (createdAt now : DateTime)
    (w : World) : World × Except SyncError SubscriptionTraffic :=
  World.andThen (w.dbRead (Db.totalForSubscription subId)) fun w total =>
  World.andThen (w.dbRead (Db.envTotalsForSubscription subId)) fun w envTotals =>
  World.andThen (w.dbRead (Db.envBreakdown subId .day (dayStart now))) fun w dailyRows =>
  World.andThen (w.dbRead (Db.envBreakdown subId .month (monthlyAnchor createdAt now)))
    fun w monthlyRows =>
  World.andThen (w.dbRead (Db.watermarksForSubscription subId)) fun w watermarks =>
  (w, .ok (.assemble metrics createdAt now total envTotals dailyRows monthlyRows watermarks))

namespace SubscriptionTraffic

def envTotal (t : SubscriptionTraffic) (dir : Direction) : ℕ :=
  t.byEnv.total fun entry => entry.total.get dir

/-- The grand total and the environments grow by the same bytes. -/
structure Adds (bytes : Direction → ℕ) (t t' : SubscriptionTraffic) : Prop where
  total : ∀ dir, t'.total.get dir = t.total.get dir + bytes dir
  envTotal : ∀ dir, t'.envTotal dir = t.envTotal dir + bytes dir

namespace Adds

variable {bytes bytes' sum : Direction → ℕ} {t t' t'' : SubscriptionTraffic}

theorem trans (h : Adds bytes t t') (h' : Adds bytes' t' t'')
    (hsum : ∀ dir, sum dir = bytes dir + bytes' dir) : Adds sum t t'' where
  total dir := by rw [h'.total, h.total, hsum, Nat.add_assoc]
  envTotal dir := by rw [h'.envTotal, h.envTotal, hsum, Nat.add_assoc]

theorem foldl {σ α : Type*} (report : σ → SubscriptionTraffic) {step : σ → α → σ}
    {bytes : α → Direction → ℕ} (h : ∀ s a, Adds (bytes a) (report s) (report (step s a)))
    (as : List α) (s : σ) :
    Adds (fun dir => (as.map fun a => bytes a dir).sum) (report s)
      (report (as.foldl step s)) := by
  induction as generalizing s with
  | nil => exact ⟨fun _ => rfl, fun _ => rfl⟩
  | cons a as ih => exact (h s a).trans (ih (step s a)) fun dir => List.sum_cons

theorem foldl_zero {σ α : Type*} (report : σ → SubscriptionTraffic) {step : σ → α → σ}
    (h : ∀ s a, Adds (fun _ => 0) (report s) (report (step s a))) (as : List α) (s : σ) :
    Adds (fun _ => 0) (report s) (report (as.foldl step s)) := by
  simpa using foldl report h as s

end Adds

/-- Writing the entry of an environment changes the sum over the environments by
the change of its total. -/
theorem envTotal_insert {t : SubscriptionTraffic} {env : String} {entry : EnvTraffic}
    {bytes : ℕ} {dir : Direction}
    (h : entry.total.get dir = ((t.byEnv.lookup env).getD .zero).total.get dir + bytes) :
    (AList.insert env entry t.byEnv).total (fun e => e.total.get dir) = t.envTotal dir + bytes := by
  have hinsert := AList.total_insert (fun e : EnvTraffic => e.total.get dir) env entry t.byEnv
  unfold envTotal
  cases hlookup : t.byEnv.lookup env with
  | none =>
    simp only [hlookup, Option.getD_none, Option.map_none, EnvTraffic.zero,
      TrafficValue.get_zero] at h hinsert
    omega
  | some old =>
    simp only [hlookup, Option.getD_some, Option.map_some] at h hinsert
    omega

theorem addPersisted_adds (t : SubscriptionTraffic) (env : String)
    (total daily monthly : TrafficValue) :
    Adds total.get t (t.addPersisted env total daily monthly) where
  total dir := TrafficValue.get_add _ _ dir
  envTotal dir := envTotal_insert (TrafficValue.get_add _ _ dir)

theorem addPersisted_zero_adds (t : SubscriptionTraffic) (env : String)
    (daily monthly : TrafficValue) :
    Adds (fun _ => 0) t (t.addPersisted env 0 daily monthly) := by
  simpa [funext TrafficValue.get_zero] using addPersisted_adds t env 0 daily monthly

theorem addMonthlyRest_adds (t : SubscriptionTraffic) (row : Σ _ : String, ℤ × ℤ) :
    Adds (fun _ => 0) t (t.addMonthlyRest row) :=
  addPersisted_zero_adds t row.1 0 _

theorem addLiveSegment_adds (t : SubscriptionTraffic) (env : String) (segment : SegmentTraffic) :
    Adds (fun _ => 0) t (t.addLiveSegment env segment) where
  total _ := rfl
  envTotal _ := envTotal_insert rfl

theorem get_foldl_ofSegment (segments : List SegmentTraffic) (start : TrafficValue)
    (dir : Direction) :
    (segments.foldl (fun acc segment => acc + .ofSegment segment) start).get dir =
      start.get dir + (segments.map fun s => s.bytes dir).sum := by
  induction segments generalizing start with
  | nil => rfl
  | cons segment segments ih =>
    rw [List.foldl_cons, ih, TrafficValue.get_add, TrafficValue.get_ofSegment, List.map_cons,
      List.sum_cons, Nat.add_assoc]

theorem addConnTotal_adds (t : SubscriptionTraffic) (env : String) (connTotal : TrafficValue) :
    Adds connTotal.get t (t.addConnTotal env connTotal) := by
  unfold addConnTotal
  simp only
  split
  · rename_i acc hacc
    refine ⟨fun dir => TrafficValue.get_add _ _ dir, fun dir => envTotal_insert ?_⟩
    rw [hacc]
    exact TrafficValue.get_add _ _ dir
  · rename_i hnone
    split
    · refine ⟨fun dir => TrafficValue.get_add _ _ dir, fun dir => envTotal_insert ?_⟩
      rw [hnone]
      exact TrafficValue.get_add _ _ dir
    · have hget : ∀ dir, connTotal.get dir = 0 := by
        intro dir
        cases dir <;> simp only [TrafficValue.get] <;> omega
      refine ⟨fun dir => TrafficValue.get_add _ _ dir, fun dir => ?_⟩
      rw [hget dir]
      rfl

theorem addConnection_adds (metrics : MetricStorage) (createdAt now : DateTime)
    (t : SubscriptionTraffic) (wm : ConnWatermark) :
    Adds (fun dir => ((liveSegments metrics createdAt now wm).map fun s => s.bytes dir).sum) t
      (t.addConnection metrics createdAt now wm) := by
  have hsegments : Adds (fun _ => 0) t ((liveSegments metrics createdAt now wm).foldl
      (fun t segment => t.addLiveSegment wm.env segment) t) :=
    Adds.foldl_zero id (fun t segment => addLiveSegment_adds t wm.env segment) _ t
  refine hsegments.trans (addConnTotal_adds _ wm.env _) fun dir => ?_
  rw [get_foldl_ofSegment, TrafficValue.get_zero, Nat.zero_add, Nat.zero_add]

def rowBytes (rows : List (String × ℤ × ℤ)) (dir : Direction) : ℕ :=
  (rows.map fun row => (TrafficValue.ofSums row.2).get dir).sum

/-- The bytes of the live connections since they were last booked. -/
def liveBytes (metrics : MetricStorage) (createdAt now : DateTime)
    (watermarks : List ConnWatermark) (dir : Direction) : ℕ :=
  (watermarks.map fun wm =>
    ((liveSegments metrics createdAt now wm).map fun s => s.bytes dir).sum).sum

/-- The report counts the booked bytes in the total it starts from and once more
with the environments. -/
theorem assemble_totals (metrics : MetricStorage) (createdAt now : DateTime) (total : ℤ × ℤ)
    (envTotals dailyRows monthlyRows : List (String × ℤ × ℤ)) (watermarks : List ConnWatermark)
    (dir : Direction) :
    (assemble metrics createdAt now total envTotals dailyRows monthlyRows watermarks).total.get
        dir =
      (TrafficValue.ofSums total).get dir + rowBytes envTotals dir +
        liveBytes metrics createdAt now watermarks dir ∧
    (assemble metrics createdAt now total envTotals dailyRows monthlyRows watermarks).envTotal dir =
      rowBytes envTotals dir + liveBytes metrics createdAt now watermarks dir := by
  have henvs : ∀ a : Assembly, Adds (rowBytes envTotals) a.result
      (envTotals.foldl addEnvTotal a).result :=
    Adds.foldl Assembly.result (fun a row => addPersisted_adds a.result row.1 _ _ _) envTotals
  have hdaily : ∀ a : Assembly, Adds (fun _ => 0) a.result
      (a.dailyMap.entries.foldl addDailyRest a).result := fun a =>
    Adds.foldl_zero Assembly.result (fun a row => addPersisted_zero_adds a.result row.1 _ _) _ a
  have hmonthly : ∀ a : Assembly, Adds (fun _ => 0) a.result
      (a.monthlyMap.entries.foldl addMonthlyRest a.result) := fun a =>
    Adds.foldl_zero id addMonthlyRest_adds _ a.result
  have hlive : ∀ t, Adds (liveBytes metrics createdAt now watermarks) t
      (watermarks.foldl (addConnection metrics createdAt now) t) :=
    Adds.foldl id (addConnection_adds metrics createdAt now) watermarks
  have hall : Adds (fun dir => rowBytes envTotals dir +
        liveBytes metrics createdAt now watermarks dir) { zero with total := .ofSums total }
      (assemble metrics createdAt now total envTotals dailyRows monthlyRows watermarks) := by
    have hrows := (henvs ⟨{ zero with total := .ofSums total }, mapOfRows dailyRows,
      mapOfRows monthlyRows⟩).trans (hdaily _) fun _ => rfl
    exact (hrows.trans (hmonthly _) fun _ => rfl).trans (hlive _) fun _ => rfl
  exact ⟨by rw [hall.total, Nat.add_assoc], by rw [hall.envTotal]; simp [envTotal, zero]⟩

end SubscriptionTraffic

def Db.bookedBytes (subId : Uuid) (db : Db) (dir : Direction) : ℤ :=
  Db.sumBytes (db.liveTraffic subId .day) dir

section Report

open SubscriptionTraffic

variable {db : Db} {subId : Uuid}

theorem cast_get_ofSums {sums : Direction → ℤ} {dir : Direction} (h : 0 ≤ sums dir) :
    ((TrafficValue.ofSums (sums .uplink, sums .downlink)).get dir : ℤ) = sums dir := by
  cases dir <;> simp only [TrafficValue.ofSums, TrafficValue.get] <;> omega

theorem rowBytes_byEnv {rows : List (Σ _ : TrafficKey, TrafficRow)}
    (h : ∀ e ∈ rows, ∀ dir, 0 ≤ e.2.bytes dir) (dir : Direction) :
    (rowBytes (Db.byEnv rows) dir : ℤ) = Db.sumBytes rows dir := by
  have hgroup : ∀ env, ((TrafficValue.ofSums
      (Db.sumBytes (Aggregate.group (fun e => e.2.env) rows env) .uplink,
        Db.sumBytes (Aggregate.group (fun e => e.2.env) rows env) .downlink)).get dir : ℤ) =
      ((Aggregate.group (fun e => e.2.env) rows env).map fun e => e.2.bytes dir).sum := fun env =>
    cast_get_ofSums (Db.sumBytes_nonneg (fun e he => h e (List.mem_of_mem_filter he)) dir)
  rw [Db.sumBytes, ← Aggregate.sum_groups (fun e => e.2.env), rowBytes, Db.byEnv, List.map_map,
    ← Nat.coe_castRingHom, map_list_sum, List.map_map]
  exact congrArg List.sum (List.map_congr_left fun env _ => hgroup env)

/-- A report that counts every byte once: the grand total is what is booked and
what is live, and the environments add up to it. -/
def ReportExact (metrics : MetricStorage) (subId : Uuid) (createdAt now : DateTime) (db : Db)
    (t : SubscriptionTraffic) : Prop :=
  ∀ dir, (t.total.get dir : ℤ) = db.bookedBytes subId dir +
      liveBytes metrics createdAt now (db.watermarksForSubscription subId) dir ∧
    t.total.get dir = t.envTotal dir

/-- The report is exact exactly for subscriptions with nothing booked. -/
theorem buildSubscriptionTraffic_exact_iff (metrics : MetricStorage) (subId : Uuid)
    (createdAt now : DateTime) (w : World) (hreliable : w.DbReliable)
    (hnonneg : w.db.NonnegTraffic) :
    ∃ t, (buildSubscriptionTraffic metrics subId createdAt now w).2 = .ok t ∧
      (ReportExact metrics subId createdAt now w.db t ↔
        ∀ dir, w.db.bookedBytes subId dir = 0) := by
  have hrows : ∀ e ∈ w.db.liveTraffic subId .day, ∀ dir, 0 ≤ e.2.bytes dir := fun e he =>
    hnonneg e (Db.mem_of_mem_liveTraffic he)
  refine ⟨assemble metrics createdAt now (w.db.totalForSubscription subId)
    (w.db.envTotalsForSubscription subId) (w.db.envBreakdown subId .day (dayStart now))
    (w.db.envBreakdown subId .month (monthlyAnchor createdAt now))
    (w.db.watermarksForSubscription subId), ?_, ?_⟩
  · have h₁ := hreliable.tick
    have h₂ := h₁.tick
    have h₃ := h₂.tick
    have h₄ := h₃.tick
    rw [buildSubscriptionTraffic, hreliable.andThen_dbRead, h₁.andThen_dbRead, h₂.andThen_dbRead,
      h₃.andThen_dbRead, h₄.andThen_dbRead]
    rfl
  · refine forall_congr' fun dir => ?_
    obtain ⟨htotal, henv⟩ := assemble_totals metrics createdAt now (w.db.totalForSubscription subId)
      (w.db.envTotalsForSubscription subId) (w.db.envBreakdown subId .day (dayStart now))
      (w.db.envBreakdown subId .month (monthlyAnchor createdAt now))
      (w.db.watermarksForSubscription subId) dir
    have hbooked : ((TrafficValue.ofSums (w.db.totalForSubscription subId)).get dir : ℤ) =
        w.db.bookedBytes subId dir :=
      cast_get_ofSums (Db.sumBytes_nonneg hrows dir)
    have henvs : (rowBytes (w.db.envTotalsForSubscription subId) dir : ℤ) =
        w.db.bookedBytes subId dir := rowBytes_byEnv hrows dir
    rw [htotal, henv]
    push_cast
    omega

/-- A live connection of subscription 1, and what is booked for it. -/
def reportWorld (booked : Table TrafficKey TrafficRow) : World :=
  let w := World.init (fun _ => false) fun _ => false
  { w with db := { w.db with
      connections := AList.insert 5
        (.ofConn (.new .dev (some 1) (.xray .vlessTcpReality) none 0)) ∅
      connectionTraffic := booked } }

/-- With nothing booked the live traffic of the connection is reported once. -/
theorem report_exact_nothing_booked :
    ∃ t, (buildSubscriptionTraffic (Traffic.uplinkStore [(20, 0), (22, 100)]) 1 0
        (23 * Traffic.hourNanos) (reportWorld ∅)).2 = .ok t ∧
      ReportExact (Traffic.uplinkStore [(20, 0), (22, 100)]) 1 0 (23 * Traffic.hourNanos)
        (reportWorld ∅).db t := by
  obtain ⟨t, hok, hiff⟩ := buildSubscriptionTraffic_exact_iff
    (Traffic.uplinkStore [(20, 0), (22, 100)]) 1 0 (23 * Traffic.hourNanos) (reportWorld ∅)
    (fun _ => rfl) (fun e he => absurd he (by simp [reportWorld]))
  exact ⟨t, hok, hiff.mpr fun dir => rfl⟩

/-- Ten bytes booked and none live are reported as twenty, ten of them in an
environment. -/
theorem report_doubles_booked :
    let w := reportWorld (AList.insert ⟨5, .day, 0⟩ ⟨1, "dev", 10, 0⟩ ∅)
    ∃ t, (buildSubscriptionTraffic (.new 100 0) 1 0 0 w).2 = .ok t ∧
      w.db.bookedBytes 1 .uplink = 10 ∧ t.total = ⟨20, 0⟩ ∧ t.envTotal .uplink = 10 ∧
      ¬ ReportExact (.new 100 0) 1 0 0 w.db t := by
  refine ⟨_, rfl, by decide +kernel, by decide +kernel, by decide +kernel, fun h => ?_⟩
  exact absurd (h .uplink).2 (by decide +kernel)

end Report

end Fcore
