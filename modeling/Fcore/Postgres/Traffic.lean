import Fcore.Lib.Aggregate
import Fcore.Postgres.Db
import Fcore.Traffic

/-!
# Traffic tables

Bytes are booked per connection, period and bucket. Day rows hold the lifetime
total of a connection and month rows repeat it, so a total sums one period only.
A total counts a row only while the connection it belongs to is live.
-/

namespace Fcore

open Traffic (Direction)

def TrafficRow.bytes (row : TrafficRow) : Direction → ℤ
  | .uplink => row.uplinkBytes
  | .downlink => row.downlinkBytes

structure ConnWatermark where
  connId : Uuid
  subscriptionId : Uuid
  env : String
  uplink : ℤ
  downlink : ℤ
  lastPersistAt : DateTime
  deriving DecidableEq

def ConnRow.watermark (connId subscriptionId : Uuid) (row : ConnRow) : ConnWatermark where
  connId := connId
  subscriptionId := subscriptionId
  env := row.env
  uplink := row.uplink
  downlink := row.downlink
  lastPersistAt := row.lastTrafficPersistAt.getD row.createdAt

namespace Db

/-- The subscription column refers to a subscription. -/
def upsertBucket (connId subscriptionId : Uuid) (env : String) (period : Period)
    (bucket : DateTime) (uplinkBytes downlinkBytes : ℤ) (db : Db) : Except SyncError (Db × Unit) :=
  let key : TrafficKey := ⟨connId, period, bucket⟩
  match db.connectionTraffic.lookup key with
  | some old =>
    let row := { old with
      uplinkBytes := old.uplinkBytes + uplinkBytes
      downlinkBytes := old.downlinkBytes + downlinkBytes }
    .ok ({ db with connectionTraffic := AList.insert key row db.connectionTraffic }, ())
  | none =>
    let row := ⟨subscriptionId, env, uplinkBytes, downlinkBytes⟩
    if (db.subscriptions.lookup subscriptionId).isNone then .error .constraint
    else .ok ({ db with connectionTraffic := AList.insert key row db.connectionTraffic }, ())

def isLive (db : Db) (connId : Uuid) : Bool :=
  (db.connections.lookup connId).any fun row => !row.isDeleted

/-- The rows of one period for a subscription's live connections. -/
def liveTraffic (subscriptionId : Uuid) (period : Period) (db : Db) :
    List (Σ _ : TrafficKey, TrafficRow) :=
  db.connectionTraffic.entries.filter fun e =>
    decide (e.2.subscriptionId = subscriptionId) && decide (e.1.period = period) &&
      db.isLive e.1.connectionId

def sumBytes (rows : List (Σ _ : TrafficKey, TrafficRow)) (dir : Direction) : ℤ :=
  (rows.map fun e => e.2.bytes dir).sum

def totalForSubscription (subscriptionId : Uuid) (db : Db) : ℤ × ℤ :=
  let rows := db.liveTraffic subscriptionId .day
  (sumBytes rows .uplink, sumBytes rows .downlink)

/-- A grouping by environment. -/
def byEnv (rows : List (Σ _ : TrafficKey, TrafficRow)) : List (String × ℤ × ℤ) :=
  (Aggregate.groups (fun e => e.2.env) rows).map fun env =>
    let group := Aggregate.group (fun e => e.2.env) rows env
    (env, sumBytes group .uplink, sumBytes group .downlink)

def envTotalsForSubscription (subscriptionId : Uuid) (db : Db) : List (String × ℤ × ℤ) :=
  byEnv (db.liveTraffic subscriptionId .day)

def envBreakdown (subscriptionId : Uuid) (period : Period) (bucket : DateTime) (db : Db) :
    List (String × ℤ × ℤ) :=
  byEnv ((db.liveTraffic subscriptionId period).filter fun e => decide (e.1.bucket = bucket))

def allWatermarks (db : Db) : List ConnWatermark :=
  db.connections.entries.filterMap fun e =>
    e.2.subscriptionId.map fun subscriptionId => e.2.watermark e.1 subscriptionId

def watermarksForSubscription (subscriptionId : Uuid) (db : Db) : List ConnWatermark :=
  (db.connections.entries.filter fun e =>
    decide (e.2.subscriptionId = some subscriptionId) && !e.2.isDeleted).map fun e =>
      e.2.watermark e.1 subscriptionId

def updateWatermark (connId : Uuid) (uplink downlink : ℤ) (lastPersistAt : DateTime) (db : Db) :
    Db :=
  { db with connections := db.connections.modify connId fun row =>
      { row with
        uplink := uplink
        downlink := downlink
        lastTrafficPersistAt := some lastPersistAt } }

def NonnegTraffic (db : Db) : Prop :=
  ∀ e ∈ db.connectionTraffic.entries, ∀ dir, 0 ≤ e.2.bytes dir

theorem mem_of_mem_liveTraffic {subscriptionId : Uuid} {period : Period} {db : Db}
    {e : Σ _ : TrafficKey, TrafficRow} (h : e ∈ db.liveTraffic subscriptionId period) :
    e ∈ db.connectionTraffic.entries :=
  List.mem_of_mem_filter h

theorem sumBytes_nonneg {rows : List (Σ _ : TrafficKey, TrafficRow)}
    (h : ∀ e ∈ rows, ∀ dir, 0 ≤ e.2.bytes dir) (dir : Direction) : 0 ≤ sumBytes rows dir := by
  refine List.sum_nonneg fun x hx => ?_
  obtain ⟨e, he, rfl⟩ := List.mem_map.mp hx
  exact h e he dir

end Db

end Fcore
