import Fcore.Handlers.Connection
import Fcore.Tasks.Metered

/-!
# Spending a traffic balance

The used bytes of a subscription are those booked on connections that are live in the
table. What is booked is never taken back, neither by a deletion nor by a reissue, but a
connection that is deleted is not counted any longer, and its bytes return to the
balance until it is restored. So the used bytes never fall along a run in which no
connection with booked bytes is deleted, by a call or for its devices.

The runs are of the passes that book traffic, enforce the device limit and restore, and
of calls that create, delete and restore connections.
-/

namespace Fcore

namespace Cache

def liteConns (mem : Cache) : List (Uuid × Uuid × Conn) :=
  (mem.subscriptions.entries.filter fun e => decide (e.2.planKind = .lite)).flatMap fun e =>
    (mem.liveConns e.1).map fun c => (c.1, e.1, c.2)

end Cache

abbrev Strikes := Table Uuid ℕ

/-- What a turn of the device limit finds, and the random values with which it reissues
a connection. -/
structure DevicePass where
  metrics : MetricStorage
  generated : Uuid → Generated
  now : DateTime

namespace DevicePass

/-- The arguments with which a connection is created again. -/
def reissue (subId : Uuid) (conn : Conn) : CreateConnection where
  env := conn.env
  proto := conn.proto.proto
  subscriptionId := some subId
  days := none
  label := none
  nodeId := none
  issuedVia := none
  includeInMain := true

def countAt (strikes : Strikes) (c : Uuid) : ℕ := (strikes.lookup c).getD 0 + 1

/-- A connection that is online at most once loses its strikes. Any other gets a strike, and
the number it then has is given. -/
def strike (pass : DevicePass) (strikes : Strikes) (c : Uuid) : Option ℕ × Strikes :=
  if pass.metrics.getConnectionOnlineCount c ≤ 1 then (none, AList.erase c strikes)
  else (some (countAt strikes c), AList.insert c (countAt strikes c) strikes)

/-- One connection. The replacement is created first, and a connection that could not be
replaced keeps its strikes and stays. -/
def visit (networks : WgNetworks) (maxTicks : ℕ) (pass : DevicePass) (s : World × Strikes)
    (item : Uuid × Uuid × Conn) : World × Strikes :=
  match pass.strike s.2 item.1 with
  | (none, strikes) => (s.1, strikes)
  | (some count, strikes) =>
    if count < maxTicks then (s.1, strikes)
    else
      match s.1.createConnectionInner networks (reissue item.2.1 item.2.2)
          (pass.generated item.1) pass.now with
      | (w, .error _) => (w, strikes)
      | (w, .ok _) =>
        ((w.deleteConnection item.1 item.2.2 (some DeleteReason.deviceKick) pass.now).1,
          AList.erase item.1 strikes)

/-- Strikes of connections that are gone are dropped before the connections are looked at. -/
def started (s : World × Strikes) : World × Strikes :=
  (s.1, s.2.filterRows fun connId _ =>
    s.1.mem.liteConns.any fun item => decide (item.1 = connId))

def enforceDeviceLimit (networks : WgNetworks) (maxTicks : ℕ) (s : World × Strikes)
    (pass : DevicePass) : World × Strikes :=
  s.1.mem.liteConns.foldl (pass.visit networks maxTicks) (started s)

end DevicePass

namespace World

def cachedLive (c : Uuid) (w : World) : Bool :=
  (w.mem.connections.lookup c).any fun conn => !conn.isDeleted

/-- The connection is live in the table, and bytes of the subscription are booked on it. -/
def holdsBalance (subId c : Uuid) (w : World) : Bool :=
  decide (w.bytesOf subId (fun c' => decide (c' = c) && w.db.isLive c') ≠ 0)

/-- Every segment that a pass is going to book fits into the `i64` of the column. -/
def fitsI64 (metrics : MetricStorage) (now : DateTime) (w : World) : Bool :=
  w.mem.meteredTraffic.all fun c => c.2.subscriptionId.all fun subId =>
    (w.mem.subscriptions.lookup subId).all fun sub =>
      (Traffic.connectionDeltasBetween metrics c.1 sub.createdAt
        (watermarkOf w.db.allWatermarks c.1 subId c.2.env.asStr now).lastPersistAt now).all
          fun seg => decide (seg.uplink < 2 ^ 63) && decide (seg.downlink < 2 ^ 63)

end World

namespace DevicePass

/-- At its turn a connection with booked bytes is not to be replaced. -/
def spares (maxTicks : ℕ) (subId : Uuid) (pass : DevicePass) (s : World × Strikes)
    (item : Uuid × Uuid × Conn) : Bool :=
  !s.1.holdsBalance subId item.1 ||
    decide (pass.metrics.getConnectionOnlineCount item.1 ≤ 1) ||
    decide (countAt s.2 item.1 < maxTicks)

end DevicePass

/-- What happens to the connections of subscriptions and to their traffic. -/
inductive SpendingOp where
  | persist (metrics : MetricStorage) (now : DateTime)
  | delete (connId : Uuid) (conn : Conn) (reason : Option String) (now : DateTime)
  | enforceDeviceLimit (pass : DevicePass)
  | create (req : CreateConnection) (generated : Generated) (now : DateTime)
  | restore (subId : Uuid) (meteredConns : Option (List String)) (now : DateTime)
  | restorePass (settings : ServiceSettings) (now : DateTime)

namespace SpendingOp

def apply (networks : WgNetworks) (maxTicks : ℕ) (s : World × Strikes) :
    SpendingOp → World × Strikes
  | .persist metrics now => (s.1.persistConnectionTraffic metrics now, s.2)
  | .delete connId conn reason now => ((s.1.deleteConnection connId conn reason now).1, s.2)
  | .enforceDeviceLimit pass => pass.enforceDeviceLimit networks maxTicks s
  | .create req generated now => ((s.1.createConnectionInner networks req generated now).1, s.2)
  | .restore subId meteredConns now =>
    ((s.1.restoreConnectionsBySubscription subId meteredConns now).1, s.2)
  | .restorePass settings now => (s.1.restoreSubscriptions settings now, s.2)

def run (networks : WgNetworks) (maxTicks : ℕ) (s : World × Strikes) (ops : List SpendingOp) :
    World × Strikes :=
  ops.foldl (apply networks maxTicks) s

/-- A step that deletes no connection with booked bytes, and books no more than the columns
can hold. -/
def keepsBalance (networks : WgNetworks) (maxTicks : ℕ) (subId : Uuid) (s : World × Strikes) :
    SpendingOp → Bool
  | .persist metrics now => s.1.fitsI64 metrics now
  | .delete connId _ _ _ => !(s.1.cachedLive connId && s.1.holdsBalance subId connId)
  | .enforceDeviceLimit pass =>
    decide (Run.Along (pass.visit networks maxTicks)
      (fun s item => pass.spares maxTicks subId s item = true) (DevicePass.started s)
      s.1.mem.liteConns)
  | _ => true

end SpendingOp

namespace Db

/-- What a row adds to the bytes of a subscription on the connections that are counted. -/
def countedBytes (subId : Uuid) (counted : Uuid → Bool) (key : TrafficKey) (row : TrafficRow) :
    ℤ :=
  if row.subscriptionId = subId ∧ key.period = .day ∧ counted key.connectionId = true then
    row.bytes .uplink + row.bytes .downlink
  else 0

/-- Bytes may have been added to what is booked, whichever connections are counted. -/
structure Grows (db db' : Db) : Prop where
  nonneg : db.NonnegTraffic → db'.NonnegTraffic
  bytes : ∀ subId counted, db.connectionTraffic.rowSum (countedBytes subId counted) ≤
    db'.connectionTraffic.rowSum (countedBytes subId counted)

variable {db db' : Db}

theorem Grows.of_traffic (h : db'.connectionTraffic = db.connectionTraffic) : Grows db db' where
  nonneg hdb := by
    unfold NonnegTraffic
    rwa [h]
  bytes subId counted := by rw [h]

theorem Grows.trans {db₁ db₂ db₃ : Db} (h : Grows db₁ db₂) (h' : Grows db₂ db₃) :
    Grows db₁ db₃ :=
  ⟨fun hdb => h'.nonneg (h.nonneg hdb), fun subId counted =>
    (h.bytes subId counted).trans (h'.bytes subId counted)⟩

/-- A row keeps the subscription it was first booked under. -/
theorem subscriptionId_upsertBucket {connId subId : Uuid} {env : String} {period : Period}
    {bucket : DateTime} {uplink downlink : ℤ} {old : TrafficRow}
    (h : db.upsertBucket connId subId env period bucket uplink downlink = .ok (db', ()))
    (hold : db.connectionTraffic.lookup ⟨connId, period, bucket⟩ = some old) :
    (db'.connectionTraffic.lookup ⟨connId, period, bucket⟩).map TrafficRow.subscriptionId =
      some old.subscriptionId := by
  unfold upsertBucket at h
  dsimp only at h
  rw [hold] at h
  cases h
  rw [AList.lookup_insert, Option.map_some]

theorem grows_upsertBucket {connId subId : Uuid} {env : String} {period : Period}
    {bucket : DateTime} {uplink downlink : ℕ}
    (h : db.upsertBucket connId subId env period bucket uplink downlink = .ok (db', ())) :
    Grows db db' where
  nonneg := World.nonnegTraffic_upsertBucket h
  bytes subId' counted := by
    have hkeeps := fun (old : TrafficRow)
      (hold : db.connectionTraffic.lookup ⟨connId, period, bucket⟩ = some old) =>
        subscriptionId_upsertBucket h hold
    obtain ⟨row, rfl, hrow⟩ := World.upsertBucket_cases h
    have hinsert := AList.rowSum_insert (countedBytes subId' counted) ⟨connId, period, bucket⟩ row
      db.connectionTraffic
    suffices hle : ((db.connectionTraffic.lookup ⟨connId, period, bucket⟩).map
        (countedBytes subId' counted ⟨connId, period, bucket⟩)).getD 0 ≤
          countedBytes subId' counted ⟨connId, period, bucket⟩ row by
      linarith
    have hup := hrow .uplink
    have hdown := hrow .downlink
    cases hold : db.connectionTraffic.lookup ⟨connId, period, bucket⟩ with
    | none =>
      rw [hold, Option.map_none, Option.getD_none] at hup hdown
      rw [countedBytes, hup, hdown]
      split
      · positivity
      · exact le_rfl
    | some old =>
      have hsub : row.subscriptionId = old.subscriptionId := by
        have hkept := hkeeps old hold
        rw [AList.lookup_insert] at hkept
        exact Option.some.inj hkept
      rw [hold, Option.map_some, Option.getD_some] at hup hdown
      rw [Option.map_some, Option.getD_some, countedBytes, countedBytes, hsub]
      split
      · linarith [Int.natCast_nonneg uplink, Int.natCast_nonneg downlink]
      · exact le_rfl

end Db

namespace World

section Bytes

variable {w w' : World} {subId : Uuid}

theorem bytesOf_eq_rowSum (w : World) (subId : Uuid) (counted : Uuid → Bool) :
    w.bytesOf subId counted =
      w.db.connectionTraffic.rowSum (Db.countedBytes subId counted) := by
  unfold bytesOf Db.sumBytes Db.countedBytes AList.rowSum
  rw [List.sum_map_ite]
  simp [Bool.and_assoc]

theorem bytesOf_split (w : World) (subId : Uuid) (counted p : Uuid → Bool) :
    w.bytesOf subId counted = w.bytesOf subId (fun c => counted c && p c) +
      w.bytesOf subId fun c => counted c && !p c := by
  rw [bytesOf_eq_rowSum, bytesOf_eq_rowSum, bytesOf_eq_rowSum, AList.rowSum, AList.rowSum,
    AList.rowSum, ← List.sum_map_add]
  congr 2
  funext e
  unfold Db.countedBytes
  cases hp : p e.1.connectionId <;> simp [hp]

theorem used_le_of_grows (h : Db.Grows w.db w'.db) (hnonneg : w.db.NonnegTraffic)
    (subId : Uuid) :
    w.used subId ≤ w'.used subId +
      w'.bytesOf subId fun c => w.db.isLive c && !w'.db.isLive c := by
  have hbooked : w.bytesOf subId w.db.isLive ≤ w'.bytesOf subId w.db.isLive := by
    rw [bytesOf_eq_rowSum, bytesOf_eq_rowSum]
    exact h.bytes subId w.db.isLive
  have hstill : w'.bytesOf subId (fun c => w.db.isLive c && w'.db.isLive c) ≤
      w'.bytesOf subId w'.db.isLive :=
    bytesOf_mono (h.nonneg hnonneg) subId fun c hc => (Bool.and_eq_true_iff.mp hc).2
  rw [bytesOf_split w' subId w.db.isLive w'.db.isLive] at hbooked
  rw [used_eq_bytesOf, used_eq_bytesOf]
  linarith

theorem bytesOf_eq_zero {counted : Uuid → Bool} (h : ∀ c, counted c = false) :
    w.bytesOf subId counted = 0 := by
  simp [bytesOf, h, Db.sumBytes]

theorem used_mono_of_grows (h : Db.Grows w.db w'.db) (hnonneg : w.db.NonnegTraffic)
    (hlive : ∀ c, w.db.isLive c = true → w'.db.isLive c = true) (subId : Uuid) :
    w.used subId ≤ w'.used subId := by
  have hle := used_le_of_grows h hnonneg subId
  rw [bytesOf_eq_zero, add_zero] at hle
  · exact hle
  · intro c
    cases hc : w.db.isLive c with
    | false => rfl
    | true => rw [hlive c hc, Bool.not_true, Bool.and_false]

end Bytes

variable {c : Uuid}

section Steps

variable {networks : WgNetworks} {maxTicks : ℕ} {s : World × Strikes}

theorem bookRel_grows : BookRel fun w w' => Db.Grows w.db w'.db where
  refl _ := .of_traffic rfl
  trans _ _ _ h h' := h.trans h'
  readWatermarks w := .of_traffic (by rw [dbRead_db])
  book _ _ _ _ _ _ _ _ := dbCall_rel (.of_traffic rfl) fun _ _ h => Db.grows_upsertBucket h
  setWatermark connId uplink downlink now w := by
    rcases dbExec_cases (Db.updateWatermark connId uplink downlink now) w with ⟨-, hdb⟩ | ⟨-, hdb⟩
    · exact .of_traffic (by rw [hdb])
    · exact .of_traffic (by rw [hdb]; rfl)

theorem createConnectionInner_keeps (networks : WgNetworks) (req : CreateConnection)
    (generated : Generated) (now : DateTime) (w : World) :
    let w' := (w.createConnectionInner networks req generated now).1
    w'.db.connectionTraffic = w.db.connectionTraffic ∧
      ∀ c, w.db.isLive c = true → w'.db.isLive c = true := by
  rcases createConnectionInner_eq networks req generated now w with
    ⟨_, _, h⟩ | ⟨conn, db, _, _, -, hinsert, -, h⟩ <;> rw [h]
  · exact ⟨rfl, fun _ hc => hc⟩
  · obtain ⟨hnew, rfl⟩ := insertConnection_cases hinsert
    refine ⟨rfl, fun c hc => ?_⟩
    have hne : c ≠ generated.connId := by
      rintro rfl
      rw [Db.isLive, hnew] at hc
      cases hc
    rwa [Db.isLive, AList.lookup_insert_ne hne]

theorem isLive_persistConnectionTraffic (metrics : MetricStorage) (now : DateTime) (w : World)
    (c : Uuid) : (w.persistConnectionTraffic metrics now).db.isLive c = w.db.isLive c := by
  rw [isLive_eq_life, isLive_eq_life, bookRel_lives.persistConnectionTraffic metrics now w c]

end Steps

section Deletion

variable {w : World} {connId : Uuid} {conn : Conn} {reason : Option String} {now : DateTime}

theorem isLive_deleteConnection_of_ne (hne : c ≠ connId) :
    (w.deleteConnection connId conn reason now).1.db.isLive c = w.db.isLive c := by
  rw [isLive_eq_life, isLive_eq_life]
  rcases life_deleteConnection connId conn reason now w c with h | ⟨rfl, -⟩
  · rw [h]
  · exact absurd rfl hne

theorem isLive_of_deleteConnection
    (h : (w.deleteConnection connId conn reason now).1.db.isLive c = true) :
    w.db.isLive c = true := by
  have hdeleted : (w.db.deleteConnection connId reason).isLive c = true → w.db.isLive c = true := by
    intro h
    rw [Db.isLive, Db.deleteConnection, AList.lookup_modify] at h
    obtain ⟨row', hrow', hlive⟩ := (Option.any_eq_true _ _).mp h
    obtain ⟨row, hrow, rfl⟩ := Option.map_eq_some_iff.mp hrow'
    rw [Db.isLive, hrow]
    split at hlive
    · cases hlive
    · exact hlive
  rcases deleteConnection_eq connId conn reason now w with
    ⟨-, _, -, heq⟩ | ⟨-, ⟨_, heq⟩ | ⟨_, heq⟩ | heq⟩ <;> rw [heq] at h
  · exact h
  · exact h
  · exact hdeleted h
  · exact hdeleted h

/-- A deletion gives back the bytes of its connection, if that was live and is not any
more. -/
theorem used_deleteConnection (w : World) (connId : Uuid) (conn : Conn) (reason : Option String)
    (now : DateTime) (subId : Uuid) :
    let w' := (w.deleteConnection connId conn reason now).1
    w'.used subId + w.bytesOf subId (fun c =>
      decide (c = connId) && (w.db.isLive c && !w'.db.isLive c)) = w.used subId := by
  intro w'
  have htraffic : w'.db.connectionTraffic = w.db.connectionTraffic :=
    deleteRel_traffic.delete connId conn reason now w
  have hstill : (fun c => w.db.isLive c && w'.db.isLive c) = w'.db.isLive := by
    funext c
    cases hc : w'.db.isLive c with
    | false => rw [Bool.and_false]
    | true => rw [isLive_of_deleteConnection hc, Bool.and_true]
  have hgone : (fun c => decide (c = connId) && (w.db.isLive c && !w'.db.isLive c)) =
      fun c => w.db.isLive c && !w'.db.isLive c := by
    funext c
    by_cases hc : c = connId
    · simp [hc]
    · rw [isLive_deleteConnection_of_ne hc, Bool.and_not_self, Bool.and_false]
  have hused : w'.used subId = w.bytesOf subId w'.db.isLive := by
    rw [used_eq_bytesOf, bytesOf_eq_rowSum, bytesOf_eq_rowSum, htraffic]
  rw [hused, hgone, used_eq_bytesOf w, bytesOf_split w subId w.db.isLive w'.db.isLive, hstill]

theorem used_le_deleteConnection (hnonneg : w.db.NonnegTraffic)
    (h : (w.cachedLive connId && w.holdsBalance subId connId) = false) :
    w.used subId ≤ (w.deleteConnection connId conn reason now).1.used subId := by
  rcases Bool.and_eq_false_iff.mp h with hdead | hnone
  · rcases deleteConnection_eq connId conn reason now w with ⟨-, _, -, heq⟩ | ⟨⟨_, hconn, hlive⟩, -⟩
    · rw [heq]
    · simp [cachedLive, hconn, hlive] at hdead
  · have hzero : w.bytesOf subId (fun c => decide (c = connId) && w.db.isLive c) = 0 := by
      simpa [holdsBalance] using hnone
    have hgone : w.bytesOf subId (fun c => decide (c = connId) && (w.db.isLive c &&
        !(w.deleteConnection connId conn reason now).1.db.isLive c)) ≤ 0 := by
      rw [← hzero]
      refine bytesOf_mono hnonneg subId fun c hc => ?_
      simp only [Bool.and_eq_true] at hc ⊢
      exact ⟨hc.1, hc.2.1⟩
    have hused := used_deleteConnection w connId conn reason now subId
    dsimp only at hused
    linarith

end Deletion

section Runs

open Traffic (hourNanos uplinkStore)

variable {networks : WgNetworks} {maxTicks : ℕ} {subId : Uuid} {s : World × Strikes}
  {pass : DevicePass} {item : Uuid × Uuid × Conn}

theorem visit_keeps (networks : WgNetworks) (maxTicks : ℕ) (pass : DevicePass)
    (s : World × Strikes) (item : Uuid × Uuid × Conn) :
    (pass.visit networks maxTicks s item).1.db.connectionTraffic = s.1.db.connectionTraffic ∧
      ∀ c, c ≠ item.1 → s.1.db.isLive c = true →
        (pass.visit networks maxTicks s item).1.db.isLive c = true := by
  unfold DevicePass.visit
  split
  · exact ⟨rfl, fun _ _ hc => hc⟩
  · split
    · exact ⟨rfl, fun _ _ hc => hc⟩
    · obtain ⟨htraffic, hlive⟩ := createConnectionInner_keeps networks
        (DevicePass.reissue item.2.1 item.2.2) (pass.generated item.1) pass.now s.1
      split <;> rename_i hresult <;> rw [hresult] at htraffic hlive
      · exact ⟨htraffic, fun c _ hc => hlive c hc⟩
      · refine ⟨(deleteRel_traffic.delete ..).trans htraffic, fun c hne hc => ?_⟩
        exact (isLive_deleteConnection_of_ne hne).trans (hlive c hc)

theorem used_le_visit (hnonneg : s.1.db.NonnegTraffic)
    (h : pass.spares maxTicks subId s item = true) :
    s.1.used subId ≤ (pass.visit networks maxTicks s item).1.used subId := by
  cases hbalance : s.1.holdsBalance subId item.1 with
  | true =>
    have hstays : (pass.visit networks maxTicks s item).1 = s.1 := by
      unfold DevicePass.visit DevicePass.strike
      by_cases honline : pass.metrics.getConnectionOnlineCount item.1 ≤ 1
      · rw [if_pos honline]
      · have hcount : DevicePass.countAt s.2 item.1 < maxTicks := by
          simpa [DevicePass.spares, hbalance, honline] using h
        simp only [if_neg honline, if_pos hcount]
    rw [hstays]
  | false =>
    obtain ⟨htraffic, hlive⟩ := visit_keeps networks maxTicks pass s item
    have hle := used_le_of_grows (.of_traffic htraffic) hnonneg subId
    have hzero : s.1.bytesOf subId (fun c => decide (c = item.1) && s.1.db.isLive c) = 0 := by
      simpa [holdsBalance] using hbalance
    have hgone : (pass.visit networks maxTicks s item).1.bytesOf subId (fun c =>
        s.1.db.isLive c && !(pass.visit networks maxTicks s item).1.db.isLive c) ≤ 0 := by
      rw [bytesOf_eq_rowSum, htraffic, ← bytesOf_eq_rowSum, ← hzero]
      refine bytesOf_mono hnonneg subId fun c hc => ?_
      obtain ⟨hbefore, hafter⟩ := Bool.and_eq_true_iff.mp hc
      by_cases heq : c = item.1
      · simp [heq ▸ hbefore, heq]
      · rw [hlive c heq hbefore] at hafter
        cases hafter
    linarith

theorem used_le_enforceDeviceLimit (hnonneg : s.1.db.NonnegTraffic)
    (h : Run.Along (pass.visit networks maxTicks)
      (fun s item => pass.spares maxTicks subId s item = true) (DevicePass.started s)
      s.1.mem.liteConns) :
    s.1.used subId ≤ (pass.enforceDeviceLimit networks maxTicks s).1.used subId := by
  have hturn : ∀ (s' : World × Strikes) (item : Uuid × Uuid × Conn),
      (s'.1.db.NonnegTraffic ∧ s.1.used subId ≤ s'.1.used subId) →
      pass.spares maxTicks subId s' item = true →
      (pass.visit networks maxTicks s' item).1.db.NonnegTraffic ∧
        s.1.used subId ≤ (pass.visit networks maxTicks s' item).1.used subId := by
    rintro s' item ⟨hnonneg', hle⟩ hspares
    exact ⟨(Db.Grows.of_traffic (visit_keeps networks maxTicks pass s' item).1).nonneg hnonneg',
      hle.trans (used_le_visit hnonneg' hspares)⟩
  have hstart : (DevicePass.started s).1.db.NonnegTraffic ∧
      s.1.used subId ≤ (DevicePass.started s).1.used subId := ⟨hnonneg, le_refl (s.1.used subId)⟩
  exact (Run.invariant_end (I := fun s' : World × Strikes =>
    s'.1.db.NonnegTraffic ∧ s.1.used subId ≤ s'.1.used subId) hturn hstart h).2

theorem grows_enforceDeviceLimit (pass : DevicePass) (s : World × Strikes) :
    Db.Grows s.1.db (pass.enforceDeviceLimit networks maxTicks s).1.db :=
  Run.rel_foldl (R := fun s s' : World × Strikes => Db.Grows s.1.db s'.1.db)
    (fun _ => .of_traffic rfl) (fun _ _ _ h h' => h.trans h')
    (fun _ _ _ => .of_traffic (visit_keeps ..).1) (DevicePass.started s)

theorem used_le_apply (hnonneg : s.1.db.NonnegTraffic) {op : SpendingOp}
    (h : op.keepsBalance networks maxTicks subId s = true) :
    Db.Grows s.1.db (op.apply networks maxTicks s).1.db ∧
      s.1.used subId ≤ (op.apply networks maxTicks s).1.used subId := by
  cases op with
  | persist metrics now =>
    have hgrows := bookRel_grows.persistConnectionTraffic metrics now s.1
    refine ⟨hgrows, used_mono_of_grows hgrows hnonneg (fun c hc => ?_) subId⟩
    exact (isLive_persistConnectionTraffic metrics now s.1 c).trans hc
  | delete connId conn reason now =>
    exact ⟨.of_traffic (deleteRel_traffic.delete connId conn reason now s.1),
      used_le_deleteConnection hnonneg (Bool.not_eq_true' _ ▸ h)⟩
  | enforceDeviceLimit pass =>
    exact ⟨grows_enforceDeviceLimit pass s,
      used_le_enforceDeviceLimit hnonneg (of_decide_eq_true h)⟩
  | create req generated now =>
    obtain ⟨htraffic, hlive⟩ := createConnectionInner_keeps networks req generated now s.1
    exact ⟨.of_traffic htraffic, used_mono_of_grows (.of_traffic htraffic) hnonneg hlive subId⟩
  | restore subId' meteredConns now =>
    have hrevives := restoreRel_onlyRevives.restore subId' meteredConns now s.1
    exact ⟨.of_traffic hrevives.traffic,
      used_mono_of_grows (.of_traffic hrevives.traffic) hnonneg hrevives.live subId⟩
  | restorePass settings now =>
    have hrevives : OnlyRevives s.1 (s.1.restoreSubscriptions settings now) :=
      restoreRel_onlyRevives.restoreSubscriptions s.1
    exact ⟨.of_traffic hrevives.traffic,
      used_mono_of_grows (.of_traffic hrevives.traffic) hnonneg hrevives.live subId⟩

/-- The used bytes of a subscription never fall along a run that deletes no connection with
booked bytes of it. -/
theorem used_mono_of_keepsBalance (networks : WgNetworks) (maxTicks : ℕ) (subId : Uuid)
    (s : World × Strikes) (hs : s.1.db.NonnegTraffic) (ops : List SpendingOp)
    (hkeeps : Run.Along (SpendingOp.apply networks maxTicks)
      (fun s op => op.keepsBalance networks maxTicks subId s = true) s ops) :
    ((ops.scanl (SpendingOp.apply networks maxTicks) s).map fun s => s.1.used subId).Pairwise
      (· ≤ ·) := by
  have hsteps : Run.Along (SpendingOp.apply networks maxTicks)
      (fun s op => s.1.used subId ≤ (op.apply networks maxTicks s).1.used subId) s ops :=
    Run.along_of_invariant (I := fun s : World × Strikes => s.1.db.NonnegTraffic)
      (fun s op hs hop => ⟨(used_le_apply hs hop).1.nonneg hs, (used_le_apply hs hop).2⟩) hs hkeeps
  exact List.pairwise_map.mpr (Run.pairwise_scanl (fun _ _ _ => le_trans) hsteps)

def spendAll : List SpendingOp :=
  [.persist (uplinkStore [(20, 0), (22, 100)]) (23 * hourNanos)]

def deleteSpent : List SpendingOp :=
  [.delete 5 (Conn.new .production (some 1) (.xray .vmess) none 0) (some DeleteReason.manual)
    (23 * hourNanos)]

/-- The bytes are used up, and the deletion of a connection that has none changes nothing. -/
theorem used_mono_of_keepsBalance_other :
    let networks : WgNetworks := ⟨⟨.v4 0, 0⟩, ⟨.v4 0, 0⟩, none⟩
    let ops : List SpendingOp := spendAll ++
      [.delete 6 (Conn.new .production (some 1) (.xray .vmess) none 0) none (24 * hourNanos)]
    ((ops.scanl (SpendingOp.apply networks 3) (liteWorld none, ∅)).map fun s => s.1.used 1) =
        [0, 100, 100] ∧
      ((ops.scanl (SpendingOp.apply networks 3) (liteWorld none, ∅)).map
        fun s => s.1.used 1).Pairwise (· ≤ ·) := by
  intro networks ops
  exact ⟨by decide +kernel, used_mono_of_keepsBalance networks 3 1 (liteWorld none, ∅)
    (nonnegTraffic_liteWorld none) ops (by decide +kernel)⟩

/-- Deleting a connection gives back the whole balance of its subscription. -/
theorem deletion_returns_balance :
    let networks : WgNetworks := ⟨⟨.v4 0, 0⟩, ⟨.v4 0, 0⟩, none⟩
    let s := SpendingOp.run networks 3 (liteWorld none, ∅) spendAll
    (liteWorld none).db.NonnegTraffic ∧
      (SpendingOp.run networks 3 s deleteSpent).1.used 1 < s.1.used 1 :=
  ⟨nonnegTraffic_liteWorld none, by decide +kernel⟩

end Runs

end World

end Fcore
