import Fcore.Lib.Run
import Fcore.Sync.Subscription

/-!
# Background passes

One turn of each background loop that writes connections or their traffic. A pass
first copies what it is going to visit out of the cache and then works through
the copy, so what it meets later may have changed since. A failure of a call ends
the work on one item and is logged; the pass goes on with the next.

A pass reads the clock as often as it likes; here the time stands still while it
runs.
-/

namespace Fcore

structure ServiceSettings where
  trafficModeEnabled : Bool
  meteredConns : List String
  deriving DecidableEq, Repr

namespace Cache

def liveConns (subId : Uuid) (mem : Cache) : List (Uuid × Conn) :=
  ((mem.connections.getBySubscriptionId subId).getD []).filter fun c => !c.2.isDeleted

def expiredConns (now : DateTime) (mem : Cache) : List (Uuid × Conn) :=
  (mem.connections.entries.filter fun e =>
    e.2.subscriptionId.isNone && e.2.expiresAt.any (fun expiresAt => decide (expiresAt ≤ now)) &&
      !e.2.isDeleted).map fun e => (e.1, e.2)

def inactiveSubs (now : DateTime) (mem : Cache) : List Uuid :=
  (mem.subscriptions.entries.filter fun e => !e.2.isActive now).map fun e => e.1

/-- The subscriptions whose connections are to be revived, and whether only their
traffic balance pays for that. -/
def revivableSubs (settings : ServiceSettings) (now : DateTime) (mem : Cache) :
    List (Uuid × Bool) :=
  mem.subscriptions.entries.filterMap fun e =>
    if e.2.isActive now then some (e.1, false)
    else if settings.trafficModeEnabled && !e.2.isDeleted && e.2.timeExpired now then
      some (e.1, true)
    else none

def isEnforced (settings : ServiceSettings) (now : DateTime) (sub : Subscription) : Bool :=
  sub.limitBytes.isSome &&
    (decide (sub.planKind = .lite) || (settings.trafficModeEnabled && sub.timeExpired now))

/-- The subscriptions whose limit is enforced, with the limit and the live
connections; one without live connections is left out. -/
def enforcedSubs (settings : ServiceSettings) (now : DateTime) (mem : Cache) :
    List (Uuid × ℤ × List (Uuid × Conn)) :=
  (mem.subscriptions.entries.filter fun e => isEnforced settings now e.2).filterMap fun e =>
    let conns := mem.liveConns e.1
    if conns.isEmpty then none else some (e.1, e.2.limitBytes.getD 0, conns)

def meteredTraffic (mem : Cache) : List (Uuid × Conn) :=
  (mem.connections.entries.filter fun e => !e.2.isDeleted && e.2.subscriptionId.isSome).map
    fun e => (e.1, e.2)

end Cache

namespace World

/-- Delete one connection after the other; failures are logged. -/
def deleteConns (reason : String) (now : DateTime) (conns : List (Uuid × Conn)) (w : World) :
    World :=
  conns.foldl (fun w c => (w.deleteConnection c.1 c.2 (some reason) now).1) w

def cleanupExpiredConnections (now : DateTime) (w : World) : World :=
  w.deleteConns DeleteReason.expired now (w.mem.expiredConns now)

/-- Whether the clean-up leaves a subscription alone because bytes are left on its
balance, or because that could not be found out. -/
def keptByBalance (settings : ServiceSettings) (now : DateTime) (subId : Uuid) (w : World) :
    World × Bool :=
  match settings.trafficModeEnabled, w.mem.subscriptions.lookup subId with
  | true, some sub =>
    match sub.isDeleted, sub.limitBytes, sub.timeExpired now with
    | false, some limit, true =>
      match w.dbRead (Db.totalForSubscription subId) with
      | (w, .ok total) => (w, decide (0 < limit - (total.1 + total.2)))
      | (w, .error _) => (w, true)
    | _, _, _ => (w, false)
  | _, _ => (w, false)

def cleanupSubscription (settings : ServiceSettings) (now : DateTime) (w : World) (subId : Uuid) :
    World :=
  let kept := w.keptByBalance settings now subId
  if kept.2 then kept.1
  else kept.1.deleteConns DeleteReason.expired now (kept.1.mem.liveConns subId)

def cleanupExpiredSubscriptions (settings : ServiceSettings) (now : DateTime) (w : World) : World :=
  (w.mem.inactiveSubs now).foldl (cleanupSubscription settings now) w

def restoreSubscription (settings : ServiceSettings) (now : DateTime) (w : World)
    (item : Uuid × Bool) : World :=
  if item.2 then
    match w.dbRead (Db.totalForSubscription item.1) with
    | (w, .error _) => w
    | (w, .ok total) =>
      let remaining := (w.mem.subscriptions.lookup item.1).bind fun sub =>
        sub.remainingBytes (total.1 + total.2)
      if remaining.any fun r => decide (0 < r) then
        (w.restoreConnectionsBySubscription item.1 (some settings.meteredConns) now).1
      else w
  else (w.restoreConnectionsBySubscription item.1 none now).1

def restoreSubscriptions (settings : ServiceSettings) (now : DateTime) (w : World) : World :=
  (w.mem.revivableSubs settings now).foldl (restoreSubscription settings now) w

def enforceTrafficLimit (now : DateTime) (w : World) (item : Uuid × ℤ × List (Uuid × Conn)) :
    World :=
  match w.dbRead (Db.totalForSubscription item.1) with
  | (w, .error _) => w
  | (w, .ok total) =>
    if total.1 + total.2 < item.2.1 then w
    else w.deleteConns DeleteReason.trafficExhausted now item.2.2

def enforceTrafficLimits (settings : ServiceSettings) (now : DateTime) (w : World) : World :=
  (w.mem.enforcedSubs settings now).foldl (enforceTrafficLimit now) w

/-- Book the segments of one connection, each under its day and under its month. -/
def persistSegments (connId subId : Uuid) (env : String) :
    List Traffic.SegmentTraffic → World → World × Except SyncError Unit
  | [], w => (w, .ok ())
  | seg :: segs, w =>
    andThen (w.dbCall (Db.upsertBucket connId subId env .day seg.dayBucket seg.uplink
      seg.downlink)) fun w _ =>
    andThen (w.dbCall (Db.upsertBucket connId subId env .month seg.monthBucket seg.uplink
      seg.downlink)) fun w _ =>
    persistSegments connId subId env segs w

/-- The watermark of a connection, or that of one never persisted. -/
def watermarkOf (watermarks : List ConnWatermark) (connId subId : Uuid) (env : String)
    (now : DateTime) : ConnWatermark :=
  (watermarks.find? fun wm => decide (wm.connId = connId)).getD ⟨connId, subId, env, 0, 0, now⟩

def persistConnection (metrics : MetricStorage) (watermarks : List ConnWatermark) (now : DateTime)
    (w : World) (c : Uuid × Conn) : World :=
  match c.2.subscriptionId with
  | none => w
  | some subId =>
    match w.mem.subscriptions.lookup subId with
    | none => w
    | some sub =>
      let env := c.2.env.asStr
      let wm := watermarkOf watermarks c.1 subId env now
      let segments :=
        Traffic.connectionDeltasBetween metrics c.1 sub.createdAt wm.lastPersistAt now
      let uplink := wm.uplink + ((segments.map fun seg => seg.uplink).sum : ℕ)
      let downlink := wm.downlink + ((segments.map fun seg => seg.downlink).sum : ℕ)
      (andThen (w.persistSegments c.1 subId env segments) fun w _ =>
        w.dbExec (Db.updateWatermark c.1 uplink downlink now)).1

def persistConnectionTraffic (metrics : MetricStorage) (now : DateTime) (w : World) : World :=
  match w.dbRead Db.allWatermarks with
  | (w, .error _) => w
  | (w, .ok watermarks) =>
    w.mem.meteredTraffic.foldl (persistConnection metrics watermarks now) w

/-- A relation that the operations of the cleaning and enforcing passes keep. Such a
relation holds between the two ends of a pass. -/
structure DeleteRel (R : World → World → Prop) : Prop where
  refl : ∀ w, R w w
  trans : ∀ w₁ w₂ w₃, R w₁ w₂ → R w₂ w₃ → R w₁ w₃
  readTotal : ∀ subId w, R w (w.dbRead (Db.totalForSubscription subId)).1
  delete : ∀ connId conn reason now w, R w (w.deleteConnection connId conn reason now).1

namespace DeleteRel

variable {R : World → World → Prop} (hR : DeleteRel R) {settings : ServiceSettings}
  {now : DateTime}

include hR

theorem deleteConns (reason : String) (conns : List (Uuid × Conn)) (w : World) :
    R w (w.deleteConns reason now conns) :=
  Run.rel_foldl hR.refl hR.trans (fun w c _ => hR.delete c.1 c.2 (some reason) now w) w

theorem cleanupExpiredConnections (w : World) : R w (w.cleanupExpiredConnections now) :=
  hR.deleteConns _ _ w

theorem keptByBalance (subId : Uuid) (w : World) : R w (w.keptByBalance settings now subId).1 := by
  unfold World.keptByBalance
  split
  · split
    · have hread := hR.readTotal subId w
      split <;> rename_i hresult <;> rwa [hresult] at hread
    · exact hR.refl w
  · exact hR.refl w

theorem cleanupSubscription (subId : Uuid) (w : World) :
    R w (w.cleanupSubscription settings now subId) := by
  unfold World.cleanupSubscription
  dsimp only
  split
  · exact hR.keptByBalance subId w
  · exact hR.trans _ _ _ (hR.keptByBalance subId w) (hR.deleteConns _ _ _)

theorem cleanupExpiredSubscriptions (w : World) :
    R w (w.cleanupExpiredSubscriptions settings now) :=
  Run.rel_foldl hR.refl hR.trans (fun w subId _ => hR.cleanupSubscription subId w) w

theorem enforceTrafficLimit (item : Uuid × ℤ × List (Uuid × Conn)) (w : World) :
    R w (w.enforceTrafficLimit now item) := by
  unfold World.enforceTrafficLimit
  have hread := hR.readTotal item.1 w
  split <;> rename_i hresult <;> rw [hresult] at hread
  · exact hread
  · split
    · exact hread
    · exact hR.trans _ _ _ hread (hR.deleteConns _ _ _)

theorem enforceTrafficLimits (w : World) : R w (w.enforceTrafficLimits settings now) :=
  Run.rel_foldl hR.refl hR.trans (fun w item _ => hR.enforceTrafficLimit item w) w

end DeleteRel

/-- What the restoring pass does for one subscription: it may ask for the used bytes,
and then it restores the connections or goes on. -/
theorem restoreSubscription_cases (settings : ServiceSettings) (now : DateTime)
    (item : Uuid × Bool) (w : World) :
    ∃ w', (w' = w ∨ w' = (w.dbRead (Db.totalForSubscription item.1)).1) ∧
      (w.restoreSubscription settings now item = w' ∨
        ∃ metered, w.restoreSubscription settings now item =
          (w'.restoreConnectionsBySubscription item.1 metered now).1) := by
  unfold World.restoreSubscription
  split
  · refine ⟨_, .inr rfl, ?_⟩
    split <;> rename_i hresult <;> rw [hresult]
    · exact .inl rfl
    · dsimp only
      split
      · exact .inr ⟨_, rfl⟩
      · exact .inl rfl
  · exact ⟨w, .inl rfl, .inr ⟨none, rfl⟩⟩

/-- The same for the restoring pass. -/
structure RestoreRel (R : World → World → Prop) : Prop where
  refl : ∀ w, R w w
  trans : ∀ w₁ w₂ w₃, R w₁ w₂ → R w₂ w₃ → R w₁ w₃
  readTotal : ∀ subId w, R w (w.dbRead (Db.totalForSubscription subId)).1
  restore : ∀ subId metered now w, R w (w.restoreConnectionsBySubscription subId metered now).1

namespace RestoreRel

variable {R : World → World → Prop} (hR : RestoreRel R) {settings : ServiceSettings}
  {now : DateTime}

include hR

theorem restoreSubscription (item : Uuid × Bool) (w : World) :
    R w (w.restoreSubscription settings now item) := by
  obtain ⟨w', hw', h | ⟨metered, h⟩⟩ := restoreSubscription_cases settings now item w <;>
    obtain rfl | rfl := hw' <;> rw [h]
  · exact hR.refl _
  · exact hR.readTotal item.1 w
  · exact hR.restore item.1 metered now _
  · exact hR.trans _ _ _ (hR.readTotal item.1 w) (hR.restore item.1 metered now _)

theorem restoreSubscriptions (w : World) : R w (w.restoreSubscriptions settings now) :=
  Run.rel_foldl hR.refl hR.trans (fun w item _ => hR.restoreSubscription item w) w

end RestoreRel

theorem life_readTotal (subId : Uuid) (w : World) (c : Uuid) :
    (w.dbRead (Db.totalForSubscription subId)).1.life c = w.life c :=
  life_congr (by rw [dbRead_mem]) (by rw [dbRead_db]) c

theorem deleteRel_livesFollow : DeleteRel LivesFollow where
  refl := .refl
  trans _ _ _ h h' := h.trans h'
  readTotal subId w := .of_eq (life_readTotal subId w)
  delete := .deleteConnection

theorem restoreRel_livesFollow : RestoreRel LivesFollow where
  refl := .refl
  trans _ _ _ h h' := h.trans h'
  readTotal subId w := .of_eq (life_readTotal subId w)
  restore := .restoreConnectionsBySubscription

/-- The same for the pass that books traffic. -/
structure BookRel (R : World → World → Prop) : Prop where
  refl : ∀ w, R w w
  trans : ∀ w₁ w₂ w₃, R w₁ w₂ → R w₂ w₃ → R w₁ w₃
  readWatermarks : ∀ w, R w (w.dbRead Db.allWatermarks).1
  book : ∀ connId subId env period bucket (uplink downlink : ℕ) w,
    R w (w.dbCall (Db.upsertBucket connId subId env period bucket uplink downlink)).1
  setWatermark : ∀ connId uplink downlink now w,
    R w (w.dbExec (Db.updateWatermark connId uplink downlink now)).1

namespace BookRel

variable {R : World → World → Prop} (hR : BookRel R)

include hR

theorem persistSegments (connId subId : Uuid) (env : String)
    (segments : List Traffic.SegmentTraffic) (w : World) :
    R w (w.persistSegments connId subId env segments).1 := by
  induction segments generalizing w with
  | nil => exact hR.refl w
  | cons seg segs ih =>
    refine andThen_rel hR.trans (hR.book ..) fun _ => ?_
    exact andThen_rel hR.trans (hR.book ..) fun _ => ih _

theorem persistConnection (metrics : MetricStorage) (watermarks : List ConnWatermark)
    (now : DateTime) (w : World) (c : Uuid × Conn) :
    R w (w.persistConnection metrics watermarks now c) := by
  unfold World.persistConnection
  split
  · exact hR.refl w
  · split
    · exact hR.refl w
    · exact andThen_rel hR.trans (hR.persistSegments ..) fun _ => hR.setWatermark ..

theorem persistConnectionTraffic (metrics : MetricStorage) (now : DateTime) (w : World) :
    R w (w.persistConnectionTraffic metrics now) := by
  unfold World.persistConnectionTraffic
  have hread := hR.readWatermarks w
  split <;> rename_i hresult <;> rw [hresult] at hread
  · exact hread
  · refine hR.trans _ _ _ hread ?_
    exact Run.rel_foldl hR.refl hR.trans (fun w c _ => hR.persistConnection metrics _ now w c) _

end BookRel

theorem upsertBucket_cases {connId subId : Uuid} {env : String} {period : Period}
    {bucket : DateTime} {uplink downlink : ℤ} {db db' : Db}
    (h : db.upsertBucket connId subId env period bucket uplink downlink = .ok (db', ())) :
    ∃ row, db' = { db with
        connectionTraffic := db.connectionTraffic.insert ⟨connId, period, bucket⟩ row } ∧
      ∀ dir, row.bytes dir = ((db.connectionTraffic.lookup ⟨connId, period, bucket⟩).map
        fun old => old.bytes dir).getD 0 + (match dir with
          | .uplink => uplink
          | .downlink => downlink) := by
  unfold Db.upsertBucket at h
  dsimp only at h
  split at h
  · rename_i old hold
    cases h
    exact ⟨_, rfl, fun dir => by cases dir <;> simp [TrafficRow.bytes, hold]⟩
  · rename_i hnone
    split at h
    · cases h
    · cases h
      exact ⟨_, rfl, fun dir => by cases dir <;> simp [TrafficRow.bytes, hnone]⟩

theorem life_updateWatermark (connId : Uuid) (uplink downlink : ℤ) (now : DateTime) (w : World)
    (c : Uuid) :
    (w.dbExec (Db.updateWatermark connId uplink downlink now)).1.life c = w.life c := by
  rcases dbExec_cases (Db.updateWatermark connId uplink downlink now) w with ⟨-, hdb⟩ | ⟨-, hdb⟩
  · exact life_congr (by rw [dbExec_mem]) (by rw [hdb]) c
  · simp only [life, dbExec_mem, hdb, Db.updateWatermark, AList.lookup_modify]
    cases w.db.connections.lookup c with
    | none => rfl
    | some row =>
      split <;> rfl

theorem bookRel_lives : BookRel fun w w' => ∀ c, w'.life c = w.life c where
  refl _ _ := rfl
  trans _ _ _ h h' c := (h' c).trans (h c)
  readWatermarks w := life_congr (by rw [dbRead_mem]) (by rw [dbRead_db])
  book _ _ _ _ _ _ _ w := by
    refine life_congr (by rw [dbCall_mem]) ?_
    refine dbCall_rel (R := fun db db' => db'.connections = db.connections) rfl fun db _ h => ?_
    obtain ⟨row, rfl, -⟩ := upsertBucket_cases h
    rfl
  setWatermark := life_updateWatermark

end World

end Fcore
