import Fcore.Tasks
import Fcore.Traffic.Attribution

/-!
# Whether exhaustion is final

The pass that enforces traffic limits deletes all connections of a subscription
that has used up its bytes, with the reason `traffic_exhausted`. The restoring pass
revives such a connection only while the used bytes are below the limit. The used
bytes are a sum over the connections that are live, and the enforcing pass has just
deleted those, so the sum is small again although nothing was paid.

The connections do stay deleted through every restoring pass that finds the bytes
of the connections still live at the limit, or does not pick the subscription.
-/

namespace Fcore

inductive Pass where
  | enforceTrafficLimits
  | restoreSubscriptions
  | cleanupExpiredSubscriptions
  | persistConnectionTraffic (metrics : MetricStorage)

namespace World

/-- The state after a pass at some time. -/
def runPass (settings : ServiceSettings) (w : World) (event : DateTime × Pass) : World :=
  match event.2 with
  | .enforceTrafficLimits => w.enforceTrafficLimits settings event.1
  | .restoreSubscriptions => w.restoreSubscriptions settings event.1
  | .cleanupExpiredSubscriptions => w.cleanupExpiredSubscriptions settings event.1
  | .persistConnectionTraffic metrics => w.persistConnectionTraffic metrics event.1

theorem LivesFollow.runPass (settings : ServiceSettings) (w : World) (event : DateTime × Pass) :
    LivesFollow w (w.runPass settings event) := by
  obtain ⟨now, pass⟩ := event
  cases pass with
  | enforceTrafficLimits => exact deleteRel_livesFollow.enforceTrafficLimits w
  | restoreSubscriptions => exact restoreRel_livesFollow.restoreSubscriptions w
  | cleanupExpiredSubscriptions => exact deleteRel_livesFollow.cleanupExpiredSubscriptions w
  | persistConnectionTraffic metrics =>
    exact .of_eq (bookRel_lives.persistConnectionTraffic metrics now w)

variable {w w' : World} {now : DateTime}

section Books

structure OnlyRevives (w w' : World) : Prop extends OnlyConnections w w' where
  live : ∀ c, w.db.isLive c = true → w'.db.isLive c = true

theorem OnlyRevives.of_eq (hmem : w'.mem = w.mem) (hdb : w'.db = w.db) : OnlyRevives w w' :=
  ⟨.of_eq hmem hdb, fun c hc => by rwa [hdb]⟩

theorem OnlyRevives.refl (w : World) : OnlyRevives w w := .of_eq rfl rfl

theorem OnlyRevives.trans {w₁ w₂ w₃ : World} (h : OnlyRevives w₁ w₂) (h' : OnlyRevives w₂ w₃) :
    OnlyRevives w₁ w₃ :=
  ⟨h.toOnlyConnections.trans h'.toOnlyConnections, fun c hc => h'.live c (h.live c hc)⟩

theorem OnlyRevives.subscriptions (h : OnlyRevives w w') :
    w'.mem.subscriptions = w.mem.subscriptions := by
  rw [h.mem]

theorem OnlyRevives.traffic (h : OnlyRevives w w') :
    w'.db.connectionTraffic = w.db.connectionTraffic := by
  rw [h.db]

theorem isLive_eq_life (w : World) (c : Uuid) :
    w.db.isLive c = (w.life c).stored.any fun row => !row.isDeleted := by
  rw [Db.isLive, life]
  cases w.db.connections.lookup c <;> rfl

theorem restoreRel_onlyRevives : RestoreRel OnlyRevives where
  refl := .refl
  trans _ _ _ h h' := h.trans h'
  readTotal subId w := .of_eq (by rw [dbRead_mem]) (by rw [dbRead_db])
  restore subId metered now w := by
    refine ⟨.restoreConnectionsBySubscription subId metered now w, fun c hc => ?_⟩
    rw [isLive_eq_life] at hc ⊢
    rcases life_restoreConnectionsBySubscription subId metered now w c with h | ⟨-, -, h⟩
    · rwa [h]
    · obtain ⟨row, hrow, -⟩ := (Option.any_eq_true _ _).mp hc
      simp [h, Life.restored, hrow]

def used (w : World) (subId : Uuid) : ℤ :=
  (w.db.totalForSubscription subId).1 + (w.db.totalForSubscription subId).2

/-- The booked bytes of a subscription on the connections that are counted. -/
def bytesOf (w : World) (subId : Uuid) (counted : Uuid → Bool) : ℤ :=
  let rows := w.db.connectionTraffic.entries.filter fun e =>
    decide (e.2.subscriptionId = subId) && decide (e.1.period = .day) && counted e.1.connectionId
  Db.sumBytes rows .uplink + Db.sumBytes rows .downlink

theorem used_eq_bytesOf (w : World) (subId : Uuid) : w.used subId = w.bytesOf subId w.db.isLive :=
  rfl

theorem bytesOf_mono {counted counted' : Uuid → Bool} (hnonneg : w.db.NonnegTraffic)
    (subId : Uuid) (h : ∀ c, counted c = true → counted' c = true) :
    w.bytesOf subId counted ≤ w.bytesOf subId counted' := by
  refine add_le_add ?_ ?_ <;>
    refine Aggregate.sum_filter_le (fun row hrow => hnonneg row hrow _) fun row _ hrow => ?_ <;>
    rw [Bool.and_eq_true] at hrow ⊢ <;>
    exact ⟨hrow.1, h _ hrow.2⟩

theorem OnlyRevives.used_le (h : OnlyRevives w w') (hnonneg : w.db.NonnegTraffic) (subId : Uuid) :
    w.used subId ≤ w'.used subId := by
  calc w.used subId = w.bytesOf subId w.db.isLive := used_eq_bytesOf w subId
    _ ≤ w.bytesOf subId w'.db.isLive := bytesOf_mono hnonneg subId h.live
    _ = w'.bytesOf subId w'.db.isLive := by rw [bytesOf, bytesOf, h.traffic]
    _ = w'.used subId := (used_eq_bytesOf w' subId).symm

end Books

section Exhausted

variable {settings : ServiceSettings} {subId : Uuid} {c : Uuid}

/-- Deleted in both places because the bytes of its subscription were used up. -/
def exhaustedLife (subId : Uuid) : Life :=
  ⟨some ⟨true, some subId⟩, some ⟨true, some DeleteReason.trafficExhausted, some subId⟩⟩

theorem connectionRestorable_trafficExhausted {used : ℤ} {limit : Option ℤ} :
    connectionRestorable (some DeleteReason.trafficExhausted) used limit = true ↔
      ∃ l, limit = some l ∧ used < l := by
  have hne : DeleteReason.trafficExhausted ≠ DeleteReason.expired := by decide
  cases limit with
  | none => simp [connectionRestorable, hne]
  | some l => simp [connectionRestorable, hne]

theorem deleteRel_deleted (c : Uuid) : DeleteRel fun w w' =>
    ∀ owner, (w.life c).cached = some ⟨true, owner⟩ → w'.life c = w.life c where
  refl _ _ _ := rfl
  trans w₁ w₂ w₃ h h' owner hcached := by
    have h₁₂ := h owner hcached
    exact (h' owner (h₁₂ ▸ hcached)).trans h₁₂
  readTotal subId w _ _ := life_readTotal subId w c
  delete connId conn reason now w owner hcached := by
    rcases life_deleteConnection connId conn reason now w c with h | ⟨-, ⟨_, hlive⟩, -⟩
    · exact h
    · rw [hlive] at hcached
      cases hcached

/-- A restoration leaves an exhausted connection alone, unless it is one of the
subscription's and finds the used bytes below the limit. -/
theorem life_restore_of_exhausted (hlife : w.life c = exhaustedLife subId) {restored : Uuid}
    (metered : Option (List String)) (now : DateTime)
    (hspent : restored = subId → ∀ limit, w.mem.limitBytes subId = some limit →
      limit ≤ w.used subId) :
    (w.restoreConnectionsBySubscription restored metered now).1.life c = exhaustedLife subId := by
  rcases life_restoreConnectionsBySubscription restored metered now w c with
    h | ⟨hcached, ⟨used, hrestorable, hused⟩, -⟩
  · rw [h, hlife]
  · obtain rfl : subId = restored := by simpa [hlife, exhaustedLife] using hcached
    have hreason : (w.life c).reason subId = some DeleteReason.trafficExhausted := by
      simp [hlife, exhaustedLife, Life.reason, Option.filter]
    rw [hreason, connectionRestorable_trafficExhausted] at hrestorable
    obtain ⟨limit, hlimit, hlt⟩ := hrestorable
    have htotal : used = w.used subId := hused hreason
    rw [htotal] at hlt
    exact absurd (hspent rfl limit hlimit) (not_le.mpr hlt)

def isRevivable (settings : ServiceSettings) (now : DateTime) (sub : Subscription) : Bool :=
  sub.isActive now || (settings.trafficModeEnabled && !sub.isDeleted && sub.timeExpired now)

theorem isRevivable_of_mem {mem : Cache} {item : Uuid × Bool}
    (h : item ∈ mem.revivableSubs settings now) :
    ∃ sub, mem.subscriptions.lookup item.1 = some sub ∧ isRevivable settings now sub = true := by
  obtain ⟨e, he, hitem⟩ := List.mem_filterMap.mp h
  have hlookup := AList.lookup_of_mem_entries he
  split at hitem
  · rename_i hactive
    cases hitem
    exact ⟨e.2, hlookup, by simp [isRevivable, hactive]⟩
  · split at hitem
    · rename_i hexpired
      cases hitem
      exact ⟨e.2, hlookup, by simp [isRevivable, hexpired]⟩
    · cases hitem

def hasExhausted (w : World) (subId : Uuid) : Bool :=
  w.db.connections.entries.any fun e => decide (e.2.subscriptionId = some subId) &&
    e.2.isDeleted && decide (e.2.deletedReason = some DeleteReason.trafficExhausted)

theorem hasExhausted_of_life (hlife : w.life c = exhaustedLife subId) :
    w.hasExhausted subId = true := by
  have hstored : (w.db.connections.lookup c).map ConnRow.life =
      some ⟨true, some DeleteReason.trafficExhausted, some subId⟩ := congrArg Life.stored hlife
  obtain ⟨row, hrow, hrowLife⟩ := Option.map_eq_some_iff.mp hstored
  refine List.any_eq_true.mpr ⟨⟨c, row⟩, AList.mem_entries_iff.mpr hrow, ?_⟩
  simp only [ConnRow.life, StoredLife.mk.injEq] at hrowLife
  simp [hrowLife]

/-- A restoring pass that finds an exhausted connection of the subscription does not
pick the subscription, or finds that its live connections have used up the limit. -/
def balanceSpent (settings : ServiceSettings) (subId : Uuid) (w : World)
    (event : DateTime × Pass) : Bool :=
  match event.2 with
  | .restoreSubscriptions => !w.hasExhausted subId ||
      !(w.mem.subscriptions.lookup subId).any (isRevivable settings event.1) ||
      (w.mem.limitBytes subId).all fun limit => decide (limit ≤ w.used subId)
  | _ => true

theorem life_restoreSubscriptions_of_exhausted (hnonneg : w.db.NonnegTraffic)
    (hlife : w.life c = exhaustedLife subId)
    (hspent : w.balanceSpent settings subId (now, .restoreSubscriptions) = true) :
    (w.restoreSubscriptions settings now).life c = exhaustedLife subId := by
  -- The passes through the loop are related to the start, where the condition was met.
  suffices h : OnlyRevives w (w.restoreSubscriptions settings now) ∧
      (w.restoreSubscriptions settings now).life c = exhaustedLife subId from h.2
  refine Run.invariant_foldl (I := fun w' => OnlyRevives w w' ∧ w'.life c = exhaustedLife subId)
    ⟨.refl w, hlife⟩ fun w' item hitem hw' => ?_
  refine ⟨hw'.1.trans (restoreRel_onlyRevives.restoreSubscription item w'), ?_⟩
  obtain ⟨w'', hw'', h⟩ := restoreSubscription_cases settings now item w'
  have hsame : w''.mem = w'.mem ∧ w''.db = w'.db := by
    rcases hw'' with rfl | rfl
    · exact ⟨rfl, rfl⟩
    · exact ⟨dbRead_mem _ w', dbRead_db _ w'⟩
  have hlife'' : w''.life c = exhaustedLife subId := by
    rw [← hw'.2]
    exact life_congr (by rw [hsame.1]) (by rw [hsame.2]) c
  rcases h with h | ⟨metered, h⟩
  · rw [h, hlife'']
  rw [h]
  refine life_restore_of_exhausted hlife'' metered now fun hsub limit hlimit => ?_
  obtain ⟨sub, hlookup, hrevivable⟩ := isRevivable_of_mem hitem
  rw [hsub] at hlookup
  have hlimit₀ : w.mem.limitBytes subId = some limit := by
    rw [← hlimit, Cache.limitBytes, Cache.limitBytes, hsame.1, hw'.1.subscriptions]
  have hstart : limit ≤ w.used subId := by
    simpa [balanceSpent, hasExhausted_of_life hlife, hlookup, hrevivable, hlimit₀] using hspent
  have hgrown : w.used subId ≤ w''.used subId :=
    (hw'.1.trans (.of_eq hsame.1 hsame.2)).used_le hnonneg subId
  exact hstart.trans hgrown

theorem bytes_lookup_nonneg {db : Db} (h : db.NonnegTraffic) (key : TrafficKey)
    (dir : Traffic.Direction) :
    0 ≤ ((db.connectionTraffic.lookup key).map fun row => row.bytes dir).getD 0 := by
  cases hrow : db.connectionTraffic.lookup key with
  | none => exact le_rfl
  | some row => exact h ⟨key, row⟩ (AList.mem_entries_iff.mpr hrow) dir

theorem nonnegTraffic_upsertBucket {connId : Uuid} {env : String} {period : Period}
    {bucket : DateTime} {uplink downlink : ℕ} {db db' : Db}
    (h : db.upsertBucket connId subId env period bucket uplink downlink = .ok (db', ()))
    (hdb : db.NonnegTraffic) : db'.NonnegTraffic := by
  obtain ⟨row, rfl, hrow⟩ := upsertBucket_cases h
  rintro ⟨key, row'⟩ hmem dir
  rcases AList.lookup_insert_cases (AList.mem_entries_iff.mp hmem) with ⟨-, rfl⟩ | hold
  · exact (hrow dir).symm ▸ add_nonneg (bytes_lookup_nonneg hdb _ dir)
      (by cases dir <;> exact Int.natCast_nonneg _)
  · exact hdb ⟨key, row'⟩ (AList.mem_entries_iff.mpr hold) dir

theorem bookRel_nonnegTraffic : BookRel fun w w' =>
    w.db.NonnegTraffic → w'.db.NonnegTraffic where
  refl _ h := h
  trans _ _ _ h h' hw := h' (h hw)
  readWatermarks w h := by rwa [dbRead_db]
  book connId subId env period bucket uplink downlink w :=
    dbCall_rel (R := fun db db' => db.NonnegTraffic → db'.NonnegTraffic) id
      fun _ _ hbook hdb => nonnegTraffic_upsertBucket hbook hdb
  setWatermark connId uplink downlink now w h := by
    rcases dbExec_cases (Db.updateWatermark connId uplink downlink now) w with ⟨-, hdb⟩ | ⟨-, hdb⟩
    · rwa [hdb]
    · rw [hdb]
      exact h

theorem deleteRel_traffic : DeleteRel fun w w' =>
    w'.db.connectionTraffic = w.db.connectionTraffic where
  refl _ := rfl
  trans _ _ _ h h' := h'.trans h
  readTotal subId w := by rw [dbRead_db]
  delete connId conn reason now w := by
    rcases deleteConnection_eq connId conn reason now w with
      ⟨-, _, -, h⟩ | ⟨-, ⟨_, h⟩ | ⟨_, h⟩ | h⟩ <;> rw [h] <;> rfl

theorem nonnegTraffic_runPass (h : w.db.NonnegTraffic) (event : DateTime × Pass) :
    (w.runPass settings event).db.NonnegTraffic := by
  have hsame : ∀ w' : World, w'.db.connectionTraffic = w.db.connectionTraffic →
      w'.db.NonnegTraffic := by
    intro w' hw'
    unfold Db.NonnegTraffic
    rwa [hw']
  obtain ⟨now, pass⟩ := event
  cases pass with
  | enforceTrafficLimits => exact hsame _ (deleteRel_traffic.enforceTrafficLimits w)
  | restoreSubscriptions => exact hsame _ (restoreRel_onlyRevives.restoreSubscriptions w).traffic
  | cleanupExpiredSubscriptions => exact hsame _ (deleteRel_traffic.cleanupExpiredSubscriptions w)
  | persistConnectionTraffic metrics =>
    exact bookRel_nonnegTraffic.persistConnectionTraffic metrics now w h

theorem life_runPass_of_exhausted {event : DateTime × Pass} (hnonneg : w.db.NonnegTraffic)
    (hlife : w.life c = exhaustedLife subId) (hspent : w.balanceSpent settings subId event = true) :
    (w.runPass settings event).life c = exhaustedLife subId := by
  have hcached : (w.life c).cached = some ⟨true, some subId⟩ := congrArg Life.cached hlife
  obtain ⟨now, pass⟩ := event
  cases pass with
  | enforceTrafficLimits =>
    exact ((deleteRel_deleted c).enforceTrafficLimits w _ hcached).trans hlife
  | restoreSubscriptions => exact life_restoreSubscriptions_of_exhausted hnonneg hlife hspent
  | cleanupExpiredSubscriptions =>
    exact ((deleteRel_deleted c).cleanupExpiredSubscriptions w _ hcached).trans hlife
  | persistConnectionTraffic metrics =>
    exact (bookRel_lives.persistConnectionTraffic metrics now w c).trans hlife

/-- An enforcing pass exhausts a connection of the subscription. -/
def Exhausts (settings : ServiceSettings) (w : World) (now : DateTime) (subId c : Uuid) : Prop :=
  (w.life c).cached = some ⟨false, some subId⟩ ∧
    ((w.enforceTrafficLimits settings now).life c).cached = some ⟨true, some subId⟩ ∧
    ∃ row, ((w.enforceTrafficLimits settings now).life c).stored = some row ∧
      row.isDeleted = true ∧ row.deletedReason = some DeleteReason.trafficExhausted

/-- In a run of passes, what was exhausted is never live again. -/
def ExhaustionFinal (settings : ServiceSettings) (subId : Uuid) (w₀ : World)
    (events : List (DateTime × Pass)) : Prop :=
  ∀ before now after c, events = before ++ (now, .enforceTrafficLimits) :: after →
    (before.foldl (runPass settings) w₀).Exhausts settings now subId c →
      ∀ w ∈ after.scanl (runPass settings)
        ((before.foldl (runPass settings) w₀).enforceTrafficLimits settings now),
        ¬ (w.life c).IsLive

theorem Exhausts.life_eq (h : w.Exhausts settings now subId c) (hw : w.LivesCoherent) :
    (w.enforceTrafficLimits settings now).life c = exhaustedLife subId := by
  obtain ⟨-, hcached, ⟨deleted, reason, owner⟩, hstored, rfl, rfl⟩ := h
  have hcoherent : ((w.enforceTrafficLimits settings now).life c).Coherent :=
    hw.of_follow (deleteRel_livesFollow.enforceTrafficLimits w) c
  obtain ⟨row, hrow, howner, -⟩ := hcoherent _ hcached
  rw [hstored] at hrow
  cases hrow
  generalize (w.enforceTrafficLimits settings now).life c = l at *
  obtain ⟨cached, stored⟩ := l
  cases hcached
  cases hstored
  cases howner
  rfl

/-- Along every run whose restoring passes find the balance spent, exhaustion is
final. -/
theorem exhaustion_final {w₀ : World} {events : List (DateTime × Pass)}
    (hw₀ : w₀.LivesCoherent) (hnonneg : w₀.db.NonnegTraffic)
    (hspent : Run.Along (runPass settings)
      (fun w event => w.balanceSpent settings subId event = true) w₀ events) :
    ExhaustionFinal settings subId w₀ events := by
  rintro before now after c rfl hexhausts w hmem
  obtain ⟨-, -, hafter⟩ := Run.along_append.mp hspent
  have hbefore : (before.foldl (runPass settings) w₀).LivesCoherent ∧
      (before.foldl (runPass settings) w₀).db.NonnegTraffic :=
    Run.invariant_foldl (I := fun w : World => w.LivesCoherent ∧ w.db.NonnegTraffic)
      ⟨hw₀, hnonneg⟩ fun w event _ h =>
        ⟨h.1.of_follow (.runPass settings w event), nonnegTraffic_runPass h.2 event⟩
  have hstart : (runPass settings (before.foldl (runPass settings) w₀)
        (now, .enforceTrafficLimits)).db.NonnegTraffic ∧
      (runPass settings (before.foldl (runPass settings) w₀)
        (now, .enforceTrafficLimits)).life c = exhaustedLife subId :=
    ⟨nonnegTraffic_runPass hbefore.2 _, hexhausts.life_eq hbefore.1⟩
  have hlife := Run.invariant_scanl
    (I := fun w : World => w.db.NonnegTraffic ∧ w.life c = exhaustedLife subId)
    (fun w event hw hspent => ⟨nonnegTraffic_runPass hw.1 event,
      life_runPass_of_exhausted hw.1 hw.2 hspent⟩) hstart hafter w hmem
  rw [hlife.2]
  simp [Life.IsLive, exhaustedLife]

end Exhausted

section Runs

open Traffic (hourNanos uplinkStore)

/-- A lite subscription of 100 bytes with one connection, nothing booked so far. -/
def liteWorld (expiresAt : Option DateTime) : World :=
  let sub := { Subscription.newLite 1 "" 100 0 with expiresAt := expiresAt }
  let w := ((init (fun _ => false) fun _ => false).addSub sub 0).1
  (w.addConn 5 (Conn.new .production (some 1) (.xray .vmess) none 0) none none none true).1

/-- The connection uses 100 bytes; they are booked, the limit is enforced, and the
restoring pass runs. -/
def exhaustedRun : List (DateTime × Pass) :=
  [(23 * hourNanos, .persistConnectionTraffic (uplinkStore [(20, 0), (22, 100)])),
    (23 * hourNanos, .enforceTrafficLimits), (23 * hourNanos, .restoreSubscriptions)]

theorem livesCoherent_liteWorld (expiresAt : Option DateTime) :
    (liteWorld expiresAt).LivesCoherent :=
  ((livesCoherent_init _ _).of_follow (.addSub _ _ _)).of_follow (.addConn _ _ _ _ _ _ _)

theorem nonnegTraffic_liteWorld (expiresAt : Option DateTime) :
    (liteWorld expiresAt).db.NonnegTraffic := by
  intro e he
  cases he

/-- The subscription's paid time ended at noon, so the restoring pass does not pick
it. -/
theorem exhaustion_final_expired :
    ExhaustionFinal ⟨false, []⟩ 1 (liteWorld (some (12 * hourNanos))) exhaustedRun :=
  exhaustion_final (livesCoherent_liteWorld _) (nonnegTraffic_liteWorld _) (by decide +kernel)

/-- Without an expiry the restoring pass revives the connection at once. -/
theorem not_exhaustion_final_lite :
    (liteWorld none).LivesCoherent ∧ (liteWorld none).db.NonnegTraffic ∧
      ¬ ExhaustionFinal ⟨false, []⟩ 1 (liteWorld none) exhaustedRun := by
  refine ⟨livesCoherent_liteWorld _, nonnegTraffic_liteWorld _, fun h => ?_⟩
  refine h [_] (23 * hourNanos) [(23 * hourNanos, .restoreSubscriptions)] 5 rfl ?_ _
    (List.mem_of_getLast? rfl) ?_
  · exact ⟨by decide +kernel, by decide +kernel,
      ⟨true, some DeleteReason.trafficExhausted, some 1⟩, by decide +kernel, rfl, rfl⟩
  · unfold Life.IsLive
    decide +kernel

end Runs

end World

end Fcore
