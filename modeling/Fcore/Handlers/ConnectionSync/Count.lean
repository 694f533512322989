import Fcore.Lib.Aggregate
import Fcore.Handlers.ConnectionSync

/-!
# Whether the count is what a full sync sends

A node compares the number it is told by `POST /connections/count` with what it has, and a
full sync is to send it that many connections. The two endpoints select with one predicate,
and the comment above it asks for one answer. They differ in the topic: with a node token
both use the init topic of the node, but for a service token the sync endpoint uses the
topic in the request, while the count endpoint uses the init topic of the nil identifier.
A connection pinned to the node is then sent and not counted.
-/

namespace Fcore

def publishedCount (answer : Except String (Reply × Option (Topic × List Message))) : ℕ :=
  match answer with
  | .ok (_, some published) => published.2.length
  | _ => 0

def fullSyncMatches (proto : Tag) (env : Env) (strictEnv : Bool) (conn : Conn) : Bool :=
  !conn.isDeleted && decide (conn.proto.proto = proto) &&
    (strictEnv || decide (proto = .hysteria2) || decide (conn.env = env))

/-- How many of them are pinned to a node, or to none. -/
def fullSyncPinned (mem : Cache) (proto : Tag) (env : Env) (strictEnv : Bool)
    (pin : Option Uuid) : ℕ :=
  mem.connections.entries.countP fun e =>
    fullSyncMatches proto env strictEnv e.2 && decide (mem.connNodes.lookup e.1 = pin)

theorem syncConnMatches_init (connId : Uuid) (conn : Conn) (proto : Tag) (env : Env)
    (strictEnv : Bool) (id : Uuid) (connNodes : Table Uuid Uuid) :
    syncConnMatches connId conn proto env strictEnv (.init id) none connNodes =
      (fullSyncMatches proto env strictEnv conn && decide (connNodes.lookup connId = none) ||
        fullSyncMatches proto env strictEnv conn &&
          decide (connNodes.lookup connId = some id)) := by
  simp only [syncConnMatches, fullSyncMatches, Option.all_none, Bool.and_true]
  cases connNodes.lookup connId <;> simp [syncConnVisible]

theorem length_syncSelected_init (mem : Cache) (proto : Tag) (env : Env) (strictEnv : Bool)
    (id : Uuid) :
    (syncSelected mem proto env strictEnv (.init id) none).length =
      fullSyncPinned mem proto env strictEnv none +
        fullSyncPinned mem proto env strictEnv (some id) := by
  unfold fullSyncPinned
  rw [← Aggregate.countP_or_of_disjoint]
  · simp only [syncSelected, List.length_map, ← List.countP_eq_length_filter,
      syncConnMatches_init]
  · intro e _ hnone
    simp only [Bool.and_eq_true, decide_eq_true_eq] at hnone
    simp [hnone.2]

theorem publishedCount_getConnectionsHandler {auth : ConnectionsSyncAuth} {req : ConnType}
    {mem : Cache} {selected : List (Uuid × Conn)}
    (h : getConnectionsSelected auth req mem = .ok selected) :
    publishedCount (getConnectionsHandler auth req mem false) = selected.length := by
  cases selected with
  | nil => simp [getConnectionsHandler, h, publishedCount]
  | cons e es => simp [getConnectionsHandler, h, publishedCount]

theorem connectionsCountHandler_lookup {auth : ConnectionsSyncAuth} {req : ConnCountRequest}
    {mem : Cache} {limiter : SubRateLimiter} {now : ℤ} {proto : Tag} {count : ℕ}
    (h : (connectionsCountHandler auth req mem limiter now).1.2.lookup proto = some count) :
    ∃ selected, connectionsCountSelected auth req mem proto = .ok selected ∧
      count = selected.length := by
  have hnone : (∅ : Table Tag ℕ).lookup proto ≠ some count := by simp
  unfold connectionsCountHandler at h
  cases henv : requestEnv mem auth req.env with
  | error msg =>
    simp only [henv] at h
    split at h
    · exact absurd h hnone
    · split at h <;> split at h <;> exact absurd h hnone
  | ok env =>
    obtain ⟨selected, hselected⟩ :
        ∃ selected, connectionsCountSelected auth req mem proto = .ok selected := by
      rw [connectionsCountSelected, henv]
      exact ⟨_, rfl⟩
    have hlength : ((connectionsCountSelected auth req mem proto).toOption.getD []).length =
        selected.length := by
      rw [hselected]
      rfl
    have hcount : (req.proto.foldl (fun s proto => AList.insert proto
        ((connectionsCountSelected auth req mem proto).toOption.getD []).length s)
          (∅ : Table Tag ℕ)).lookup proto = some count →
        count = ((connectionsCountSelected auth req mem proto).toOption.getD []).length := by
      rw [AList.lookup_foldl_insert_of_agree (o := fun proto => some _) fun _ _ => rfl]
      split
      · exact fun hsome => (Option.some.inj hsome).symm
      · simp
    refine ⟨selected, hselected, ?_⟩
    rw [← hlength]
    simp only [henv] at h
    split at h
    · exact absurd h hnone
    · split at h <;> split at h
      · exact absurd h hnone
      · exact hcount h
      · exact absurd h hnone
      · exact hcount h

theorem getConnectionsSelected_service (req : ConnType) (mem : Cache) :
    getConnectionsSelected .service req mem =
      .ok (syncSelected mem req.proto req.env false req.topic req.lastUpdate) := rfl

theorem connectionsCountSelected_service (req : ConnCountRequest) (mem : Cache) (proto : Tag) :
    connectionsCountSelected .service req mem proto =
      .ok (syncSelected mem proto req.env false (.init 0) none) := rfl

/-- A number the count endpoint reports to a node is the number of connections a full sync
of the same environment and protocol publishes on the init topic of the node, with a node
token always, and with a service token exactly when as many of them are pinned to the node
as to the nil identifier. -/
theorem count_eq_fullSync_iff (mem : Cache) (n : Uuid) (auth : ConnectionsSyncAuth)
    (hauth : auth = .service ∨ auth = .node n) (env : Env) (proto : Tag) (protos : List Tag)
    (limiter : SubRateLimiter) (now : ℤ) (count : ℕ)
    (hcount : (connectionsCountHandler auth ⟨env, protos⟩ mem limiter now).1.2.lookup proto =
      some count) :
    publishedCount (getConnectionsHandler auth ⟨proto, none, env, .init n⟩ mem false) = count ↔
      (auth = .service → fullSyncPinned mem proto env false (some n) =
        fullSyncPinned mem proto env false (some 0)) := by
  obtain ⟨selected, hselected, rfl⟩ := connectionsCountHandler_lookup hcount
  rcases hauth with rfl | rfl
  · rw [connectionsCountSelected_service] at hselected
    cases hselected
    rw [publishedCount_getConnectionsHandler (getConnectionsSelected_service _ mem),
      length_syncSelected_init, length_syncSelected_init]
    simp
  · rw [connectionsCountSelected_eq_fullSync mem n env protos proto (.init n)] at hselected
    rw [publishedCount_getConnectionsHandler hselected]
    simp

/-- A cache with one connection of the environment `dev`, pinned to node 1. -/
def pinnedCache : Cache :=
  { syncCache .dev with connNodes := AList.singleton 2 1 }

def openLimiter : SubRateLimiter := ⟨1, 60, ∅⟩

/-- A node that asks with its own token is told the one connection it is sent. -/
theorem count_eq_fullSync_nodeToken :
    (connectionsCountHandler (.node 1) ⟨.dev, [.vlessTcpReality]⟩ pinnedCache openLimiter
        0).1.2.lookup .vlessTcpReality = some 1 ∧
      publishedCount (getConnectionsHandler (.node 1) ⟨.vlessTcpReality, none, .dev, .init 1⟩
        pinnedCache false) = 1 := by
  have hcount : (connectionsCountHandler (.node 1) ⟨.dev, [.vlessTcpReality]⟩ pinnedCache
      openLimiter 0).1.2.lookup .vlessTcpReality = some 1 := by decide +kernel
  refine ⟨hcount, (count_eq_fullSync_iff pinnedCache 1 (.node 1) (.inr rfl) .dev .vlessTcpReality
    [.vlessTcpReality] openLimiter 0 1 hcount).mpr ?_⟩
  intro h
  cases h

/-- The same node asking with a service token is told that there is none. -/
theorem not_count_eq_fullSync_serviceToken :
    (connectionsCountHandler .service ⟨.dev, [.vlessTcpReality]⟩ pinnedCache openLimiter
        0).1.2.lookup .vlessTcpReality = some 0 ∧
      publishedCount (getConnectionsHandler .service ⟨.vlessTcpReality, none, .dev, .init 1⟩
        pinnedCache false) = 1 := by
  decide +kernel

end Fcore
