import Fcore.Memory.Subscription
import Fcore.Http.RateLimit

/-!
# Connection sync

A node fetches the connections it has to serve from `POST /connections/sync`
and compares their number with `POST /connections/count`. Our own nodes call
with a service token and name an environment; a self-hosted node calls with its
`node_` token and is bound to the environment it is registered in.

Both endpoints select with the one predicate `syncConnMatches`. For a node token
the flag `strictEnv` is set, and in the predicate it stands as an alternative to
the comparison of environments. The selection for a node token is therefore
independent of the environment, and the main result says exactly when it
nevertheless stays inside the environment of the node.
-/

namespace Fcore

inductive ConnectionsSyncAuth where
  | service
  | node (id : Uuid)
  deriving DecidableEq, Repr

namespace ConnectionsSyncAuth

def bound : ConnectionsSyncAuth → Option Uuid
  | service => none
  | node id => some id

end ConnectionsSyncAuth

structure ConnType where
  proto : Tag
  lastUpdate : Option ℕ
  env : Env
  topic : Topic
  deriving DecidableEq, Repr

structure ConnCountRequest where
  env : Env
  proto : List Tag
  deriving DecidableEq, Repr

def timestampU64 (t : DateTime) : ℕ :=
  (t / 1000000000 % 2 ^ 64).toNat

def syncEnv (bound : Option Uuid) (ownEnv : Option Env) (requested : Env) : Except String Env :=
  match bound with
  | none => .ok requested
  | some _ =>
    match ownEnv with
    | some env => .ok env
    | none => .error "node is not registered"

/-- A pinned connection appears only on the node of its pin. -/
def pinnedTo (connNodes : Table Uuid Uuid) (connId nodeId : Uuid) : Bool :=
  match connNodes.lookup connId with
  | some pin => decide (pin = nodeId)
  | none => true

/-- Excluded devices are hidden from the general list only. -/
def mainFeedConnectionVisible (excluded : List Uuid) (connId : Uuid) (general : Bool) : Bool :=
  !general || !excluded.contains connId

/-- A pinned connection is for the init topic of its node only. -/
def syncConnVisible (pin : Option Uuid) (topic : Topic) : Bool :=
  match pin, topic with
  | some pin, .init id => pin = id
  | some _, _ => false
  | none, _ => true

def syncConnMatches (connId : Uuid) (conn : Conn) (proto : Tag) (env : Env) (strictEnv : Bool)
    (topic : Topic) (lastUpdate : Option ℕ) (connNodes : Table Uuid Uuid) : Bool :=
  !conn.isDeleted
    && decide (conn.proto.proto = proto)
    && (strictEnv || decide (proto = .hysteria2) || decide (conn.env = env))
    && lastUpdate.all (fun ts => decide (ts ≤ timestampU64 conn.modifiedAt))
    && syncConnVisible (connNodes.lookup connId) topic

/-- The connections of the cache that satisfy the predicate. -/
def syncSelected (mem : Cache) (proto : Tag) (env : Env) (strictEnv : Bool) (topic : Topic)
    (lastUpdate : Option ℕ) : List (Uuid × Conn) :=
  (mem.connections.entries.filter fun e =>
    syncConnMatches e.1 e.2 proto env strictEnv topic lastUpdate mem.connNodes).map
      fun e => (e.1, e.2)

def requestEnv (mem : Cache) (auth : ConnectionsSyncAuth) (requested : Env) :
    Except String Env :=
  syncEnv auth.bound (auth.bound.bind fun id => (mem.nodes.getById id).map Node.env) requested

/-- What `get_connections_handler` selects. -/
def getConnectionsSelected (auth : ConnectionsSyncAuth) (req : ConnType) (mem : Cache) :
    Except String (List (Uuid × Conn)) :=
  match requestEnv mem auth req.env with
  | .error msg => .error msg
  | .ok env =>
    let topic := match auth.bound with
      | some id => .init id
      | none => req.topic
    .ok (syncSelected mem req.proto env auth.bound.isSome topic req.lastUpdate)

/-- What `connections_count_handler` counts for one tag. -/
def connectionsCountSelected (auth : ConnectionsSyncAuth) (req : ConnCountRequest) (mem : Cache)
    (proto : Tag) : Except String (List (Uuid × Conn)) :=
  match requestEnv mem auth req.env with
  | .error msg => .error msg
  | .ok env =>
    let topic := match auth.bound with
      | some id => .init id
      | none => .init 0
    .ok (syncSelected mem proto env auth.bound.isSome topic none)

/-- The reply of the sync endpoint and what it publishes. A publishing error
rejects the request. -/
def getConnectionsHandler (auth : ConnectionsSyncAuth) (req : ConnType) (mem : Cache)
    (publishFails : Bool) : Except String (Reply × Option (Topic × List Message)) :=
  match getConnectionsSelected auth req mem with
  | .error msg => .ok (.notFound msg, none)
  | .ok selected =>
    if selected.isEmpty then .ok (.notModified "", none)
    else if publishFails then .error "Publish error"
    else
      let topic := match auth.bound with
        | some id => .init id
        | none => req.topic
      .ok (.success "Ok", some (topic, selected.map fun e => e.2.asCreateMessage e.1))

/-- The reply of the count endpoint, the counts it carries, and the limiter
afterwards. -/
def connectionsCountHandler (auth : ConnectionsSyncAuth) (req : ConnCountRequest) (mem : Cache)
    (limiter : SubRateLimiter) (now : ℤ) : (Reply × Table Tag ℕ) × SubRateLimiter :=
  if req.proto.isEmpty || decide (16 < req.proto.length) then
    ((.badRequest "proto: expected 1..16 tags", ∅), limiter)
  else
    let checked := match auth.bound with
      | some id => limiter.check id now
      | none => (true, limiter)
    if !checked.1 then
      ((.tooManyRequests "count polled too often", ∅), checked.2)
    else
      match requestEnv mem auth req.env with
      | .error msg => ((.notFound msg, ∅), checked.2)
      | .ok _ =>
        let count (proto : Tag) : ℕ :=
          ((connectionsCountSelected auth req mem proto).toOption.getD []).length
        ((.success "Ok", req.proto.foldl (fun counts proto =>
          AList.insert proto (count proto) counts) ∅), checked.2)

variable {mem : Cache} {proto : Tag} {env : Env} {lastUpdate : Option ℕ} {id : Uuid} {node : Node}

theorem mem_syncSelected {strictEnv : Bool} {topic : Topic} {e : Uuid × Conn} :
    e ∈ syncSelected mem proto env strictEnv topic lastUpdate ↔
      mem.connections.lookup e.1 = some e.2 ∧
        syncConnMatches e.1 e.2 proto env strictEnv topic lastUpdate mem.connNodes = true := by
  obtain ⟨id, conn⟩ := e
  simp only [syncSelected, List.mem_map, List.mem_filter, Prod.mk.injEq]
  constructor
  · rintro ⟨⟨id', conn'⟩, ⟨hmem, hmatch⟩, rfl, rfl⟩
    exact ⟨AList.lookup_of_mem_entries hmem, hmatch⟩
  · rintro ⟨hlookup, hmatch⟩
    exact ⟨⟨id, conn⟩, ⟨AList.mem_entries_iff.mpr hlookup, hmatch⟩, rfl, rfl⟩

/-- What the sync endpoint publishes is the selection, and each of it is cached and
visible on the topic. -/
theorem getConnectionsHandler_published {auth : ConnectionsSyncAuth} {req : ConnType}
    {publishFails : Bool} {reply : Reply} {topic : Topic} {messages : List Message}
    (h : getConnectionsHandler auth req mem publishFails = .ok (reply, some (topic, messages))) :
    ∃ selected, getConnectionsSelected auth req mem = .ok selected ∧
      messages = selected.map (fun e => e.2.asCreateMessage e.1) ∧
      ∀ e ∈ selected, mem.connections.lookup e.1 = some e.2 ∧
        syncConnVisible (mem.connNodes.lookup e.1) topic = true := by
  unfold getConnectionsHandler at h
  split at h
  · cases h
  · rename_i selected hselected
    split at h
    · cases h
    · split at h
      · cases h
      · cases h
        refine ⟨selected, hselected, rfl, fun e he => ?_⟩
        unfold getConnectionsSelected at hselected
        split at hselected
        · cases hselected
        · cases hselected
          obtain ⟨hcached, hmatches⟩ := mem_syncSelected.mp he
          simp only [syncConnMatches, Bool.and_eq_true] at hmatches
          exact ⟨hcached, hmatches.2⟩

theorem requestEnv_node (requested : Env) (h : mem.nodes.getById id = some node) :
    requestEnv mem (.node id) requested = .ok node.env := by
  simp [requestEnv, ConnectionsSyncAuth.bound, h, syncEnv]

/-- A connection a node may be sent whatever environment it belongs to: live,
of the requested protocol, changed recently enough, and not pinned to another
node. -/
structure Deliverable (mem : Cache) (nodeId : Uuid) (proto : Tag) (lastUpdate : Option ℕ)
    (connId : Uuid) (conn : Conn) : Prop where
  cached : mem.connections.lookup connId = some conn
  live : conn.isDeleted = false
  proto_eq : conn.proto.proto = proto
  fresh : ∀ ts ∈ lastUpdate, ts ≤ timestampU64 conn.modifiedAt
  unpinned : ∀ pin ∈ mem.connNodes.lookup connId, pin = nodeId

theorem syncConnVisible_init {pin : Option Uuid} :
    syncConnVisible pin (.init id) = true ↔ ∀ p ∈ pin, p = id := by
  cases pin <;> simp [syncConnVisible]

/-- With the strict flag set the selection is everything deliverable to the
node: the environment does not occur. -/
theorem mem_syncSelected_strict {e : Uuid × Conn} :
    e ∈ syncSelected mem proto env true (.init id) lastUpdate ↔
      Deliverable mem id proto lastUpdate e.1 e.2 := by
  rw [mem_syncSelected]
  simp only [syncConnMatches, Bool.true_or, Bool.and_true, Bool.and_eq_true, Bool.not_eq_true',
    decide_eq_true_eq, Option.all_eq_true, syncConnVisible_init]
  constructor
  · rintro ⟨hcached, ⟨⟨hlive, hproto⟩, hfresh⟩, hpin⟩
    exact ⟨hcached, hlive, hproto, hfresh, hpin⟩
  · rintro ⟨hcached, hlive, hproto, hfresh, hpin⟩
    exact ⟨hcached, ⟨⟨hlive, hproto⟩, hfresh⟩, hpin⟩

theorem getConnectionsSelected_node (req : ConnType) (h : mem.nodes.getById id = some node) :
    getConnectionsSelected (.node id) req mem =
      .ok (syncSelected mem req.proto node.env true (.init id) req.lastUpdate) := by
  simp [getConnectionsSelected, requestEnv_node req.env h, ConnectionsSyncAuth.bound]

theorem connectionsCountSelected_node (req : ConnCountRequest) (proto : Tag)
    (h : mem.nodes.getById id = some node) :
    connectionsCountSelected (.node id) req mem proto =
      .ok (syncSelected mem proto node.env true (.init id) none) := by
  simp [connectionsCountSelected, requestEnv_node req.env h, ConnectionsSyncAuth.bound]

def SelectionWithin (env : Env) (selected : Except String (List (Uuid × Conn))) : Prop :=
  ∀ sel, selected = .ok sel → ∀ e ∈ sel, e.2.env = env

theorem selectionWithin_strict_iff :
    SelectionWithin env (.ok (syncSelected mem proto env true (.init id) lastUpdate)) ↔
      ∀ connId conn, Deliverable mem id proto lastUpdate connId conn → conn.env = env := by
  constructor
  · intro h connId conn hdel
    exact h _ rfl (connId, conn) (mem_syncSelected_strict.mpr hdel)
  · rintro h sel hsel e he
    cases hsel
    exact h e.1 e.2 (mem_syncSelected_strict.mp he)

/-- What a node token is sent stays inside the environment of the node exactly
when the cache holds nothing deliverable to the node from another environment;
the same holds for what is counted for it. -/
theorem nodeToken_selection_within_iff (mem : Cache) (id : Uuid) (node : Node)
    (hnode : mem.nodes.getById id = some node) :
    (∀ req : ConnType,
      SelectionWithin node.env (getConnectionsSelected (.node id) req mem) ↔
        ∀ connId conn, Deliverable mem id req.proto req.lastUpdate connId conn →
          conn.env = node.env) ∧
    (∀ (req : ConnCountRequest) (proto : Tag),
      SelectionWithin node.env (connectionsCountSelected (.node id) req mem proto) ↔
        ∀ connId conn, Deliverable mem id proto none connId conn → conn.env = node.env) := by
  constructor
  · intro req
    rw [getConnectionsSelected_node req hnode]
    exact selectionWithin_strict_iff
  · intro req proto
    rw [connectionsCountSelected_node req proto hnode]
    exact selectionWithin_strict_iff

theorem connectionsCountSelected_eq_fullSync (mem : Cache) (id : Uuid) (env : Env)
    (protos : List Tag) (proto : Tag) (topic : Topic) :
    connectionsCountSelected (.node id) ⟨env, protos⟩ mem proto =
      getConnectionsSelected (.node id) ⟨proto, none, env, topic⟩ mem := rfl

def syncNode : Node := .bare 1 (.personalFor 7)

/-- A cache with `syncNode` registered and one live connection in `env`. -/
def syncCache (env : Env) : Cache :=
  { Cache.empty with
    nodes := AList.singleton syncNode.env [syncNode]
    connections := AList.singleton 2 (Conn.new env none (.xray .vlessTcpReality) none 0) }

/-- A connection of the node's own environment is all the node is sent. -/
theorem nodeToken_selection_within_own_env :
    SelectionWithin syncNode.env (getConnectionsSelected (.node 1)
      ⟨.vlessTcpReality, none, .dev, .auth⟩ (syncCache syncNode.env)) := by
  refine ((nodeToken_selection_within_iff (syncCache syncNode.env) 1 syncNode rfl).1 _).mpr ?_
  intro connId conn hdel
  have hmem : (⟨connId, conn⟩ : Σ _ : Uuid, Conn) ∈ (syncCache syncNode.env).connections.entries :=
    AList.mem_entries_iff.mpr hdel.cached
  cases List.mem_singleton.mp hmem
  rfl

/-- A node registered in a personal environment asks for its connections and is
sent one of the shared environment `dev`. -/
theorem nodeToken_selection_leaks_dev :
    (syncCache .dev).nodes.getById 1 = some syncNode ∧
      ¬ SelectionWithin syncNode.env (getConnectionsSelected (.node 1)
        ⟨.vlessTcpReality, none, syncNode.env, .init 1⟩ (syncCache .dev)) ∧
      ¬ SelectionWithin syncNode.env (connectionsCountSelected (.node 1)
        ⟨syncNode.env, [.vlessTcpReality]⟩ (syncCache .dev) .vlessTcpReality) := by
  refine ⟨rfl, fun h => ?_, fun h => ?_⟩
  · exact absurd (h _ rfl _ (List.mem_singleton.mpr rfl)) (by decide)
  · exact absurd (h _ rfl _ (List.mem_singleton.mpr rfl)) (by decide)

end Fcore
