import Fcore.Auth.Service
import Fcore.Lib.Run
import Fcore.Sync.View

/-!
# The auth service after a downtime

While the auth service is down it misses messages. When it comes back it loads a snapshot
and catches up with what the api lists as changed since. The list has the live connections
only, so a token that was revoked in the meantime stays in the copy and stays good. And it
has only what is visible on the init topic of the service, so a connection that is pinned
to a node is missing, although its messages go to the auth topic.

The main result says exactly which tokens are good after a start, and from that when they
are those of the live connections.
-/

namespace Fcore

/-- A token of a connection that the api has as live. -/
def Cache.LiveToken (mem : Cache) (token : Uuid) : Prop :=
  ∃ id conn, mem.connections.lookup id = some conn ∧ conn.isDeleted = false ∧
    conn.proto.token = some token

/-- A token of a live connection that is not pinned to another node. -/
def Cache.VisibleToken (mem : Cache) (nodeId token : Uuid) : Prop :=
  ∃ id conn, mem.connections.lookup id = some conn ∧ conn.isDeleted = false ∧
    conn.proto.token = some token ∧ ∀ pin ∈ mem.connNodes.lookup id, pin = nodeId

theorem Cache.VisibleToken.live {mem : Cache} {nodeId token : Uuid}
    (h : mem.VisibleToken nodeId token) : mem.LiveToken token := by
  obtain ⟨id, conn, hconn, hlive, htoken, -⟩ := h
  exact ⟨id, conn, hconn, hlive, htoken⟩

/-- What the api does to connections. -/
inductive ApiCall where
  | create (connId : Uuid) (env : Env) (subscriptionId : Option Uuid) (proto : Proto)
      (expiresAt : Option DateTime) (label : Option String) (nodeId : Option Uuid)
      (issuedVia : Option String) (includeInMain : Bool)
  | delete (connId : Uuid) (conn : Conn) (reason : Option String)
  | restore (subId : Uuid) (meteredConns : Option (List String))

namespace World

/-- The state after a call at some time. -/
def apiCall (w : World) (event : DateTime × ApiCall) : World :=
  match event.2 with
  | .create connId env subscriptionId proto expiresAt label nodeId issuedVia includeInMain =>
    (w.addConn connId (.new env subscriptionId proto expiresAt event.1) label nodeId issuedVia
      includeInMain).1
  | .delete connId conn reason => (w.deleteConnection connId conn reason event.1).1
  | .restore subId meteredConns =>
    (w.restoreConnectionsBySubscription subId meteredConns event.1).1

/-- What happened to the cached connections since some moment: none is gone or has another
protocol, and one that is live was so then, unchanged, or has been changed since. -/
structure ChangedSince (fresh : DateTime → Prop) (w w' : World) : Prop where
  kept : ∀ id conn, w.mem.connections.lookup id = some conn →
    ∃ conn', w'.mem.connections.lookup id = some conn' ∧ conn'.proto = conn.proto
  live : ∀ id conn', w'.mem.connections.lookup id = some conn' → conn'.isDeleted = false →
    w.mem.connections.lookup id = some conn' ∨ fresh conn'.modifiedAt

namespace ChangedSince

variable {fresh : DateTime → Prop} {w w' : World}

theorem of_eq (h : w'.mem.connections = w.mem.connections) : ChangedSince fresh w w' := by
  constructor
  · intro id conn hconn
    exact ⟨conn, by rw [h, hconn], rfl⟩
  · intro id conn' hconn' _
    rw [h] at hconn'
    exact .inl hconn'

theorem trans {w₁ w₂ w₃ : World} (h : ChangedSince fresh w₁ w₂) (h' : ChangedSince fresh w₂ w₃) :
    ChangedSince fresh w₁ w₃ := by
  constructor
  · intro id conn hconn
    obtain ⟨conn₂, hconn₂, hproto₂⟩ := h.kept id conn hconn
    obtain ⟨conn₃, hconn₃, hproto₃⟩ := h'.kept id conn₂ hconn₂
    exact ⟨conn₃, hconn₃, hproto₃.trans hproto₂⟩
  · intro id conn hconn hlive
    rcases h'.live id conn hconn hlive with hsame | hfresh
    · exact h.live id conn hsame hlive
    · exact .inr hfresh

theorem of_modify (connId : Uuid) (g : Conn → Conn)
    (h : w'.mem.connections = w.mem.connections.modify connId g)
    (hproto : ∀ conn, (g conn).proto = conn.proto) (hfresh : ∀ conn, fresh (g conn).modifiedAt) :
    ChangedSince fresh w w' := by
  constructor
  · intro id conn hconn
    rw [h, AList.lookup_modify, hconn]
    refine ⟨_, rfl, ?_⟩
    split
    · exact hproto conn
    · rfl
  · intro id conn' hconn' _
    rw [h, AList.lookup_modify] at hconn'
    obtain ⟨conn, hconn, rfl⟩ := Option.map_eq_some_iff.mp hconn'
    split
    · exact .inr (hfresh conn)
    · exact .inl hconn

variable {connId : Uuid} {now : DateTime}

theorem addConn {conn : Conn} {label : Option String} {nodeId : Option Uuid}
    {issuedVia : Option String} {includeInMain : Bool} (hfresh : fresh conn.modifiedAt) :
    ChangedSince fresh w (w.addConn connId conn label nodeId issuedVia includeInMain).1 := by
  unfold World.addConn
  generalize ({ ConnRow.ofConn conn with
    label := label
    nodeId := nodeId
    issuedVia := issuedVia
    includeInMain := includeInMain } : ConnRow) = row
  rcases dbCall_cases (Db.insertConnection connId row) w with ⟨⟨e, he⟩, -⟩ | ⟨db, u, -, hok, -⟩
  · rw [andThen_error he]
    exact of_eq (by rw [dbCall_mem])
  · rw [andThen_ok hok]
    have hlookup : ∀ id, ((w.dbCall (Db.insertConnection connId row)).1.writeMem
        (Cache.addConn connId conn label nodeId includeInMain)).mem.connections.lookup id =
        if id = connId then some ((w.mem.connections.lookup connId).getD conn)
        else w.mem.connections.lookup id := by
      intro id
      rw [writeMem_mem, dbCall_mem, lookup_addConn]
    constructor
    · intro id old hold
      refine ⟨old, ?_, rfl⟩
      rw [hlookup]
      split
      · rename_i hid
        rw [← hid, hold, Option.getD_some]
      · exact hold
    · intro id conn' hconn' _
      rw [hlookup] at hconn'
      split at hconn'
      · rename_i hid
        rw [← hid] at hconn'
        cases hold : w.mem.connections.lookup id with
        | none =>
          rw [hold] at hconn'
          cases hconn'
          exact .inr hfresh
        | some old =>
          rw [hold] at hconn'
          cases hconn'
          exact .inl rfl
      · exact .inl hconn'

theorem deleteConnection {conn : Conn} {reason : Option String} (hfresh : fresh now) :
    ChangedSince fresh w (w.deleteConnection connId conn reason now).1 := by
  rcases deleteConnection_eq connId conn reason now w with
    ⟨-, _, -, h⟩ | ⟨-, ⟨_, h⟩ | ⟨_, h⟩ | h⟩ <;> rw [h]
  · exact of_eq rfl
  · exact of_eq rfl
  · exact of_eq rfl
  · exact of_modify connId (fun conn => { conn with isDeleted := true, modifiedAt := now }) rfl
      (fun _ => rfl) fun _ => hfresh

theorem restoreConnection (hfresh : fresh now) :
    ChangedSince fresh w (w.restoreConnection connId now).1 := by
  rcases restoreConnection_eq connId now w with ⟨-, h⟩ | ⟨_, h⟩ | ⟨-, h⟩ <;> rw [h]
  · exact of_eq rfl
  · exact of_eq rfl
  · exact of_modify connId (fun conn => { conn with isDeleted := false, modifiedAt := now }) rfl
      (fun _ => rfl) fun _ => hfresh

theorem restoreAll (hfresh : fresh now) (items : List (Uuid × Conn × Option Uuid)) :
    ChangedSince fresh w (restoreAll now items w).1 := by
  induction items generalizing w with
  | nil => exact of_eq rfl
  | cons item items ih =>
    refine trans ?_ ih
    obtain ⟨v, hmem, -, h | h⟩ := restoreOne_cases now item w
    · rw [h]
      exact of_eq (by rw [hmem])
    · rw [h]
      exact (of_eq (by rw [hmem])).trans (restoreConnection hfresh)

theorem apiCall {event : DateTime × ApiCall} (hfresh : fresh event.1) :
    ChangedSince fresh w (w.apiCall event) := by
  obtain ⟨now, call⟩ := event
  cases call with
  | create => exact addConn hfresh
  | delete => exact deleteConnection hfresh
  | restore subId meteredConns =>
    obtain ⟨v, hmem, -, -, h | h⟩ :=
      restoreConnectionsBySubscription_cases subId meteredConns now w
    · simp only [World.apiCall, h]
      exact of_eq (by rw [hmem])
    · simp only [World.apiCall, h]
      exact (of_eq (by rw [hmem])).trans (restoreAll hfresh _)

end ChangedSince

end World

namespace Auth

open World (ChangedSince)

/-- The copy has the live Hysteria2 connections of the api, with their tokens. -/
structure Mirrors (mem : Memory) (api : Cache) : Prop where
  hysteria2 : ∀ id conn, mem.lookup id = some conn → conn.proto.token.isSome = true
  same : ∀ id token, (∃ conn, mem.lookup id = some conn ∧ conn.proto.token = some token) ↔
    ∃ conn, api.connections.lookup id = some conn ∧ conn.isDeleted = false ∧
      conn.proto.token = some token

theorem Mirrors.hasToken_iff {mem : Memory} {api : Cache} (h : Mirrors mem api) {token : Uuid} :
    HasToken mem token ↔ api.LiveToken token :=
  exists_congr fun id => h.same id token

/-- A service may ask with a service token, or with its own node token if it is
registered. -/
def Service.MayAsk (service : Service) (auth : ConnectionsSyncAuth) (api : Cache) : Prop :=
  auth = .service ∨ auth = .node service.uuid ∧ ∃ node, api.nodes.getById service.uuid = some node

theorem syncConnMatches_hysteria2 {connId : Uuid} {conn : Conn} {env : Env} {strictEnv : Bool}
    {nodeId : Uuid} {since : ℕ} {connNodes : Table Uuid Uuid} :
    syncConnMatches connId conn .hysteria2 env strictEnv (.init nodeId) (some since) connNodes =
        true ↔
      conn.isDeleted = false ∧ conn.proto.proto = .hysteria2 ∧
        since ≤ timestampU64 conn.modifiedAt ∧ ∀ pin ∈ connNodes.lookup connId, pin = nodeId := by
  simp [syncConnMatches, syncConnVisible_init, and_assoc]

theorem proto_of_token {proto : Proto} {token : Uuid} (h : proto.token = some token) :
    proto.proto = .hysteria2 := by
  cases proto with
  | hysteria2 => rfl
  | _ => cases h

/-- What a service that may ask is sent: the live connections changed since the snapshot
and visible on its topic, as creations. -/
theorem getConnectionsHandler_start {service : Service} {auth : ConnectionsSyncAuth} {api : Cache}
    (hauth : service.MayAsk auth api) (since : ℕ) :
    ∃ env strictEnv, (∀ mem now, service.start auth (some ⟨since, mem⟩) api now =
      handleMessagesBatch now ((syncSelected api .hysteria2 env strictEnv (.init service.uuid)
        (some since)).map fun e => e.2.asCreateMessage e.1) mem) := by
  have hanswer : ∃ env strictEnv,
      getConnectionsHandler auth (service.getConnections (some since)) api false =
        if (syncSelected api .hysteria2 env strictEnv (.init service.uuid) (some since)).isEmpty
        then .ok (.notModified "", none)
        else .ok (.success "Ok", some (.init service.uuid,
          (syncSelected api .hysteria2 env strictEnv (.init service.uuid) (some since)).map
            fun e => e.2.asCreateMessage e.1)) := by
    rcases hauth with rfl | ⟨rfl, node, hnode⟩
    · exact ⟨service.env, false, rfl⟩
    · refine ⟨node.env, true, ?_⟩
      rw [getConnectionsHandler, getConnectionsSelected_node _ hnode]
      rfl
  obtain ⟨env, strictEnv, hanswer⟩ := hanswer
  refine ⟨env, strictEnv, fun mem now => ?_⟩
  generalize syncSelected api .hysteria2 env strictEnv (.init service.uuid) (some since) =
    selected at hanswer ⊢
  unfold Service.start
  simp only [Option.map_some, Option.getD_some, hanswer]
  cases selected with
  | nil => rfl
  | cons e es => simp [Service.accepts]

variable {service : Service} {auth : ConnectionsSyncAuth} {snapshot : Snapshot} {w₀ : World}
  {events : List (DateTime × ApiCall)} {taken : DateTime}

theorem timestampU64_le {t t' : ℤ} (ht : 0 ≤ t) (hle : t ≤ t')
    (ht' : t' < 2 ^ 64 * 1000000000) : timestampU64 t ≤ timestampU64 t' := by
  unfold timestampU64
  omega

/-- The calls of a history happen after a moment, at times that fit their word. -/
def HappenAfter (taken : DateTime) (events : List (DateTime × ApiCall)) : Prop :=
  ∀ event ∈ events, taken ≤ event.1 ∧ event.1 < 2 ^ 64 * 1000000000

theorem changedSince_history (htaken : 0 ≤ taken) (hevents : HappenAfter taken events) :
    ChangedSince (fun t => timestampU64 taken ≤ timestampU64 t) w₀
      (events.foldl World.apiCall w₀) :=
  Run.rel_foldl (fun _ => .of_eq rfl) (fun _ _ _ h h' => h.trans h')
    (fun _ event hevent => .apiCall (timestampU64_le htaken (hevents event hevent).1
      (hevents event hevent).2)) w₀

/-- The tokens that are good after a start: those of the snapshot, and those of the live
connections that are not pinned to another node. -/
theorem validateToken_start_iff (hauth : service.MayAsk auth (events.foldl World.apiCall w₀).mem)
    (hsnapshot : Mirrors snapshot.memory w₀.mem)
    (htimestamp : snapshot.timestamp = timestampU64 taken) (htaken : 0 ≤ taken)
    (hevents : HappenAfter taken events) (now : DateTime) (token : Uuid) :
    (validateToken token (service.start auth (some snapshot) (events.foldl World.apiCall w₀).mem
        now)).isSome ↔
      w₀.mem.LiveToken token ∨
        (events.foldl World.apiCall w₀).mem.VisibleToken service.uuid token := by
  have hchanged : ChangedSince (fun t => timestampU64 taken ≤ timestampU64 t) w₀
      (events.foldl World.apiCall w₀) := changedSince_history htaken hevents
  generalize events.foldl World.apiCall w₀ = w at hauth hchanged ⊢
  obtain ⟨since, mem⟩ := snapshot
  obtain rfl : since = timestampU64 taken := htimestamp
  obtain ⟨env, strictEnv, hstart⟩ := getConnectionsHandler_start hauth (timestampU64 taken)
  -- A connection has the same token all along.
  have hmem : ∀ id conn, mem.lookup id = some conn →
      conn.proto.token = (w.mem.connections.lookup id).bind fun conn => conn.proto.token := by
    intro id conn hconn
    obtain ⟨token, htoken⟩ := Option.isSome_iff_exists.mp (hsnapshot.hysteria2 id conn hconn)
    obtain ⟨old, hold, -, hold_token⟩ := (hsnapshot.same id token).mp ⟨conn, hconn, htoken⟩
    obtain ⟨conn', hconn', hproto⟩ := hchanged.kept id old hold
    rw [htoken, hconn', Option.bind_some, hproto, hold_token]
  rw [validateToken_isSome_iff, hstart, hasToken_handleMessagesBatch hmem, hsnapshot.hasToken_iff]
  · constructor
    · rintro (hold | ⟨msg, hmsg, htoken⟩)
      · exact .inl hold
      · obtain ⟨e, he, rfl⟩ := List.mem_map.mp hmsg
        obtain ⟨hconn, hmatches⟩ := mem_syncSelected.mp he
        obtain ⟨hlive, -, -, hpin⟩ := syncConnMatches_hysteria2.mp hmatches
        exact .inr ⟨e.1, e.2, hconn, hlive, htoken, hpin⟩
    · rintro (hold | ⟨id, conn, hconn, hlive, htoken, hpin⟩)
      · exact .inl hold
      · rcases hchanged.live id conn hconn hlive with hold | hfresh
        · exact .inl ⟨id, conn, hold, hlive, htoken⟩
        · refine .inr ⟨conn.asCreateMessage id, ?_, htoken⟩
          refine List.mem_map.mpr ⟨(id, conn), mem_syncSelected.mpr ⟨hconn, ?_⟩, rfl⟩
          exact syncConnMatches_hysteria2.mpr ⟨hlive, proto_of_token htoken, hfresh, hpin⟩
  · intro msg hmsg
    obtain ⟨e, he, rfl⟩ := List.mem_map.mp hmsg
    obtain ⟨hconn, -⟩ := mem_syncSelected.mp he
    refine ⟨rfl, ?_⟩
    rw [show (e.2.asCreateMessage e.1).connId = e.1 from rfl, hconn]
    rfl

/-- After a start the good tokens are exactly those of the live connections, just when no
token of the snapshot was revoked since, and every token that is live now was so then or
belongs to a connection that is not pinned to another node. -/
theorem auth_converges_iff (hauth : service.MayAsk auth (events.foldl World.apiCall w₀).mem)
    (hsnapshot : Mirrors snapshot.memory w₀.mem)
    (htimestamp : snapshot.timestamp = timestampU64 taken) (htaken : 0 ≤ taken)
    (hevents : HappenAfter taken events) (now : DateTime) :
    (∀ token, (validateToken token (service.start auth (some snapshot)
        (events.foldl World.apiCall w₀).mem now)).isSome ↔
      (events.foldl World.apiCall w₀).mem.LiveToken token) ↔
    (∀ token, w₀.mem.LiveToken token → (events.foldl World.apiCall w₀).mem.LiveToken token) ∧
      ∀ token, (events.foldl World.apiCall w₀).mem.LiveToken token → w₀.mem.LiveToken token ∨
        (events.foldl World.apiCall w₀).mem.VisibleToken service.uuid token := by
  simp only [validateToken_start_iff hauth hsnapshot htimestamp htaken hevents now]
  constructor
  · intro h
    exact ⟨fun token hold => (h token).mp (.inl hold), fun token hlive => (h token).mpr hlive⟩
  · rintro ⟨hkept, hnew⟩ token
    refine ⟨?_, hnew token⟩
    rintro (hold | hvisible)
    · exact hkept token hold
    · exact hvisible.live

def hysteriaConn (token : Uuid) (now : DateTime) : Conn :=
  .new .production none (.hysteria2 token) none now

def hysteriaWorld : World :=
  ((World.init (fun _ => false) fun _ => false).addConn 1 (hysteriaConn 7 0) none none none true).1

def hysteriaSnapshot : Snapshot := ⟨0, AList.insert 1 (.new (.hysteria2 7) none none 0) ∅⟩

theorem connections_hysteriaWorld :
    hysteriaWorld.mem.connections = AList.insert 1 (hysteriaConn 7 0) ∅ := rfl

theorem mirrors_hysteriaSnapshot : Mirrors hysteriaSnapshot.memory hysteriaWorld.mem := by
  constructor
  · intro id conn hconn
    obtain ⟨-, rfl⟩ := AList.eq_of_lookup_single hconn
    rfl
  · intro id token
    rw [hysteriaSnapshot, connections_hysteriaWorld, AList.lookup_insert_eq_ite,
      AList.lookup_insert_eq_ite]
    by_cases hid : id = 1
    · simp [NodeTasks.Base.new, hysteriaConn, Conn.new]
    · rw [if_neg hid, if_neg hid]
      simp

def createHysteria (token : Uuid) : ApiCall :=
  .create 2 .production none (.hysteria2 token) none none none none true

/-- A connection is created while the service is down, and its token is good afterwards. -/
theorem auth_converges_created :
    let w := [(5, createHysteria 8)].foldl World.apiCall hysteriaWorld
    ∀ token, (validateToken token (Service.start ⟨9, .production⟩ .service (some hysteriaSnapshot)
      w.mem 6)).isSome ↔ w.mem.LiveToken token := by
  have hevents : HappenAfter 0 [(5, createHysteria 8)] := by
    intro event hevent
    cases List.mem_singleton.mp hevent
    exact ⟨by decide, by decide⟩
  refine (auth_converges_iff (.inl rfl) mirrors_hysteriaSnapshot rfl le_rfl hevents 6).mpr ⟨?_, ?_⟩
  · rintro token ⟨id, conn, hconn, hlive, htoken⟩
    rw [connections_hysteriaWorld] at hconn
    obtain ⟨-, rfl⟩ := AList.eq_of_lookup_single hconn
    exact ⟨1, hysteriaConn 7 0, rfl, hlive, htoken⟩
  · rintro token ⟨id, conn, hconn, hlive, htoken⟩
    refine .inr ⟨id, conn, hconn, hlive, htoken, fun pin hpin => ?_⟩
    cases hpin

/-- A connection is deleted while the service is down, and its token stays good. -/
theorem not_auth_converges_deleted :
    let w := [(5, .delete 1 (hysteriaConn 7 0) none)].foldl World.apiCall hysteriaWorld
    Mirrors hysteriaSnapshot.memory hysteriaWorld.mem ∧ ¬ w.mem.LiveToken 7 ∧
      validateToken 7 (Service.start ⟨9, .production⟩ .service (some hysteriaSnapshot) w.mem 6) =
        some 1 := by
  refine ⟨mirrors_hysteriaSnapshot, ?_, by decide +kernel⟩
  rintro ⟨id, conn, hconn, hlive, -⟩
  have hconns : ([(5, .delete 1 (hysteriaConn 7 0) none)].foldl World.apiCall
      hysteriaWorld).mem.connections = (AList.insert 1 (hysteriaConn 7 0) ∅).modify 1
        (fun conn => { conn with isDeleted := true, modifiedAt := 5 }) := rfl
  rw [hconns, AList.lookup_modify, AList.lookup_insert_eq_ite] at hconn
  split at hconn <;> cases hconn
  cases hlive

end Auth

end Fcore
