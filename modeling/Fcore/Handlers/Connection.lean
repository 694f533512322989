import Fcore.Http.Reply
import Fcore.Lib.Except
import Fcore.Memory.Address
import Fcore.Sync.View

/-!
# Creating connections

Both ways to create a connection work in two parts. Under the read lock the request is
checked and the credentials are chosen, tunnel addresses among them; the lock is then
dropped, the connection is stored and cached, and the nodes are told. The first part is
`prepareConnection` and `premiumPrepare`, the second `createPrepared` and
`premiumCreatePrepared`.

Values the code draws at random are arguments, gathered in `Generated`.
-/

namespace Fcore

structure Generated where
  connId : Uuid
  keys : Keys
  password : String
  token : Uuid
  secret : String
  deriving DecidableEq, Repr

structure WgNetworks where
  wgNetwork : IpAddrMask
  awgNetwork : IpAddrMask
  awgMobileNetwork : Option IpAddrMask
  deriving DecidableEq, Repr

namespace WgNetworks

def ofTag (networks : WgNetworks) : Tag → Except String IpAddrMask
  | .wireguard => .ok networks.wgNetwork
  | .amneziaWg => .ok networks.awgNetwork
  | _ =>
    match networks.awgMobileNetwork with
    | some network => .ok network
    | none => .error "amnezia_wireguard_mobile_network is not configured"

end WgNetworks

namespace Node

def inbound (node : Node) (tag : Tag) : Option Inbound :=
  (node.inbounds.entries.map fun e => e.2).find? fun inbound => inbound.tag = tag

end Node

/-- Only custom environments have to be served by some node. -/
def validateEnvServed (nodes : Option (List Node)) (env : Env) (proto : Tag) :
    Except String Unit :=
  if env.isFrknShared then .ok ()
  else
    match nodes.filter fun nodes => !nodes.isEmpty with
    | none => .error ("Env not served: " ++ env.asStr ++ " has no nodes")
    | some nodes =>
      if nodes.any fun node => (node.inbound proto).isSome then .ok ()
      else .error ("Env not served: no node in " ++ env.asStr ++ " exposes " ++ proto.toText)

/-- The parameters of a new connection of the WireGuard family. -/
def newWgParam (networks : WgNetworks) (connections : Connections) (tag : Tag)
    (generated : Generated) : Except String WgParam :=
  match networks.ofTag tag with
  | .error msg => .error msg
  | .ok network =>
    match connections.nextAddr network tag with
    | .error msg => .error msg
    | .ok next => .ok ⟨generated.keys, ⟨.v4 next, 32⟩⟩

/-- The credentials of a new connection. -/
def newProto (networks : WgNetworks) (connections : Connections) (tag : Tag)
    (generated : Generated) : Except String Proto :=
  match tag with
  | .wireguard => (newWgParam networks connections .wireguard generated).map .wireguard
  | .amneziaWg => (newWgParam networks connections .amneziaWg generated).map .amneziaWg
  | .amneziaWgMobile =>
    (newWgParam networks connections .amneziaWgMobile generated).map .amneziaWgMobile
  | .shadowsocks => .ok (.shadowsocks generated.password)
  | .vlessTcpReality | .vlessGrpcReality | .vlessXhttpReality | .vlessXhttpCdn | .vmess =>
    .ok (.xray tag)
  | .hysteria2 => .ok (.hysteria2 generated.token)
  | .mtproto => .ok (.mtproto generated.secret)

variable {connections : Connections} {tag : Tag} {now : DateTime} {mem : Cache} {conn : Conn}
variable {networks : WgNetworks} {generated : Generated}

theorem newWgParam_ok {wg : WgParam} (h : newWgParam networks connections tag generated = .ok wg) :
    ∃ next, wg = ⟨generated.keys, ⟨.v4 next, 32⟩⟩ ∧ connections.AddressFree tag (.v4 next) := by
  unfold newWgParam at h
  split at h
  · cases h
  · split at h
    · cases h
    · rename_i network _ next hnext
      cases h
      exact ⟨next, rfl, Connections.addressFree_of_nextAddr hnext⟩

theorem newProto_inv {proto : Proto} (h : newProto networks connections tag generated = .ok proto) :
    proto.proto = tag ∧
      ∀ wg, proto.wg = some wg → newWgParam networks connections tag generated = .ok wg := by
  have hfamily : ∀ (mk : WgParam → Proto), (∀ wg, (mk wg).proto = tag) →
      (∀ wg, (mk wg).wg = some wg) → (newWgParam networks connections tag generated).map mk =
        .ok proto → proto.proto = tag ∧
          ∀ wg, proto.wg = some wg → newWgParam networks connections tag generated = .ok wg := by
    intro mk hmk hwg hmap
    cases hparam : newWgParam networks connections tag generated with
    | error msg =>
      rw [hparam] at hmap
      cases hmap
    | ok param =>
      rw [hparam] at hmap
      cases hmap
      refine ⟨hmk param, fun wg heq => ?_⟩
      rw [hwg] at heq
      cases heq
      rfl
  cases tag with
  | wireguard => exact hfamily .wireguard (fun _ => rfl) (fun _ => rfl) h
  | amneziaWg => exact hfamily .amneziaWg (fun _ => rfl) (fun _ => rfl) h
  | amneziaWgMobile => exact hfamily .amneziaWgMobile (fun _ => rfl) (fun _ => rfl) h
  | _ =>
    cases h
    exact ⟨rfl, fun wg hwg => by cases hwg⟩

theorem newProto_ok {proto : Proto} (h : newProto networks connections tag generated = .ok proto) :
    proto.proto = tag ∧
      ∀ wg, proto.wg = some wg → connections.AddressFree tag wg.address.address := by
  obtain ⟨htag, hparam⟩ := newProto_inv h
  refine ⟨htag, fun wg hwg => ?_⟩
  obtain ⟨next, rfl, hfree⟩ := newWgParam_ok (hparam wg hwg)
  exact hfree

/-- The arguments of `create_connection_inner`. -/
structure CreateConnection where
  env : Env
  proto : Tag
  subscriptionId : Option Uuid
  days : Option UInt16
  label : Option String
  nodeId : Option Uuid
  issuedVia : Option String
  includeInMain : Bool
  deriving DecidableEq, Repr

def expiryAfter (days : Option UInt16) (now : DateTime) : Option DateTime :=
  days.map fun d => now + d.toNat * dayNanos

/-- A named subscription has to be there and active. -/
def checkSubscription (subscriptions : Subscriptions) (subscriptionId : Option Uuid)
    (now : DateTime) : Except String Unit :=
  match subscriptionId with
  | none => .ok ()
  | some id =>
    match subscriptions.lookup id with
    | none => .error ("Subscription " ++ id.toText ++ " not found")
    | some sub =>
      if sub.isActive now then .ok () else .error ("Subscription is not active " ++ id.toText)

/-- What `create_connection_inner` does under the read lock. -/
def prepareConnection (networks : WgNetworks) (req : CreateConnection) (generated : Generated)
    (now : DateTime) (mem : Cache) : Except String Conn := do
  checkSubscription mem.subscriptions req.subscriptionId now
  validateEnvServed (mem.nodes.getByEnv req.env) req.env req.proto
  let proto ← newProto networks mem.connections req.proto generated
  return .new req.env req.subscriptionId proto (expiryAfter req.days now) now

variable {req : CreateConnection}

/-- What is prepared passed the checks and is new. -/
theorem prepareConnection_inv (h : prepareConnection networks req generated now mem = .ok conn) :
    checkSubscription mem.subscriptions req.subscriptionId now = .ok () ∧
      newProto networks mem.connections req.proto generated = .ok conn.proto ∧
      conn = .new req.env req.subscriptionId conn.proto (expiryAfter req.days now) now := by
  obtain ⟨⟨⟩, hcheck, h⟩ := exists_of_bind_ok h
  obtain ⟨-, -, h⟩ := exists_of_bind_ok h
  obtain ⟨proto, hproto, h⟩ := exists_of_bind_ok h
  cases h
  exact ⟨hcheck, hproto, rfl⟩

/-- What is prepared for a subscription is one of its connections, and only for one that
is active. -/
theorem subscriptionId_of_prepareConnection
    (h : prepareConnection networks req generated now mem = .ok conn) :
    checkSubscription mem.subscriptions req.subscriptionId now = .ok () ∧
      conn.subscriptionId = req.subscriptionId := by
  obtain ⟨hcheck, -, hconn⟩ := prepareConnection_inv h
  exact ⟨hcheck, by rw [hconn]; rfl⟩

/-- A pinned connection exists on its node only, so its creation is told to that node
and not to the environment. -/
def createTopic (conn : Conn) (nodeId : Option Uuid) : Option Topic :=
  if conn.proto.token.isSome then some .auth
  else if conn.proto.isMtproto then none
  else
    match nodeId with
    | some pin => some (.init pin)
    | none => some (.updates conn.env)

def Db.violatesUnique (connId : Uuid) (row : ConnRow) (db : Db) : Bool :=
  (db.connections.lookup connId).isSome || db.connRefused connId row

/-- The text of a failed insertion. The message of the database stays inside. -/
def createErrorText (unique : Bool) (connId : Uuid) (tag : Tag) (e : SyncError) : String :=
  if unique && decide (e = .constraint) then
    "Duplicate connection: a live " ++ tag.toText ++ " already exists for this env"
  else "Failed to create connection " ++ connId.toText

namespace World

def tell (topic : Option Topic) (message : Message) (w : World) : World :=
  match topic with
  | some topic => (w.publish topic message).1
  | none => w

/-- What `create_connection_inner` does after the read lock was dropped. -/
def createPrepared (req : CreateConnection) (connId : Uuid) (conn : Conn) (w : World) :
    World × Except String (Uuid × Conn) :=
  let unique := w.db.violatesUnique connId { ConnRow.ofConn conn with issuedVia := req.issuedVia }
  match w.addConn connId conn req.label req.nodeId req.issuedVia req.includeInMain with
  | (w, .ok (.ok id)) =>
    (w.tell (createTopic conn req.nodeId) (conn.asCreateMessage connId), .ok (id, conn))
  | (w, .ok (.alreadyExist id)) => (w, .ok (id, conn))
  | (w, .ok _) => (w, .error "Unsupported operation status")
  | (w, .error e) => (w, .error (createErrorText unique connId req.proto e))

def createConnectionInner (networks : WgNetworks) (req : CreateConnection)
    (generated : Generated) (now : DateTime) (w : World) : World × Except String (Uuid × Conn) :=
  match prepareConnection networks req generated now w.mem with
  | .error msg => (w, .error msg)
  | .ok conn => w.createPrepared req generated.connId conn

end World

namespace World

/-- Telling about a connection writes to the bus, or nothing. -/
theorem tell_eq (topic : Option Topic) (message : Message) (w : World) :
    ∃ bus calls, w.tell topic message = { w with bus := bus, calls := calls } ∧
      ∀ e ∈ bus, e ∈ w.bus ∨ topic = some e.1 ∧ e.2 = message := by
  unfold tell
  split
  · unfold publish
    split
    · exact ⟨w.bus, _, rfl, fun _ he => .inl he⟩
    · refine ⟨w.bus ++ [_], _, rfl, fun e he => ?_⟩
      rcases List.mem_append.mp he with he | he
      · exact .inl he
      · cases List.mem_singleton.mp he
        exact .inr ⟨rfl, rfl⟩
  · exact ⟨w.bus, w.calls, rfl, fun _ he => .inl he⟩

section Outcomes

variable (networks : WgNetworks) (req : CreateConnection) (generated : Generated) (now : DateTime)
  (w : World)

/-- A call to create a connection fails and leaves tables, cache and bus alone, or stores
and caches what was prepared, and may tell about it. -/
theorem createConnectionInner_eq :
    (∃ msg calls, w.createConnectionInner networks req generated now =
      ({ w with calls := calls }, .error msg)) ∨
    ∃ conn db bus calls, prepareConnection networks req generated now w.mem = .ok conn ∧
      w.db.insertConnection generated.connId
        (newRow conn req.label req.nodeId req.issuedVia req.includeInMain) = .ok (db, ()) ∧
      (∀ e ∈ bus, e ∈ w.bus ∨
        createTopic conn req.nodeId = some e.1 ∧ e.2 = conn.asCreateMessage generated.connId) ∧
      w.createConnectionInner networks req generated now =
        ({ w with
          mem := w.mem.addConn generated.connId conn req.label req.nodeId req.includeInMain
          db := db
          bus := bus
          calls := calls }, .ok (generated.connId, conn)) := by
  unfold createConnectionInner
  cases hprepare : prepareConnection networks req generated now w.mem with
  | error msg => exact .inl ⟨msg, w.calls, rfl⟩
  | ok conn =>
    dsimp only
    unfold createPrepared
    rcases addConn_eq generated.connId conn w req.label req.nodeId req.issuedVia
      req.includeInMain with ⟨e, h⟩ | ⟨db, hinsert, h⟩
    · rw [h]
      exact .inl ⟨_, _, rfl⟩
    · rw [h]
      obtain ⟨bus, calls, htell, hbus⟩ := tell_eq (createTopic conn req.nodeId)
        (conn.asCreateMessage generated.connId) _
      dsimp only
      rw [htell]
      exact .inr ⟨conn, db, bus, calls, rfl, hinsert, hbus, rfl⟩

/-- In terms of views: a failure changes none, and a success adds one that was not stored. -/
theorem view_createConnectionInner :
    ((∃ msg, (w.createConnectionInner networks req generated now).2 = .error msg) ∧
      ∀ c, (w.createConnectionInner networks req generated now).1.view c = w.view c) ∨
    ∃ conn, prepareConnection networks req generated now w.mem = .ok conn ∧
      (w.createConnectionInner networks req generated now).2 = .ok (generated.connId, conn) ∧
      (w.view generated.connId).row = none ∧
      ∀ c, (w.createConnectionInner networks req generated now).1.view c =
        if c = generated.connId then
          (w.view c).added conn (newRow conn req.label req.nodeId req.issuedVia req.includeInMain)
        else w.view c := by
  rcases createConnectionInner_eq networks req generated now w with
    ⟨msg, calls, h⟩ | ⟨conn, db, bus, calls, hprepare, hinsert, -, h⟩ <;> rw [h]
  · exact .inl ⟨⟨msg, rfl⟩, fun _ => rfl⟩
  · obtain ⟨hnew, rfl⟩ := insertConnection_cases hinsert
    exact .inr ⟨conn, hprepare, rfl, hnew, view_of_added rfl rfl⟩

end Outcomes

/-- With a reliable database, a creation of what was prepared succeeds exactly if the
insertion does. -/
theorem createConnectionInner_ok_iff {networks : WgNetworks} {req : CreateConnection}
    {generated : Generated} {now : DateTime} {w : World} {conn : Conn} (hw : w.DbReliable)
    (hprepare : prepareConnection networks req generated now w.mem = .ok conn) :
    (∃ made, (w.createConnectionInner networks req generated now).2 = .ok made) ↔
      ∃ db, w.db.insertConnection generated.connId
        (newRow conn req.label req.nodeId req.issuedVia req.includeInMain) = .ok (db, ()) := by
  constructor
  · rintro ⟨made, hmade⟩
    rcases createConnectionInner_eq networks req generated now w with
      ⟨msg, calls, h⟩ | ⟨conn', db, bus, calls, hprepare', hinsert, -, -⟩
    · rw [h] at hmade
      cases hmade
    · cases hprepare.symm.trans hprepare'
      exact ⟨db, hinsert⟩
  · rintro ⟨db, hinsert⟩
    unfold createConnectionInner createPrepared addConn
    rw [hprepare]
    dsimp only
    rw [← newRow, dbCall_of_ok (hw w.calls) hinsert]
    exact ⟨_, rfl⟩

end World

structure PremiumConnectionCreateRequest where
  env : Env
  proto : Tag
  days : Option UInt16
  deriving DecidableEq, Repr

def ensureScope (parent : Subscription) (env : Env) : Except String Unit :=
  match parent.scopeEnv with
  | some scope => if scope = env then .ok () else .error "Env out of scope"
  | none => .ok ()

def ensureChildOf (parent child : Subscription) : Except String Unit :=
  if child.parentId = some parent.id then .ok () else .error "Forbidden"

inductive Refusal where
  | rejected (message : String)
  | answered (reply : Reply)
  deriving DecidableEq, Repr

/-- The child has to be there, to be one of the parent's, and to be active. -/
def activeChild (subscriptions : Subscriptions) (parent : Subscription) (childId : Uuid)
    (now : DateTime) : Except String Subscription :=
  match subscriptions.lookup childId with
  | none => .error "Child not found"
  | some child =>
    match ensureChildOf parent child with
    | .error msg => .error msg
    | .ok () =>
      if child.isActive now then .ok child else .error "Child subscription is not active"

/-- What `premium_create_connection_handler` does under the read lock. -/
def premiumPrepare (networks : WgNetworks) (parent : Subscription) (childId : Uuid)
    (req : PremiumConnectionCreateRequest) (generated : Generated) (now : DateTime) (mem : Cache) :
    Except Refusal Conn := do
  (ensureScope parent req.env).mapError .rejected
  let _ ← (activeChild mem.subscriptions parent childId now).mapError .rejected
  let proto ← (newProto networks mem.connections req.proto generated).mapError fun msg =>
    .answered (.internalError msg)
  return .new req.env (some childId) proto (expiryAfter req.days now) now

theorem premiumPrepare_ok {parent : Subscription} {childId : Uuid}
    {req : PremiumConnectionCreateRequest}
    (h : premiumPrepare networks parent childId req generated now mem = .ok conn) :
    newProto networks mem.connections req.proto generated = .ok conn.proto ∧
      conn.isDeleted = false := by
  obtain ⟨-, -, h⟩ := exists_of_bind_ok h
  obtain ⟨-, -, h⟩ := exists_of_bind_ok h
  obtain ⟨proto, hproto, h⟩ := exists_of_bind_ok h
  cases h
  cases hnew : newProto networks mem.connections req.proto generated with
  | error msg =>
    rw [hnew] at hproto
    cases hproto
  | ok _ =>
    rw [hnew] at hproto
    cases hproto
    exact ⟨rfl, rfl⟩

namespace World

/-- What `premium_create_connection_handler` does after the read lock was dropped. The
text of the internal error is that of the failure. -/
def premiumCreatePrepared (errorText : SyncError → String) (connId : Uuid) (conn : Conn)
    (w : World) : World × Except Refusal Uuid :=
  match w.addConn connId conn none none none true with
  | (w, .ok (.ok id)) | (w, .ok (.alreadyExist id)) =>
    (w.tell (createTopic conn none) (conn.asCreateMessage connId), .ok id)
  | (w, .ok _) => (w, .error (.answered (.badRequest "Unsupported operation status")))
  | (w, .error e) =>
    (w, .error (.answered (.internalError
      ("Internal error while processing connection " ++ connId.toText ++ ": " ++ errorText e))))

/-- The result is the identifier of the connection, answered with status 201. -/
def premiumCreateConnectionHandler (networks : WgNetworks) (errorText : SyncError → String)
    (parent : Subscription) (childId : Uuid) (req : PremiumConnectionCreateRequest)
    (generated : Generated) (now : DateTime) (w : World) : World × Except Refusal Uuid :=
  match premiumPrepare networks parent childId req generated now w.mem with
  | .error refusal => (w, .error refusal)
  | .ok conn => w.premiumCreatePrepared errorText generated.connId conn

end World

end Fcore
