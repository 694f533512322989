import Fcore.Lib.Run
import Fcore.Postgres.Db

/-!
# Loading the cache

The cache is rebuilt from the tables at start-up and then from time to time. Nodes
come with their inbounds, connections with the columns that only the api knows, and
subscriptions without the deleted ones. One connection row that lacks the key
material of its protocol stops the whole load.

What is cached beside a connection is collected in `Sides`: its label, its pin, the
mark of a share child, and the exclusion from the main feed. A load gives each
connection the sides of its row.
-/

namespace Fcore

def required {α : Type*} (message : String) : Option α → Except String α
  | some a => .ok a
  | none => .error message

/-- The protocol that the columns of a row stand for. Only the tag and the key material are
stored. -/
def Proto.ofColumns (tag : Tag) (wg : Option WgParam) (password : Option String)
    (token : Option Uuid) : Except String Proto :=
  match tag with
  | .amneziaWg => (required "Missing Wireguard param" wg).map .amneziaWg
  | .amneziaWgMobile => (required "Missing Wireguard param" wg).map .amneziaWgMobile
  | .wireguard => (required "Missing Wireguard param" wg).map .wireguard
  | .shadowsocks => (required "Missing Shadowsocks password" password).map .shadowsocks
  | .hysteria2 => (required "Missing Hysteria2 token" token).map .hysteria2
  | tag => .ok (.xray tag)

namespace ConnRow

def loadProto (row : ConnRow) : Except String Proto :=
  Proto.ofColumns row.proto.proto row.proto.wg row.proto.password row.proto.token

def toConn (lower : String → String) (row : ConnRow) : Except String Conn :=
  row.loadProto.map fun proto =>
    { env := Env.ofStored lower row.env
      proto := proto
      subscriptionId := row.subscriptionId
      createdAt := row.createdAt
      modifiedAt := row.modifiedAt
      expiresAt := row.expiresAt
      isDeleted := row.isDeleted }

theorem toConn_ok {lower : String → String} {row : ConnRow} {conn : Conn}
    (h : row.toConn lower = .ok conn) :
    conn.isDeleted = row.isDeleted ∧ conn.modifiedAt = row.modifiedAt ∧
      row.loadProto = .ok conn.proto := by
  unfold toConn at h
  cases hproto : row.loadProto with
  | error e =>
    rw [hproto] at h
    cases h
  | ok proto =>
    rw [hproto] at h
    cases h
    exact ⟨rfl, rfl, rfl⟩

end ConnRow

def SubscriptionRow.toSubscription (lower : String → String) (id : Uuid) (row : SubscriptionRow) :
    Subscription where
  id := id
  expiresAt := row.expiresAt
  referCode := row.referCode
  createdAt := row.createdAt
  updatedAt := row.updatedAt
  isDeleted := row.isDeleted
  parentId := row.parentId
  scopeEnv := row.scopeEnv.bind fun s => if s = "" then none else some (Env.ofStored lower s)
  premiumToken := row.premiumToken
  premiumUntil := row.premiumUntil
  planKind := row.planKind
  serverLimit := row.serverLimit
  userLimit := row.userLimit
  limitBytes := row.limitBytes
  product := row.product

def ipv4Only (ips : List IpAddr) : List Ipv4Addr :=
  ips.filterMap fun ip => match ip with
    | .v4 ip => some ip
    | .v6 _ => none

namespace InboundRow

/-- The settings of an interface are there if all its columns are; its port is the one of
the inbound. -/
def loadWg (row : InboundRow) : Option WireguardSettings := do
  let privkey ← row.wgPrivkey
  let interface ← row.wgInterface
  let address ← row.wgAddress
  let dns ← row.dns
  return {
    keys := ⟨privkey⟩
    interface := interface
    address := address
    port := row.port.toUInt32.toUInt16
    dns := ipv4Only dns
    keepalive := row.keepalive.map fun k => k.toUInt32.toUInt16 }

def loadAwg (row : InboundRow) : Option AmneziaWgSettings := do
  let privateKey ← row.awgPrivkey
  let interface ← row.awgInterface
  let address ← row.awgAddress
  let dns ← row.awgDns
  return {
    interface := {
      interface := interface
      address := address
      listenPort := row.port.toUInt32.toUInt16
      mtu := row.awgMtu.map Int16.toUInt16
      privateKey := ⟨privateKey⟩
      dns := ipv4Only dns }
    obfuscation := row.awgObfuscation
    keepalive := row.keepalive.map fun k => k.toUInt32.toUInt16 }

def toInbound (tag : Tag) (row : InboundRow) : Inbound where
  tag := tag
  port := row.port.toUInt32.toUInt16
  streamSettings := row.streamSettings
  wg := row.loadWg
  awg := row.loadAwg
  h2 := row.h2
  mtprotoSecret := row.mtprotoSecret

end InboundRow

def NodeRow.toNode (lower : String → String) (id : Uuid) (inbounds : Table Tag Inbound)
    (row : NodeRow) : Node where
  uuid := id
  env := Env.ofStored lower row.env
  hostname := row.hostname
  address := row.address
  status := row.status
  label := row.label
  interface := row.interface
  createdAt := row.createdAt
  modifiedAt := row.modifiedAt
  inbounds := inbounds
  cores := row.cores
  maxBandwidthBps := row.maxBandwidthBps
  country := row.country
  type := row.nodeType
  cluster := row.cluster
  nodeIps := row.nodeIps
  pool := row.pool
  poolTranslation := row.poolTranslation
  nodeWeights := row.nodeWeights

/-- The value of `issued_via` that marks a share child. -/
def issuedViaShare : String := "share"

namespace Db

def inboundsOf (nodeId : Uuid) (db : Db) : Table Tag Inbound :=
  (db.inbounds.entries.filter fun e => decide (e.1.1 = nodeId)).foldl
    (fun acc e => AList.insert e.1.2 (e.2.toInbound e.1.2) acc) ∅

def allNodes (lower : String → String) (db : Db) : List Node :=
  db.nodes.entries.map fun e => e.2.toNode lower e.1 (db.inboundsOf e.1)

def allConnections (db : Db) : List (Uuid × ConnRow) :=
  db.connections.entries.map fun e => (e.1, e.2)

def allSubscriptions (lower : String → String) (db : Db) : List Subscription :=
  (db.subscriptions.entries.filter fun e => !e.2.isDeleted).map fun e =>
    e.2.toSubscription lower e.1

end Db

namespace Cache

def loadNode (mem : Cache) (node : Node) : Cache :=
  { mem with nodes := (mem.nodes.add node).1 }

def loadConn (lower : String → String) (mem : Cache) (item : Uuid × ConnRow) :
    Except String Cache :=
  (item.2.toConn lower).map fun conn =>
    { mem with
      connLabels := mem.connLabels.insertSome item.1 item.2.label
      connNodes := mem.connNodes.insertSome item.1 item.2.nodeId
      shareConns :=
        if item.2.issuedVia = some issuedViaShare then mem.shareConns.insert item.1
        else mem.shareConns
      mainFeedExcludedConns :=
        if item.2.includeInMain then mem.mainFeedExcludedConns
        else mem.mainFeedExcludedConns.insert item.1
      connections := match mem.connections.lookup item.1 with
        | some _ => mem.connections
        | none => AList.insert item.1 conn mem.connections }

def loadSubscription (mem : Cache) (sub : Subscription) : Cache :=
  { mem with subscriptions := (mem.subscriptions.add sub).1 }

def loadConns (lower : String → String) : List (Uuid × ConnRow) → Cache → Except String Cache
  | [], mem => .ok mem
  | item :: items, mem =>
    match mem.loadConn lower item with
    | .error e => .error e
    | .ok mem => loadConns lower items mem

/-- The cache built from what the queries returned. -/
def load (lower : String → String) (nodes : List Node) (conns : List (Uuid × ConnRow))
    (subs : List Subscription) : Except String Cache :=
  (loadConns lower conns (nodes.foldl loadNode .empty)).map fun mem =>
    subs.foldl loadSubscription mem

end Cache

namespace Db

def rebuild (lower : String → String) (db : Db) : Except String Cache :=
  (Cache.load lower (db.allNodes lower) db.allConnections (db.allSubscriptions lower)).map
    fun mem => { mem with mainFeedNodes := db.privateNodeFeed }

end Db

@[ext]
structure Sides where
  label : Option String
  pin : Option Uuid
  share : Bool
  excluded : Bool
  deriving DecidableEq, Repr

namespace Sides

def bare : Sides := ⟨none, none, false, false⟩

end Sides

def Cache.sides (mem : Cache) (c : Uuid) : Sides :=
  ⟨mem.connLabels.lookup c, mem.connNodes.lookup c, decide (c ∈ mem.shareConns),
    decide (c ∈ mem.mainFeedExcludedConns)⟩

def ConnRow.sides (row : ConnRow) : Sides :=
  ⟨row.label, row.nodeId, decide (row.issuedVia = some issuedViaShare), !row.includeInMain⟩

namespace Cache

variable {mem : Cache}

section Load

variable {lower : String → String}

theorem loadConn_ok {mem' : Cache} {item : Uuid × ConnRow}
    (h : mem.loadConn lower item = .ok mem') :
    ∃ conn, item.2.toConn lower = .ok conn ∧
      (mem.connections.lookup item.1 = none → mem.sides item.1 = Sides.bare →
        mem'.connections.lookup item.1 = some conn ∧ mem'.sides item.1 = item.2.sides) ∧
      ∀ c, c ≠ item.1 →
        mem'.connections.lookup c = mem.connections.lookup c ∧ mem'.sides c = mem.sides c := by
  unfold loadConn at h
  cases hconn : item.2.toConn lower with
  | error e =>
    rw [hconn] at h
    cases h
  | ok conn =>
    rw [hconn] at h
    cases h
    refine ⟨conn, rfl, fun hnew hbare => ⟨by simp [hnew], ?_⟩, fun c hc => ⟨?_, ?_⟩⟩
    · simp only [sides, Sides.bare, Sides.mk.injEq, decide_eq_false_iff_not] at hbare
      obtain ⟨hlabel, hpin, hshare, hexcluded⟩ := hbare
      ext1
      · simp [sides, ConnRow.sides, AList.lookup_insertSome, hlabel]
      · simp [sides, ConnRow.sides, AList.lookup_insertSome, hpin]
      · by_cases hvia : item.2.issuedVia = some issuedViaShare <;>
          simp [sides, ConnRow.sides, hvia, hshare]
      · cases hmain : item.2.includeInMain <;>
          simp [sides, ConnRow.sides, hmain, hexcluded]
    · split
      · rfl
      · exact AList.lookup_insert_ne hc
    · ext1
      · simp [sides, AList.lookup_insertSome, hc]
      · simp [sides, AList.lookup_insertSome, hc]
      · by_cases hvia : item.2.issuedVia = some issuedViaShare <;> simp [sides, hvia, hc]
      · cases item.2.includeInMain <;> simp [sides, hc]

/-- Loading rows of different connections gives each what its row says. -/
theorem loadConns_ok {items : List (Uuid × ConnRow)} (hnodup : (items.map Prod.fst).Nodup)
    {mem' : Cache} (h : loadConns lower items mem = .ok mem') (hnew : ∀ item ∈ items,
      mem.connections.lookup item.1 = none ∧ mem.sides item.1 = Sides.bare) :
    (∀ item ∈ items, ∃ conn, item.2.toConn lower = .ok conn ∧
      mem'.connections.lookup item.1 = some conn ∧ mem'.sides item.1 = item.2.sides) ∧
    ∀ c, (∀ item ∈ items, item.1 ≠ c) →
      mem'.connections.lookup c = mem.connections.lookup c ∧ mem'.sides c = mem.sides c := by
  induction items generalizing mem with
  | nil =>
    cases h
    simp
  | cons item items ih =>
    rw [loadConns] at h
    cases hload : mem.loadConn lower item with
    | error e =>
      rw [hload] at h
      cases h
    | ok mem₁ =>
      rw [hload] at h
      rw [List.map_cons, List.nodup_cons] at hnodup
      obtain ⟨conn, hconn, hself, hother⟩ := loadConn_ok hload
      have hne : ∀ item' ∈ items, item'.1 ≠ item.1 := by
        intro item' hitem' heq
        exact hnodup.1 (heq ▸ List.mem_map_of_mem hitem')
      obtain ⟨hitems, hrest⟩ := ih hnodup.2 h fun item' hitem' => by
        obtain ⟨hconn', hsides'⟩ := hother item'.1 (hne item' hitem')
        rw [hconn', hsides']
        exact hnew item' (List.mem_cons_of_mem item hitem')
      refine ⟨fun item' hitem' => ?_, fun c hc => ?_⟩
      · rcases List.mem_cons.mp hitem' with rfl | hitem'
        · obtain ⟨hlookup, hsides⟩ := hself (hnew item' (by simp)).1 (hnew item' (by simp)).2
          obtain ⟨hlookup', hsides'⟩ := hrest item'.1 hne
          exact ⟨conn, hconn, hlookup'.trans hlookup, hsides'.trans hsides⟩
        · exact hitems item' hitem'
      · obtain ⟨hlookup, hsides⟩ := hother c (hc item (by simp)).symm
        obtain ⟨hlookup', hsides'⟩ :=
          hrest c fun item' hitem' => hc item' (List.mem_cons_of_mem item hitem')
        exact ⟨hlookup'.trans hlookup, hsides'.trans hsides⟩

theorem foldl_loadNode (nodes : List Node) (mem : Cache) :
    nodes.foldl loadNode mem = { mem with nodes := (nodes.foldl loadNode mem).nodes } :=
  Run.invariant_foldl (I := fun mem' : Cache => mem' = { mem with nodes := mem'.nodes }) rfl
    fun mem' node _ hmem' => by
      unfold loadNode
      rw [hmem']

theorem foldl_loadSubscription (subs : List Subscription) (mem : Cache) :
    subs.foldl loadSubscription mem =
      { mem with subscriptions := (subs.foldl loadSubscription mem).subscriptions } :=
  Run.invariant_foldl
    (I := fun mem' : Cache => mem' = { mem with subscriptions := mem'.subscriptions }) rfl
    fun mem' sub _ hmem' => by
      unfold loadSubscription
      rw [hmem']

theorem load_ok {nodes : List Node} {conns : List (Uuid × ConnRow)} {subs : List Subscription}
    (h : load lower nodes conns subs = .ok mem) :
    ∃ mem', loadConns lower conns (nodes.foldl loadNode .empty) = .ok mem' ∧
      mem = subs.foldl loadSubscription mem' := by
  unfold load at h
  cases hconns : loadConns lower conns (nodes.foldl loadNode .empty) with
  | error e =>
    rw [hconns] at h
    cases h
  | ok mem' =>
    rw [hconns] at h
    cases h
    exact ⟨mem', rfl, rfl⟩

end Load

end Cache

namespace Db

variable {lower : String → String} {db : Db} {mem : Cache}

theorem nodup_allConnections (db : Db) : (db.allConnections.map Prod.fst).Nodup := by
  have hkeys : db.allConnections.map Prod.fst = db.connections.entries.keys := by
    rw [allConnections, List.map_map]
    rfl
  rw [hkeys]
  exact db.connections.nodupKeys

variable {c : Uuid}

theorem mem_allConnections {row : ConnRow} :
    (c, row) ∈ db.allConnections ↔ db.connections.lookup c = some row := by
  rw [← AList.mem_entries_iff, allConnections, List.mem_map]
  constructor
  · rintro ⟨e, he, heq⟩
    cases heq
    exact he
  · intro he
    exact ⟨_, he, rfl⟩

/-- A rebuilt cache is made of the loaded connections, with nodes and subscriptions
added around them. -/
theorem rebuild_ok (h : db.rebuild lower = .ok mem) :
    ∃ mem', Cache.loadConns lower db.allConnections
        ((db.allNodes lower).foldl Cache.loadNode .empty) = .ok mem' ∧
      mem = { mem' with
        subscriptions :=
          ((db.allSubscriptions lower).foldl Cache.loadSubscription mem').subscriptions
        mainFeedNodes := db.privateNodeFeed } := by
  unfold rebuild at h
  cases hload : Cache.load lower (db.allNodes lower) db.allConnections
    (db.allSubscriptions lower) with
  | error e =>
    rw [hload] at h
    cases h
  | ok mem₁ =>
    rw [hload] at h
    cases h
    obtain ⟨mem', hconns, rfl⟩ := Cache.load_ok hload
    refine ⟨mem', hconns, ?_⟩
    rw [Cache.foldl_loadSubscription]

theorem rebuild_conn (h : db.rebuild lower = .ok mem) {row : ConnRow}
    (hrow : db.connections.lookup c = some row) :
    ∃ conn, row.toConn lower = .ok conn ∧ mem.connections.lookup c = some conn ∧
      mem.sides c = row.sides := by
  obtain ⟨mem', hconns, rfl⟩ := rebuild_ok h
  have hloaded := Cache.loadConns_ok (nodup_allConnections db) hconns fun item _ => by
    rw [Cache.foldl_loadNode]
    exact ⟨rfl, rfl⟩
  exact hloaded.1 (c, row) (mem_allConnections.mpr hrow)

theorem rebuild_conn_none (h : db.rebuild lower = .ok mem) (hrow : db.connections.lookup c = none) :
    mem.connections.lookup c = none ∧ mem.sides c = Sides.bare := by
  obtain ⟨mem', hconns, rfl⟩ := rebuild_ok h
  have hloaded := Cache.loadConns_ok (nodup_allConnections db) hconns fun item _ => by
    rw [Cache.foldl_loadNode]
    exact ⟨rfl, rfl⟩
  obtain ⟨hlookup, hsides⟩ := hloaded.2 c fun item hitem heq => by
    have hlookup := mem_allConnections.mp hitem
    rw [heq, hrow] at hlookup
    cases hlookup
  rw [Cache.foldl_loadNode] at hlookup hsides
  exact ⟨hlookup, hsides⟩

end Db

end Fcore
