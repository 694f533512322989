import Fcore.Handlers.Amnezia.Config
import Fcore.Handlers.Amnezia.Holders
import Fcore.Handlers.ShareFeed.Access
import Fcore.Memory.Registry

/-!
# The services of a subscription

The application gets all its servers in one service: the cards of VLESS and of the WireGuard
family, and those of Hysteria2 unless the subscription lives on its traffic balance and
Hysteria2 is not metered. The configuration of a card is then asked for by its connection and
its node.

In traffic mode the configuration is refused to every protocol that is not metered, while
the list leaves out Hysteria2 alone. So what is listed can be served exactly if access is
full or the protocol is metered (`listed_selected_iff`).
-/

namespace Fcore

structure GatewayServicesRequest where
  authData : Option Json
  poolOff : Bool

structure GatewayLabels where
  price : String
  speed : String

structure GatewayServiceInfo where
  name : String
  price : String
  speed : String
  timelimit : String
  region : String

structure GatewayServiceDescription where
  description : String
  cardDescription : String
  features : String

structure GatewayCountry where
  countryCode : String
  countryName : String
  connectionUuid : Option Uuid
  connectionLabel : String
  pool : Option String
  poolTranslation : Option (Table String String)

structure GatewayService where
  serviceType : String
  serviceProtocol : String
  serviceInfo : GatewayServiceInfo
  serviceDescription : GatewayServiceDescription
  availableCountries : List GatewayCountry
  connections : List GatewayConnection
  storeEndpoint : String
  isAvailable : Bool
  endDate : Option String

structure GatewayServicesResponse where
  userCountryCode : Option String
  services : List GatewayService

/-- The first card of each country. -/
def availableCountriesFromConnections (conns : List GatewayConnection) : List GatewayCountry :=
  conns.foldl (fun countries conn =>
    if countries.any fun country => country.countryCode = conn.countryCode then countries
    else countries ++ [⟨conn.countryCode, conn.countryName, some conn.connectionUuid,
      conn.connectionLabel, conn.pool, conn.poolTranslation⟩]) []

def extractSubscriptionId (parseUuid : String → Option Uuid) (authData : Json) : Option Uuid :=
  ((authData.get "id").bind Json.asStr).bind parseUuid

/-- The connections a list is made for: the child of a shared subscription, or the own
connections of the main feed. -/
def servicesConns (mem : Cache) (shareRow : Option ShareTokenRow) (subId : Option Uuid) :
    Option (List (Uuid × Conn)) :=
  match shareRow with
  | some row => ((mem.connections.lookup row.connectionId).filter fun conn => !conn.isDeleted).map
      fun conn => [(row.connectionId, conn)]
  | none => (subId.bind mem.connections.getBySubscriptionId).map fun conns =>
    conns.filter fun c => !mem.shareConns.contains c.1 &&
      mainFeedConnectionVisible mem.mainFeedExcludedConns c.1 true

/-- The protocols of the list, in its order. -/
def servicesProtocols (trafficMode : Bool) (meteredConns : List String) : List String :=
  ["vless", "awg"] ++
    (if !trafficMode || Tag.hysteria2.isMetered meteredConns then ["hysteria2"] else []) ++
    ["awg-mobile", "wireguard"]

def servicesCards (b : GatewayBackend) (mem : Cache) (conns : Option (List (Uuid × Conn)))
    (poolOff trafficMode : Bool) (meteredConns : List String) : List GatewayConnection :=
  (servicesProtocols trafficMode meteredConns).flatMap fun protocol =>
    connectionsForProtocol b mem.nodes mem.connNodes mem.connLabels protocol conns !poolOff

def servicesResponse (labels : GatewayLabels) (connections : List GatewayConnection)
    (endDate : Option String) : GatewayServicesResponse where
  userCountryCode := none
  services := [{
    serviceType := "amnezia-premium"
    serviceProtocol := "vless"
    serviceInfo := ⟨"FRKN Premium", labels.price, labels.speed, "0", "World"⟩
    serviceDescription := ⟨"Privacy is our Religion", "FRKN Premium — обход блокировок",
      "No logs, unlimited traffic, VLESS and AmneziaWG protocols"⟩
    availableCountries := availableCountriesFromConnections connections
    connections := connections
    storeEndpoint := "https://frkn.org"
    isAvailable := true
    endDate := endDate }]

namespace World

/-- The row of the share token of a request. Only a shared subscription may ask for a
list. -/
def servicesShareRow (authData : Option Json) (w : World) :
    World × Except GatewayError (Option ShareTokenRow) :=
  match (authData.bind (Json.get "share_token")).bind Json.asStr with
  | none => (w, .ok none)
  | some raw =>
    match normalizeShareToken raw with
    | none => (w, .error (.reply shareNotFound))
    | some token =>
      match w.dbRead (Db.shareToken token) with
      | (w, .error _) => (w, .error (.reply (.internalError "share lookup failed")))
      | (w, .ok none) => (w, .error (.reply shareNotFound))
      | (w, .ok (some row)) =>
        if row.revokedAt.isSome then (w, .error (.reply shareNotFound))
        else if row.kind ≠ shareKindSub then
          (w, .error (.reply (.forbidden "share_token is only valid for /v1/config")))
        else (w, .ok (some row))

section Handler

variable (b : ConfigBackend) (parseUuid : String → Option Uuid) (req : GatewayServicesRequest)
  (labels : GatewayLabels) (trafficModeEnabled : Bool) (meteredConns : List String)
  (now : DateTime)

omit b labels trafficModeEnabled meteredConns now in
def servicesSubId (shareRow : Option ShareTokenRow) : Option Uuid :=
  match shareRow with
  | some row => some row.subscriptionId
  | none => req.authData.bind (extractSubscriptionId parseUuid)

omit now in
/-- The list of one access. -/
def serveServices (shareRow : Option ShareTokenRow) (trafficMode : Bool) (mem : Cache) :
    GatewayServicesResponse :=
  let subId := servicesSubId parseUuid req shareRow
  let sub := subId.bind fun id => mem.subscriptions.lookup id
  servicesResponse labels (servicesCards b.toGatewayBackend mem
    (servicesConns mem shareRow subId) req.poolOff trafficMode meteredConns)
      ((sub.bind Subscription.expiresAt).map b.rfc3339)

def gatewayServicesHandler (w : World) : World × Except GatewayError GatewayServicesResponse :=
  match w.servicesShareRow req.authData with
  | (w, .error e) => (w, .error e)
  | (w, .ok shareRow) =>
    let serve := serveServices b parseUuid req labels meteredConns shareRow
    match (servicesSubId parseUuid req shareRow).bind fun id =>
        (w.mem.subscriptions.lookup id).map fun sub => (id, sub) with
    | none => (w, .ok (serve false w.mem))
    | some (subId, sub) =>
      match w.resolveServingAccess subId (servingAccess sub trafficModeEnabled now) with
      | (w, .trafficMode) => (w, .ok (serve true w.mem))
      | (w, .full) => (w, .ok (serve false w.mem))
      | (w, _) => (w, .error (subscriptionExpiredResponse b sub.expiresAt))

/-- A card of a connection on a node stands in the answer for a subscription. -/
structure Listed (w : World) (shareRow : Option ShareTokenRow) (subId : Uuid)
    (response : GatewayServicesResponse) (card : GatewayConnection) : Prop where
  row : (w.servicesShareRow req.authData).2 = .ok shareRow
  subscription : servicesSubId parseUuid req shareRow = some subId
  answered : (w.gatewayServicesHandler b parseUuid req labels trafficModeEnabled meteredConns
    now).2 = .ok response
  listed : ∃ service ∈ response.services, card ∈ service.connections
  offers : card ≠ allCountriesCard

end Handler

section Selected

variable {b : ConfigBackend} {parseUuid : String → Option Uuid} {req : GatewayServicesRequest}
  {labels : GatewayLabels} {trafficModeEnabled : Bool} {meteredConns : List String}
  {now : DateTime} {w w' : World} {shareRow : Option ShareTokenRow} {subId : Uuid}
  {response : GatewayServicesResponse} {card : GatewayConnection}

theorem servicesShareRow_mem (authData : Option Json) (w : World) :
    (w.servicesShareRow authData).1.mem = w.mem := by
  unfold servicesShareRow
  split
  · rfl
  · split
    · rfl
    · rename_i token _
      rcases dbRead_eq (Db.shareToken token) w with h | h
      · rw [h]
        cases w.db.shareToken token with
        | none => rfl
        | some row =>
          dsimp only
          split
          · rfl
          · split
            · rfl
            · rfl
      · rw [h]
        rfl

/-- The list is that of the access of the subscription, and of full access where the
subscription is not known. -/
theorem Listed.response_eq (h : Listed b parseUuid req labels trafficModeEnabled meteredConns now w
    shareRow subId response card) : ∃ trafficMode,
    response = serveServices b parseUuid req labels meteredConns shareRow trafficMode w.mem ∧
    ∀ sub, w.mem.subscriptions.lookup subId = some sub →
      ((w.servicesShareRow req.authData).1.resolveServingAccess subId
        (servingAccess sub trafficModeEnabled now)).2 =
        if trafficMode then .trafficMode else .full := by
  have hanswered := h.answered
  have hrow := h.row
  have hmem := servicesShareRow_mem req.authData w
  unfold gatewayServicesHandler at hanswered
  cases hread : w.servicesShareRow req.authData with
  | mk w₁ result =>
    rw [hread] at hanswered hrow hmem
    obtain rfl : result = .ok shareRow := hrow
    simp only [h.subscription, Option.bind_some] at hanswered
    rw [← hmem]
    cases hsub : w₁.mem.subscriptions.lookup subId with
    | none =>
      rw [hsub] at hanswered
      refine ⟨false, (Except.ok.inj hanswered).symm, fun sub hcached => ?_⟩
      cases hcached
    | some sub =>
      rw [hsub, Option.map_some] at hanswered
      simp only [Option.some_inj, forall_eq']
      have hmem' := resolveServingAccess_mem subId (servingAccess sub trafficModeEnabled now) w₁
      cases haccess : w₁.resolveServingAccess subId
          (servingAccess sub trafficModeEnabled now) with
      | mk w₂ access =>
        rw [haccess] at hmem'
        simp only [haccess] at hanswered
        cases access with
        | trafficMode => exact ⟨true, by rw [← hmem', ← Except.ok.inj hanswered], rfl⟩
        | full => exact ⟨false, by rw [← hmem', ← Except.ok.inj hanswered], rfl⟩
        | expired => cases hanswered
        | checkBalance limit => cases hanswered

theorem Listed.offered (h : Listed b parseUuid req labels trafficModeEnabled meteredConns now w
    shareRow subId response card) : ∃ protocol node conn,
    Offered w.mem.nodes w.mem.connNodes protocol (servicesConns w.mem shareRow (some subId)) node
      card.connectionUuid conn ∧ node.uuid = card.nodeId := by
  obtain ⟨trafficMode, rfl, -⟩ := h.response_eq
  obtain ⟨service, hservice, hcard⟩ := h.listed
  obtain rfl := List.mem_singleton.mp hservice
  obtain ⟨protocol, -, hcard⟩ := List.mem_flatMap.mp hcard
  rw [h.subscription] at hcard
  refine ⟨protocol, ?_⟩
  rcases mem_connectionsForProtocol hcard with hall | ⟨node, connId, conn, hoffer, rfl⟩ |
    ⟨-, ⟨connId, tag, pool⟩, old, ⟨node, conn, hoffer, -, -, rfl⟩, rfl⟩
  · exact absurd hall h.offers
  · exact ⟨node, conn, hoffer, rfl⟩
  · refine ⟨node, conn, ?_, ?_⟩
    · rw [connectionUuid_fillPoolCard]
      exact hoffer
    · rw [nodeId_fillPoolCard]
      rfl

theorem lookup_of_mem_servicesConns {mem : Cache} {connId : Uuid} {conn : Conn}
    {subId : Option Uuid} (h : (connId, conn) ∈ (servicesConns mem shareRow subId).getD []) :
    mem.connections.lookup connId = some conn := by
  cases shareRow with
  | some row =>
    simp only [servicesConns] at h
    cases hkept : (mem.connections.lookup row.connectionId).filter fun conn =>
        !conn.isDeleted with
    | none => simp [hkept] at h
    | some child =>
      obtain ⟨rfl, rfl⟩ : connId = row.connectionId ∧ conn = child := by simpa [hkept] using h
      exact (Option.filter_eq_some_iff.mp hkept).1
  | none =>
    simp only [servicesConns] at h
    cases subId with
    | none => simp at h
    | some subId =>
      cases hconns : mem.connections.getBySubscriptionId subId with
      | none => simp [hconns] at h
      | some conns =>
        simp only [Option.bind_some, hconns, Option.map_some, Option.getD_some] at h
        have hmem : (connId, conn) ∈ (mem.connections.getBySubscriptionId subId).getD [] := by
          rw [hconns]
          exact List.mem_of_mem_filter h
        exact (Connections.mem_getBySubscriptionId.mp hmem).1

theorem configSelection_eq {params : GatewayConfigParams} {sub : Subscription}
    {trafficMode : Bool} (hsub : w.mem.subscriptions.lookup subId = some sub)
    (haccess : (w.resolveServingAccess subId (servingAccess sub trafficModeEnabled now)).2 =
      if trafficMode then .trafficMode else .full) :
    w.configSelection b subId params trafficModeEnabled meteredConns now =
      foundConfig b w.mem params subId trafficMode meteredConns := by
  have hmem := resolveServingAccess_mem subId (servingAccess sub trafficModeEnabled now) w
  unfold configSelection
  rw [hsub]
  cases hresult : w.resolveServingAccess subId (servingAccess sub trafficModeEnabled now) with
  | mk w₁ access =>
    rw [hresult] at hmem haccess
    simp only at hmem haccess ⊢
    subst haccess
    cases trafficMode with
    | true => simp [hmem, hresult]
    | false => simp [hmem, hresult]

/-- A request for the configuration of a card, in whatever country. -/
structure AsksFor (params : GatewayConfigParams) (card : GatewayConnection) : Prop where
  connection : params.connectionId = some card.connectionUuid
  node : params.nodeId = some card.nodeId
  userCountry : params.userCountryCode = none
  serverCountry : params.serverCountryCode = none

section Asked

variable {params : GatewayConfigParams} {trafficMode : Bool} {mem : Cache} {conn : Conn}
  {node : Node}

/-- What is offered on a node suits the request for its card, if traffic mode allows it. -/
theorem AsksFor.suits (hasks : AsksFor params card) (hfiled : mem.nodes.Filed) {protocol : String}
    {conns : Option (List (Uuid × Conn))}
    (hoffer : Offered mem.nodes mem.connNodes protocol conns node card.connectionUuid conn)
    (hid : node.uuid = card.nodeId)
    (hcached : mem.connections.lookup card.connectionUuid = some conn)
    (howned : conn.subscriptionId = some subId)
    (hmetered : trafficMode = true → conn.proto.proto.isMetered meteredConns) :
    ConfigSuits b mem params subId trafficMode meteredConns card.connectionUuid conn node := by
  obtain ⟨hserving, henv, hinbound, hpin⟩ := hoffer.holds
  have hdeleted : conn.isDeleted = false := by
    have hoffered := hoffer.offered
    simp only [offeredOn, Bool.and_eq_true, Bool.not_eq_true'] at hoffered
    exact hoffered.1.1.1.1
  refine ⟨hcached, howned, ?_, ?_, ?_⟩
  · cases trafficMode with
    | false => simp [configConnSuits, hasks.connection, hdeleted, mainFeedConnectionVisible]
    | true =>
      simp [configConnSuits, hasks.connection, hdeleted, mainFeedConnectionVisible, hmetered]
  · rw [← henv]
    exact Nodes.mem_group_env hfiled hoffer.registered
  · rw [hid] at hpin
    simp [configNodeSuits, hasks.node, hasks.userCountry, hasks.serverCountry, hpin, hid, hserving,
      hinbound]

end Asked

/-- What is listed is selected exactly if the subscription is known and owns the connection,
and its access is full or the protocol is metered. -/
theorem listed_selected_iff {params : GatewayConfigParams} (hfiled : w.mem.nodes.Filed)
    (h : Listed b parseUuid req labels trafficModeEnabled meteredConns now w shareRow subId
      response card)
    (hasks : AsksFor params card) (hmem : w'.mem = w.mem)
    (haccess : ∀ sub, w.mem.subscriptions.lookup subId = some sub →
      (w'.resolveServingAccess subId (servingAccess sub trafficModeEnabled now)).2 =
        ((w.servicesShareRow req.authData).1.resolveServingAccess subId
          (servingAccess sub trafficModeEnabled now)).2) :
    (∃ conn node, w'.configSelection b subId params trafficModeEnabled meteredConns now =
        some (card.connectionUuid, conn, node) ∧ node.uuid = card.nodeId) ↔
      ∃ sub conn, w.mem.subscriptions.lookup subId = some sub ∧
        w.mem.connections.lookup card.connectionUuid = some conn ∧
        conn.subscriptionId = some subId ∧
        ((w'.resolveServingAccess subId (servingAccess sub trafficModeEnabled now)).2 = .full ∨
          conn.proto.proto.isMetered meteredConns) := by
  obtain ⟨trafficMode, -, hmode⟩ := h.response_eq
  cases hsub : w.mem.subscriptions.lookup subId with
  | none =>
    simp only [configSelection, hmem, hsub]
    simp
  | some sub =>
    have hresolved := (haccess sub hsub).trans (hmode sub hsub)
    rw [configSelection_eq (hmem ▸ hsub) hresolved, hmem]
    constructor
    · rintro ⟨conn, node, hfound, -⟩
      have hsuits := configSuits_of_found hfound
      obtain ⟨-, -, hmetered⟩ := hsuits.of_asked hasks.connection hasks.node
      refine ⟨sub, conn, rfl, hsuits.cached, hsuits.owned, ?_⟩
      cases trafficMode with
      | true => exact .inr (hmetered rfl)
      | false => exact .inl hresolved
    · rintro ⟨sub', conn, hsame, hcached, howned, hserved⟩
      obtain rfl := Option.some_inj.mp hsame
      obtain ⟨protocol, node, conn', hoffer, hid⟩ := h.offered
      obtain rfl : conn = conn' :=
        Option.some_inj.mp (hcached.symm.trans (lookup_of_mem_servicesConns hoffer.listed))
      have hmetered : trafficMode = true → conn.proto.proto.isMetered meteredConns := by
        rintro rfl
        rw [hresolved] at hserved
        exact hserved.resolve_left nofun
      obtain ⟨⟨connId, found, node'⟩, hfound⟩ :=
        (hasks.suits (b := b) hfiled hoffer hid hcached howned hmetered).exists_found
      obtain ⟨rfl, hid', -⟩ :=
        (configSuits_of_found hfound).of_asked hasks.connection hasks.node
      exact ⟨found, node', hfound, hid'⟩

end Selected

/-- Subscription 1, whose time ends at 5, owns a VLESS connection that the pool `EU` serves. -/
def premiumWorld : World :=
  let w := init (fun _ => false) fun _ => false
  { w with mem := { w.mem with
      subscriptions := AList.singleton 1 (.new 1 "" (some 5) (some 100) 0)
      connections := AList.singleton 5 { vlessConn with subscriptionId := some 1 }
      nodes := euPool } }

def plainConfigBackend : ConfigBackend where
  toGatewayBackend := twoAddressGateway
  uriLink _ _ _ _ _ _ := .ok ""
  gzip bytes := some bytes
  base64Standard _ := ""
  base64UrlSafeNoPad _ := ""
  rfc3339 _ := ""

def premiumRequest : GatewayServicesRequest where
  authData := some (.ofFields [("id", .str "1")])
  poolOff := false

def premiumParams : GatewayConfigParams :=
  ⟨"vless", "amnezia-premium", none, none, some 5, some 9⟩

theorem filed_euPool : euPool.Filed :=
  (Nodes.filed_empty.add (euNode 9 1)).add (euNode 8 2)

/-- Whatever the access, the list has a card for connection 5 on node 9. -/
theorem exists_listed_premium (now : DateTime) {trafficMode : Bool}
    (hanswered : (premiumWorld.gatewayServicesHandler plainConfigBackend (fun _ => some 1)
      premiumRequest ⟨"", ""⟩ true ["Wireguard"] now).2 =
        .ok (serveServices plainConfigBackend (fun _ => some 1) premiumRequest ⟨"", ""⟩
          ["Wireguard"] none trafficMode premiumWorld.mem)) :
    ∃ response card, Listed plainConfigBackend (fun _ => some 1) premiumRequest ⟨"", ""⟩ true
        ["Wireguard"] now premiumWorld none 1 response card ∧
      AsksFor premiumParams card ∧ card.connectionUuid = 5 := by
  have hcards : (5, 9) ∈ (servicesCards twoAddressGateway premiumWorld.mem
      (servicesConns premiumWorld.mem none (some 1)) false trafficMode
      ["Wireguard"]).map fun card => (card.connectionUuid, card.nodeId) := by
    cases trafficMode with
    | true => decide +kernel
    | false => decide +kernel
  obtain ⟨card, hcard, hshown⟩ := List.mem_map.mp hcards
  obtain ⟨hconn, hnode⟩ := Prod.mk.inj hshown
  refine ⟨_, card, ⟨rfl, by decide +kernel, hanswered, ⟨_, List.mem_singleton_self _, hcard⟩, ?_⟩,
    ⟨?_, ?_, rfl, rfl⟩, hconn⟩
  · rintro rfl
    exact absurd hconn (by decide)
  · rw [hconn]
    rfl
  · rw [hnode]
    rfl

/-- While there is time left, the card that is listed is served. -/
theorem listed_selected_full :
    ∃ conn node, premiumWorld.configSelection plainConfigBackend 1 premiumParams true
      ["Wireguard"] 3 = some (5, conn, node) ∧ node.uuid = 9 := by
  obtain ⟨response, card, hlisted, hasks, hconn⟩ := exists_listed_premium 3 rfl
  have hsame : premiumWorld.mem = premiumWorld.mem := rfl
  obtain ⟨conn, node, hselected, hnode⟩ := (listed_selected_iff filed_euPool hlisted hasks hsame
    fun _ _ => rfl).mpr ⟨_, _, rfl, by rw [hconn]; rfl, rfl, .inl rfl⟩
  rw [hconn] at hselected
  refine ⟨conn, node, hselected, hnode.trans ?_⟩
  exact (Option.some_inj.mp hasks.node).symm

/-- On its traffic balance the subscription is shown a VLESS card that it is refused, as VLESS
is not metered. -/
theorem not_listed_selected :
    ¬ ∀ (b : ConfigBackend) (parseUuid : String → Option Uuid) (req : GatewayServicesRequest)
      (labels : GatewayLabels) (trafficModeEnabled : Bool) (meteredConns : List String)
      (now : DateTime) (w w' : World) (shareRow : Option ShareTokenRow) (subId : Uuid)
      (sub : Subscription) (response : GatewayServicesResponse) (card : GatewayConnection)
      (params : GatewayConfigParams), w.mem.nodes.Filed →
      w.mem.subscriptions.lookup subId = some sub →
      Listed b parseUuid req labels trafficModeEnabled meteredConns now w shareRow subId response
        card →
      AsksFor params card → w'.mem = w.mem →
      (w'.resolveServingAccess subId (servingAccess sub trafficModeEnabled now)).2 =
        ((w.servicesShareRow req.authData).1.resolveServingAccess subId
          (servingAccess sub trafficModeEnabled now)).2 →
      ∃ conn node, w'.configSelection b subId params trafficModeEnabled meteredConns now =
        some (card.connectionUuid, conn, node) ∧ node.uuid = card.nodeId := by
  intro h
  obtain ⟨response, card, hlisted, hasks, -⟩ := exists_listed_premium 10 rfl
  obtain ⟨conn, node, hselected, -⟩ := h _ _ _ _ _ _ _ _ premiumWorld _ _ _ _ _ _ filed_euPool rfl
    hlisted hasks rfl rfl
  have hnone : (premiumWorld.configSelection plainConfigBackend 1 premiumParams true
      ["Wireguard"] 10).isNone := by decide +kernel
  rw [hselected] at hnone
  cases hnone

end World

end Fcore
