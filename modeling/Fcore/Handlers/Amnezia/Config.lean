import Fcore.Config.Link
import Fcore.Handlers.Access
import Fcore.Handlers.Amnezia
import Fcore.Http.Reply
import Fcore.Lib.Except

/-!
# The configuration of one server

The application asks for the configuration of one server. It is chosen as the first node
that serves and suits the first connection that suits, and the document is built for the
protocol of that connection. A connection that is not pinned is sent to the whole pool of
its node: the addresses, ports and weights are then those of every serving member.
-/

namespace Fcore

/-- What the crates compute besides: links that are no WireGuard configuration, compression,
the two encodings of bytes, and the text of an instant. -/
structure ConfigBackend extends GatewayBackend where
  uriLink : Inbound → Uuid → Conn → String → String → String → Except String String
  gzip : List UInt8 → Option (List UInt8)
  base64Standard : List UInt8 → String
  base64UrlSafeNoPad : List UInt8 → String
  rfc3339 : DateTime → String

/-- The fields of an INI text, the last one of each name. -/
def iniFields (ini : String) : Table String String :=
  (Text.lines ini.toList).foldl (fun fields line =>
    let line := (Text.trim (String.ofList line)).toList
    if line.head? = some '[' || line.isEmpty || line.head? = some '#' then fields
    else
      match line.dropWhile fun c => c ≠ '=' with
      | [] => fields
      | _ :: value =>
        let name := String.ofList (line.takeWhile fun c => c ≠ '=')
        AList.insert (Text.trim name) (Text.trim (String.ofList value)) fields) ∅

/-- The document around one container. -/
def serverDocument (container description host : String) (body : Json) : List (String × Json) :=
  [("config_version", .num 2), ("defaultContainer", .str container),
    ("description", .str description), ("dns1", .str "1.1.1.1"), ("dns2", .str "1.0.0.1"),
    ("hostName", .str host), ("name", .str "FRKN"), ("containers", .ofList [body])]

def thirdPartyConfig (config lastConfig : String) : List (String × Json) :=
  [("config", .str config), ("isThirdPartyConfig", .bool true), ("last_config", .str lastConfig)]

section Documents

variable (b : ConfigBackend)

def buildAwgServerConfig (iniConfig clientPrivKey clientPubKey hostname : String)
    (port : UInt16) : Json :=
  let ini := iniFields iniConfig
  let field (name absent : String) : Json := .str ((ini.lookup name).getD absent)
  let lastConfig := Json.ofFields
    [("client_priv_key", .str clientPrivKey), ("client_pub_key", .str clientPubKey),
      ("client_ip", field "Address" "10.8.1.2/32"), ("mtu", field "MTU" "1420"),
      ("server_pub_key", field "PublicKey" ""), ("psk_key", field "PresharedKey" ""),
      ("port", .ofU16 port), ("hostName", .str hostname),
      ("persistent_keepalive", field "PersistentKeepalive" "25"),
      ("junkPacketCount", field "Jc" "4"), ("junkPacketMinSize", field "Jmin" "40"),
      ("junkPacketMaxSize", field "Jmax" "70"), ("initPacketJunkSize", field "S1" "0"),
      ("responsePacketJunkSize", field "S2" "0"), ("cookieReplyPacketJunkSize", field "S3" "0"),
      ("transportPacketJunkSize", field "S4" "0"), ("initPacketMagicHeader", field "H1" "1"),
      ("responsePacketMagicHeader", field "H2" "2"),
      ("underloadPacketMagicHeader", field "H3" "3"),
      ("transportPacketMagicHeader", field "H4" "4"), ("specialJunk1", field "I1" "0")]
  .ofFields (serverDocument "amnezia-awg" "FRKN AWG" hostname (.ofFields
    [("container", .str "amnezia-awg"),
      ("amnezia-awg", .ofFields (thirdPartyConfig iniConfig (b.jsonText lastConfig)))]))

def buildWgServerConfig (inbound : Inbound) (conn : Conn) (clientPubKey host : String) :
    Except String Json := do
  let wg ← okOr "WireGuard settings missing" inbound.wg
  let param ← okOr "Connection has no WireGuard params" conn.getWireguard
  let serverPubKey ← b.pubkey wg.keys.privkey
  let keepalive := toString (wg.keepalive.getD 25).toNat
  let ini := "[Interface]\nPrivateKey = " ++ param.keys.privkey ++ "\nAddress = " ++
    Inbound.ipMaskText b.toBackend param.address ++ "\nDNS = 1.1.1.1, 1.0.0.1\nMTU = 1420\n\n" ++
    "[Peer]\nPublicKey = " ++ serverPubKey ++ "\nAllowedIPs = 0.0.0.0/0, ::/0\nEndpoint = " ++
    host ++ ":" ++ toString inbound.port.toNat ++ "\nPersistentKeepalive = " ++ keepalive ++ "\n"
  let lastConfig := Json.ofFields
    [("client_priv_key", .str param.keys.privkey), ("client_pub_key", .str clientPubKey),
      ("server_pub_key", .str serverPubKey), ("psk_key", .str ""),
      ("client_ip", .str (b.ipText param.address.address)), ("hostName", .str host),
      ("port", .ofU16 inbound.port), ("mtu", .str "1420"),
      ("persistent_keep_alive", .str keepalive)]
  .ok (.ofFields (serverDocument "amnezia-wireguard" "FRKN WireGuard" host (.ofFields
    [("container", .str "amnezia-wireguard"),
      ("amnezia-wireguard", .ofFields (thirdPartyConfig ini (b.jsonText lastConfig)))])))

def xrayContainer (outbound : Json) : Json :=
  .ofFields [("container", .str "amnezia-xray"),
    ("xray", .ofFields (thirdPartyConfig (b.jsonText outbound) (b.jsonText outbound)))]

def buildH2ServerConfig (inbound : Inbound) (host : String) (token : Uuid) :
    Except String Json := do
  let h2 ← okOr "Hysteria2 settings missing" inbound.h2
  let serverName := h2.sni.getD h2.host
  let optional (name : String) (value : Option Json) := value.toList.map fun v => (name, v)
  let settings := Json.ofFields ([("servers", .ofList [.ofFields
    [("address", .str host), ("port", .ofU16 inbound.port), ("password", .str token.toText),
      ("serverName", .str serverName)]])] ++ optional "obfs" (h2.obfs.map H2Obfs.toValue) ++
    optional "up_mbps" (h2.upMbps.map Json.ofU32) ++
    optional "down_mbps" (h2.downMbps.map Json.ofU32))
  let outbound := Json.ofFields [("outbounds", .ofList [.ofFields
    [("protocol", .str "hysteria2"), ("settings", settings),
      ("streamSettings", .ofFields [("network", .str "udp"), ("security", .str "tls"),
        ("tlsSettings", .ofFields [("serverName", .str serverName), ("fingerprint", .str "chrome"),
          ("alpn", .ofStrings (h2.alpn.getD ["h3"])), ("allowInsecure", .bool h2.insecure)])])]])]
  .ok (.ofFields (serverDocument "amnezia-xray" "FRKN Hysteria2" host (xrayContainer b outbound)))

omit b in
def vlessOutbound (address : String) (port : UInt16) (connId : Uuid) (flow : Option String)
    (stream : List (String × Json)) : Json :=
  let user := [("id", Json.str connId.toText), ("encryption", .str "none")] ++
    flow.toList.map fun flow => ("flow", .str flow)
  .ofFields [("outbounds", .ofList [.ofFields
    [("protocol", .str "vless"),
      ("settings", .ofFields [("vnext", .ofList [.ofFields
        [("address", .str address), ("port", .ofU16 port),
          ("users", .ofList [.ofFields user])]])]),
      ("streamSettings", .ofFields stream)]])]

omit b in
/-- The stream of a reality outbound, by its network. -/
def realityStream (stream : StreamSettings) (reality : Json) :
    Except String (Option String × List (String × Json)) :=
  let fields (network : String) (extra : List (String × Json)) :=
    [("network", Json.str network), ("security", .str "reality"), ("realitySettings", reality)] ++
      extra
  match stream.network with
  | .tcp => .ok (some "xtls-rprx-vision", fields "tcp" [])
  | .grpc => do
      let grpc ← okOr "Missing grpc settings" stream.grpcSettings
      .ok (none, fields "grpc"
        [("grpcSettings", .ofFields [("serviceName", .str grpc.serviceName)])])
  | .xhttp => do
      let xhttp ← okOr "Missing xhttp settings" stream.xhttpSettings
      .ok (none, fields "xhttp" [("xhttpSettings", .ofFields [("path", .str xhttp.path)])])
  | .ws => .error "Unsupported vless network"

/-- The document of a CDN inbound, which repeats its configuration at the top. -/
def buildCdnServerConfig (inbound : Inbound) (stream : StreamSettings) (connId : Uuid)
    (hostname : String) : Except String Json := do
  let xhttp ← okOr "Missing xhttp settings" stream.xhttpSettings
  let cdnHost := (stream.tlsSettings.bind TlsSettings.serverName).getD hostname
  let xhttpSettings := [("path", Json.str xhttp.path)] ++
    (xhttp.mode.toList.map fun mode => ("mode", .str mode)) ++
    xhttp.extra.toList.map fun extra => ("extra", extra)
  let outbound := vlessOutbound cdnHost inbound.port connId none
    [("network", .str "xhttp"), ("security", .str "tls"),
      ("tlsSettings", .ofFields [("serverName", .str cdnHost)]),
      ("xhttpSettings", .ofFields xhttpSettings)]
  let config := thirdPartyConfig (b.jsonText outbound) (b.jsonText outbound)
  let body := Json.ofFields ([("container", .str "amnezia-xray"), ("position", .num 2)] ++ config)
  .ok (.ofFields (serverDocument "amnezia-xray" "FRKN VLESS" cdnHost body ++
    [("last_config", .ofFields config)]))

def buildVlessServerConfig (inbound : Inbound) (connId : Uuid) (hostname : String) :
    Except String Json := do
  let stream ← okOr "Missing stream settings" inbound.streamSettings
  if inbound.tag = .vlessXhttpCdn then buildCdnServerConfig b inbound stream connId hostname
  else
    let reality ← okOr "Missing reality settings" stream.realitySettings
    let sid ← okOr "Missing shortId" reality.shortIds.head?
    let sni ← okOr "Missing serverNames" reality.serverNames.head?
    let settings := Json.ofFields
      [("show", .bool false), ("fingerprint", .str "chrome"), ("serverName", .str sni),
        ("publicKey", .str reality.publicKey), ("shortId", .str sid), ("spiderX", .str "")]
    let (flow, fields) ← realityStream stream settings
    let outbound := vlessOutbound hostname inbound.port connId flow fields
    .ok (.ofFields (serverDocument "amnezia-xray" "FRKN VLESS" hostname
      (xrayContainer b outbound)))

/-- The document for the protocol of the connection. -/
def serverConfigJson (connId : Uuid) (conn : Conn) (node : Node) : Except Reply Json := do
  let inbound (protocol : String) : Except Reply Inbound :=
    okOr (.internalError ("Node has no matching " ++ protocol ++ " inbound"))
      (node.inbounds.lookup conn.proto.proto)
  let host := node.connectionHost b.v4Text
  match conn.proto.proto with
  | .hysteria2 =>
    let inbound ← inbound "Hysteria2"
    let token ← okOr (.internalError "Connection has no Hysteria2 token") conn.proto.token
    mapErr (fun e => .internalError ("Failed to build Hysteria2 config: Error: " ++ e))
      (buildH2ServerConfig b inbound host token)
  | .wireguard =>
    let inbound ← inbound "WireGuard"
    let param ← okOr (.internalError "Connection has no WireGuard params") conn.getWireguard
    let clientPubKey ← mapErr
      (fun _ => .internalError "Failed to derive WireGuard public key")
      (b.pubkey param.keys.privkey)
    mapErr (fun e => .internalError ("Failed to build WireGuard config: Error: " ++ e))
      (buildWgServerConfig b inbound conn clientPubKey host)
  | .amneziaWg | .amneziaWgMobile =>
    let inbound ← inbound "AmneziaWG"
    let link ← mapErr (fun _ => .internalError "Failed to build AWG link")
      (inbound.createLink b.toBackend b.uriLink connId conn node.hostname host node.label)
    let param ← okOr (.internalError "Connection has no AmneziaWG params") conn.getAmneziawg
    let clientPubKey ← mapErr
      (fun _ => .internalError "Failed to derive AmneziaWG public key")
      (b.pubkey param.keys.privkey)
    .ok (buildAwgServerConfig b link param.keys.privkey clientPubKey host inbound.port)
  | _ =>
    let inbound ← inbound "VLESS"
    mapErr (fun _ => .internalError "Failed to build VLESS config")
      (buildVlessServerConfig b inbound connId host)

/-- The WireGuard family is compressed, everything else is plain text. -/
def encodeConfig (tag : Tag) (config : Json) : Except Reply String :=
  let bytes := (b.jsonText config).toUTF8.data.toList
  match tag with
  | .amneziaWg | .amneziaWgMobile | .wireguard => do
      let compressed ← okOr (.internalError "Failed to gzip config") (b.gzip bytes)
      .ok (b.base64Standard compressed)
  | _ => .ok (b.base64UrlSafeNoPad bytes)

end Documents

structure GatewayConfigResponse where
  config : String
  supportedProtocols : List String
  serviceInfo : Json
  apiConfig : Json
  shareLabel : Option String
  countryCode : Option String
  countryName : Option String
  serviceProtocol : Option String
  serviceType : Option String
  nodeIps : Option (List String)
  nodePorts : Option (Table String UInt16)
  nodeWeights : Option (Table String ℤ)
  configRev : Option String

structure GatewayConfigParams where
  serviceProtocol : String
  serviceType : String
  userCountryCode : Option String
  serverCountryCode : Option String
  connectionId : Option Uuid
  nodeId : Option Uuid

inductive GatewayError where
  | reply (reply : Reply)
  | subscriptionExpired (endDate message : String)

def subscriptionExpiredResponse (b : ConfigBackend) (expiresAt : Option DateTime) :
    GatewayError :=
  let endDate := (expiresAt.map b.rfc3339).getD ""
  .subscriptionExpired endDate
    (if endDate = "" then "Subscription expired. Renew to continue."
      else "Subscription expired on " ++ endDate ++ ". Renew to continue.")

section Selection

variable (b : ConfigBackend) (mem : Cache) (params : GatewayConfigParams)

/-- Whether the loop over the connections looks at the nodes of a connection. A connection
that is asked for decides its own protocol. -/
def configConnSuits (trafficMode : Bool) (meteredConns : List String) (c : Uuid × Conn) : Bool :=
  !c.2.isDeleted &&
    mainFeedConnectionVisible mem.mainFeedExcludedConns c.1 params.connectionId.isNone &&
    !(trafficMode && !c.2.proto.proto.isMetered meteredConns) &&
    match params.connectionId with
    | some requested => decide (c.1 = requested)
    | none => protoMatches c.2.proto.proto params.serviceProtocol

/-- Whether the loop over the nodes stops at a node. -/
def configNodeSuits (c : Uuid × Conn) (node : Node) : Bool :=
  let targetCountry := (params.serverCountryCode.or params.userCountryCode).getD ""
  pinnedTo mem.connNodes c.1 node.uuid &&
    (params.nodeId.all fun wanted => node.uuid = wanted) && node.status.isServing &&
    node.hasInbound c.2.proto.proto &&
    (decide (targetCountry = "") ||
      decide (b.toLowercase node.country = b.toLowercase targetCountry))

/-- The two loops. -/
def configCandidate (trafficMode : Bool) (meteredConns : List String)
    (conns : List (Uuid × Conn)) : Option (Uuid × Conn × Node) :=
  conns.findSome? fun c =>
    if configConnSuits mem params trafficMode meteredConns c then
      (((mem.nodes.getByEnv c.2.env).getD []).find? (configNodeSuits b mem params c)).map
        fun node => (c.1, c.2, node)
    else none

omit mem params in
/-- The addresses, ports and weights of a response. -/
def configAddresses (nodes : Nodes) (node : Node) (tag : Tag) (pool : Option String) :
    Option (List String) × Option (Table String UInt16) × Option (Table String ℤ) :=
  match pool with
  | some pool =>
    let ports := pooledNodePorts b.toGatewayBackend nodes node.env pool tag
    if ports.entries = [] then (none, none, none)
    else
      let members := poolMembers nodes node.env pool
      (some (sortedKeys ports), some ports,
        some (nodeWeightsOfIps b.toGatewayBackend members ports))
  | none =>
    (node.nodeIps.map fun ips => ips.map b.v4Text, none,
      gatewayNodeWeights b.toGatewayBackend node)

/-- The response for the connection and the node that were found. -/
def gatewayConfig (connId : Uuid) (conn : Conn) (node : Node) :
    Except Reply GatewayConfigResponse := do
  let tag := conn.proto.proto
  let pool := if (mem.connNodes.lookup connId).isSome then none else normalizedPool node.pool
  let serviceName := pool.getD (connectionTitle b.toUppercase node.label node.hostname
    (b.v4Text node.address) node.country node.env.isPersonal (mem.connLabels.lookup connId))
  let (nodeIps, nodePorts, nodeWeights) := configAddresses b mem.nodes node tag pool
  let config ← serverConfigJson b connId conn node
  let encoded ← encodeConfig b tag config
  .ok
    { config := encoded
      supportedProtocols := ["vless", "awg", "awg-mobile", "hysteria2", "wireguard"]
      serviceInfo := .ofFields [("name", .str serviceName), ("type", .str params.serviceType)]
      apiConfig := .ofFields
        [("service_type", .str params.serviceType), ("service_protocol", .str (protoLabel tag)),
          ("user_country_code", .str (params.userCountryCode.getD "")),
          ("server_country_code", .ofOption .str params.serverCountryCode)]
      shareLabel := none
      countryCode := none
      countryName := none
      serviceProtocol := none
      serviceType := none
      nodeIps := nodeIps
      nodePorts := nodePorts
      nodeWeights := nodeWeights
      configRev := configRev b.toGatewayBackend node tag (nodeIps.getD []) }

/-- The response for a subscription that has access. -/
def serveConfig (subId : Uuid) (trafficMode : Bool) (meteredConns : List String) :
    Except GatewayError GatewayConfigResponse :=
  match mem.connections.getBySubscriptionId subId with
  | none => .error (.reply (.notFound "No connections"))
  | some conns =>
    match configCandidate b mem params trafficMode meteredConns conns with
    | some (connId, conn, node) =>
      mapErr .reply (gatewayConfig b mem params connId conn node)
    | none =>
      if params.nodeId.isSome then .error (.reply (.notFound "node_not_found"))
      else .error (.reply (.notFound "No suitable connection/node found"))

def foundConfig (subId : Uuid) (trafficMode : Bool) (meteredConns : List String) :
    Option (Uuid × Conn × Node) :=
  (mem.connections.getBySubscriptionId subId).bind
    (configCandidate b mem params trafficMode meteredConns)

/-- What the two loops look for. -/
structure ConfigSuits (subId : Uuid) (trafficMode : Bool) (meteredConns : List String)
    (connId : Uuid) (conn : Conn) (node : Node) : Prop where
  cached : mem.connections.lookup connId = some conn
  owned : conn.subscriptionId = some subId
  connSuits : configConnSuits mem params trafficMode meteredConns (connId, conn)
  filed : node ∈ mem.nodes.group conn.env
  nodeSuits : configNodeSuits b mem params (connId, conn) node

end Selection

variable {connId : Uuid} {conn : Conn} {node : Node}

section Found

variable {b : ConfigBackend} {mem : Cache} {params : GatewayConfigParams} {subId : Uuid}
  {trafficMode : Bool} {meteredConns : List String}

theorem configSuits_of_found
    (h : foundConfig b mem params subId trafficMode meteredConns = some (connId, conn, node)) :
    ConfigSuits b mem params subId trafficMode meteredConns connId conn node := by
  obtain ⟨conns, hconns, hcandidate⟩ := Option.bind_eq_some_iff.mp h
  obtain ⟨c, hc, hround⟩ := List.exists_of_findSome?_eq_some hcandidate
  have hmem : c ∈ (mem.connections.getBySubscriptionId subId).getD [] := by rwa [hconns]
  obtain ⟨hcached, howned⟩ := Connections.mem_getBySubscriptionId.mp hmem
  split at hround
  · rename_i hsuits
    obtain ⟨found, hfound, heq⟩ := Option.map_eq_some_iff.mp hround
    cases heq
    exact ⟨hcached, howned, hsuits, List.mem_of_find?_eq_some hfound, List.find?_some hfound⟩
  · cases hround

theorem ConfigSuits.of_asked {asked wanted : Uuid}
    (h : ConfigSuits b mem params subId trafficMode meteredConns connId conn node)
    (hasked : params.connectionId = some asked) (hwanted : params.nodeId = some wanted) :
    connId = asked ∧ node.uuid = wanted ∧
      (trafficMode = true → conn.proto.proto.isMetered meteredConns) := by
  have hconn := h.connSuits
  have hnode := h.nodeSuits
  simp only [configConnSuits, hasked, Bool.and_eq_true, decide_eq_true_eq] at hconn
  simp only [configNodeSuits, hwanted, Bool.and_eq_true, Option.all_some,
    decide_eq_true_eq] at hnode
  refine ⟨hconn.2, hnode.1.1.1.2, fun htraffic => ?_⟩
  simpa [htraffic] using hconn.1.2

theorem ConfigSuits.exists_found
    (h : ConfigSuits b mem params subId trafficMode meteredConns connId conn node) :
    ∃ found, foundConfig b mem params subId trafficMode meteredConns = some found := by
  have hlisted : (connId, conn) ∈ (mem.connections.getBySubscriptionId subId).getD [] :=
    Connections.mem_getBySubscriptionId.mpr ⟨h.cached, h.owned⟩
  unfold foundConfig
  cases hconns : mem.connections.getBySubscriptionId subId with
  | none => simp [hconns] at hlisted
  | some conns =>
    rw [hconns] at hlisted
    rw [Option.bind_some, ← Option.isSome_iff_exists, configCandidate, List.findSome?_isSome_iff]
    refine ⟨(connId, conn), hlisted, ?_⟩
    rw [if_pos h.connSuits, Option.isSome_map, List.find?_isSome]
    exact ⟨node, h.filed, h.nodeSuits⟩

end Found

namespace World

def buildGatewayConfigResponse (b : ConfigBackend) (subId : Uuid) (params : GatewayConfigParams)
    (trafficModeEnabled : Bool) (meteredConns : List String) (now : DateTime) (w : World) :
    World × Except GatewayError GatewayConfigResponse :=
  match w.mem.subscriptions.lookup subId with
  | none => (w, .error (.reply (.notFound "Subscription not found")))
  | some sub =>
    match w.resolveServingAccess subId (servingAccess sub trafficModeEnabled now) with
    | (w, .trafficMode) => (w, serveConfig b w.mem params subId true meteredConns)
    | (w, .full) => (w, serveConfig b w.mem params subId false meteredConns)
    | (w, _) => (w, .error (subscriptionExpiredResponse b sub.expiresAt))

/-- The connection and the node a request is served with. -/
def configSelection (b : ConfigBackend) (subId : Uuid) (params : GatewayConfigParams)
    (trafficModeEnabled : Bool) (meteredConns : List String) (now : DateTime) (w : World) :
    Option (Uuid × Conn × Node) :=
  match w.mem.subscriptions.lookup subId with
  | none => none
  | some sub =>
    match w.resolveServingAccess subId (servingAccess sub trafficModeEnabled now) with
    | (w, .trafficMode) => foundConfig b w.mem params subId true meteredConns
    | (w, .full) => foundConfig b w.mem params subId false meteredConns
    | _ => none

variable {b : ConfigBackend} {params : GatewayConfigParams} {subId : Uuid}
  {meteredConns : List String}

theorem serveConfig_ok_iff {mem : Cache} {trafficMode : Bool} {response : GatewayConfigResponse} :
    serveConfig b mem params subId trafficMode meteredConns = .ok response ↔
      ∃ connId conn node,
        foundConfig b mem params subId trafficMode meteredConns = some (connId, conn, node) ∧
        gatewayConfig b mem params connId conn node = .ok response := by
  unfold serveConfig foundConfig
  cases mem.connections.getBySubscriptionId subId with
  | none => simp
  | some conns =>
    simp only [Option.bind_some]
    cases configCandidate b mem params trafficMode meteredConns conns with
    | none =>
      simp only [reduceCtorEq, false_and, exists_false, iff_false]
      split
      · exact nofun
      · exact nofun
    | some found =>
      obtain ⟨connId, conn, node⟩ := found
      simp

/-- An answer is the configuration of the connection and the node that were selected. -/
theorem buildGatewayConfigResponse_ok_iff {trafficModeEnabled : Bool} {now : DateTime} {w : World}
    {response : GatewayConfigResponse} :
    (w.buildGatewayConfigResponse b subId params trafficModeEnabled meteredConns now).2 =
        .ok response ↔
      ∃ connId conn node,
        w.configSelection b subId params trafficModeEnabled meteredConns now =
          some (connId, conn, node) ∧
        gatewayConfig b w.mem params connId conn node = .ok response := by
  unfold configSelection buildGatewayConfigResponse
  cases w.mem.subscriptions.lookup subId with
  | none => simp
  | some sub =>
    simp only
    rw [← resolveServingAccess_mem subId (servingAccess sub trafficModeEnabled now) w]
    cases hresult : w.resolveServingAccess subId (servingAccess sub trafficModeEnabled now) with
    | mk w' access =>
      cases access with
      | trafficMode => exact serveConfig_ok_iff
      | full => exact serveConfig_ok_iff
      | expired => simp
      | checkBalance limit => simp

theorem configSuits_of_selected {connId : Uuid} {trafficModeEnabled : Bool} {now : DateTime}
    {w : World} {conn : Conn} {node : Node}
    (h : w.configSelection b subId params trafficModeEnabled meteredConns now =
      some (connId, conn, node)) :
    ∃ trafficMode, ConfigSuits b w.mem params subId trafficMode meteredConns connId conn node := by
  unfold configSelection at h
  cases hsub : w.mem.subscriptions.lookup subId with
  | none => simp [hsub] at h
  | some sub =>
    have hmem := resolveServingAccess_mem subId (servingAccess sub trafficModeEnabled now) w
    rw [hsub] at h
    cases hresult : w.resolveServingAccess subId (servingAccess sub trafficModeEnabled now) with
    | mk w' access =>
      rw [hresult] at hmem
      simp only [hresult] at h
      cases access with
      | trafficMode => exact ⟨true, hmem ▸ configSuits_of_found h⟩
      | full => exact ⟨false, hmem ▸ configSuits_of_found h⟩
      | expired => cases h
      | checkBalance limit => cases h

end World

end Fcore
