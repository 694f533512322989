import Fcore.Config.Value
import Fcore.Handlers.ConnectionSync
import Fcore.Lib.Run
import Fcore.Lib.Slots
import Mathlib.Data.List.Sort
import Mathlib.Data.String.Basic

/-!
# The server list of the application

The application asks for the servers a subscription can use and gets one card
for each connection on each node that serves it. Unless the client declines, the
nodes of a pool share one card per connection, and a second pass over these pool
cards writes the entry addresses of the whole pool into them.

The first pass looks at the pin of a connection, the second does not. The main
result therefore gives the condition under which every address on a card still
belongs to a node that holds the connection.
-/

namespace Fcore

/-- What the standard library and the crates compute: upper case, the text of a JSON value
and the digest of a text. -/
structure GatewayBackend extends Backend where
  toUppercase : String → String
  jsonText : Json → String
  sha256 : String → String

namespace GatewayBackend

def v4Text (b : GatewayBackend) (ip : Ipv4Addr) : String := b.ipText (.v4 ip)

def jsonDigest (b : GatewayBackend) (body : Json) : String := b.sha256 (b.jsonText body)

end GatewayBackend

structure GatewayConnection where
  connectionUuid : Uuid
  nodeId : Uuid
  countryCode : String
  countryName : String
  serviceProtocol : String
  env : String
  connectionLabel : String
  nodeIps : Option (List String)
  nodePorts : Option (Table String UInt16)
  pool : Option String
  poolTranslation : Option (Table String String)
  weight : ℤ
  nodeWeights : Option (Table String ℤ)
  configRev : Option String

def protoMatches (tag : Tag) (protocol : String) : Bool :=
  match protocol with
  | "awg" => tag = .amneziaWg
  | "awg-mobile" => tag = .amneziaWgMobile
  | "wireguard" => tag = .wireguard
  | "hysteria2" => tag = .hysteria2
  | "vless" =>
    match tag with
    | .vlessTcpReality | .vlessGrpcReality | .vlessXhttpReality | .vlessXhttpCdn => true
    | _ => false
  | _ => false

def protoLabel : Tag → String
  | .amneziaWg => "awg"
  | .amneziaWgMobile => "awg-mobile"
  | .wireguard => "wireguard"
  | .hysteria2 => "hysteria2"
  | _ => "vless"

def inboundLabel : Tag → String
  | .vlessTcpReality => "VLESS TCP Reality"
  | .vlessGrpcReality => "VLESS gRPC Reality"
  | .vlessXhttpReality => "VLESS XHTTP Reality"
  | .vlessXhttpCdn => "VLESS XHTTP CDN"
  | .amneziaWg | .amneziaWgMobile => "AmneziaWG"
  | .wireguard => "WireGuard"
  | .shadowsocks => "Shadowsocks"
  | .hysteria2 => "Hysteria2"
  | .mtproto => "MTProto"
  | .vmess => "VMess"

def labelIsHost (label hostname address : String) : Bool :=
  let label := Text.trim label
  label = "" || Text.eqIgnoreAsciiCase label (Text.trim hostname) || label = address

/-- A trimmed text, unless nothing is left of it. -/
def nonBlank (text : Option String) : Option String :=
  (text.map Text.trim).filter fun text => text ≠ ""

def normalizedPool (pool : Option String) : Option String := nonBlank pool

def connectionTitle (upper : String → String) (nodeLabel hostname address country : String)
    (personal : Bool) (connLabel : Option String) : String :=
  let nodeLabel := Text.trim nodeLabel
  let device := nonBlank connLabel
  if personal && labelIsHost nodeLabel hostname address then
    match device with
    | some label => label
    | none =>
      let code := Text.trim country
      if code = "" then "Private" else upper code ++ "| Private"
  else
    let nodeTitle := if nodeLabel = "" then upper (Text.trim country) else nodeLabel
    match device with
    | some label =>
      if nodeTitle = "" ∨ nodeTitle = label then label else label ++ " (" ++ nodeTitle ++ ")"
    | none => nodeTitle

/-- What a client has to know of an inbound to reach the server behind it. -/
def serverMaterial (b : Backend) (inbound : Inbound) : Json :=
  let pubkey (keys : Keys) : Json := .ofOption .str (b.pubkey keys.privkey).toOption
  let keepalive (value : Option UInt16) : Json := .ofU16 (value.getD 25)
  let awg (awg : AmneziaWgSettings) : Json := .ofFields
    [("pub", pubkey awg.interface.privateKey), ("port", .ofU16 awg.interface.listenPort),
      ("mtu", .ofOption Json.ofU16 awg.interface.mtu), ("dns", b.dnsValue awg.interface.dns),
      ("keepalive", keepalive awg.keepalive),
      ("obf", .ofOption AwgObfuscationParams.toValue awg.obfuscation)]
  let wg (wg : WireguardSettings) : Json := .ofFields
    [("pub", pubkey wg.keys), ("port", .ofU16 wg.port), ("keepalive", keepalive wg.keepalive),
      ("dns", .ofStrings ["1.1.1.1", "1.0.0.1"])]
  let h2 (h2 : H2Settings) : Json := .ofFields
    [("host", .str h2.host), ("sni", .ofOption .str h2.sni), ("insecure", .bool h2.insecure),
      ("obfs", .ofOption H2Obfs.toValue h2.obfs), ("alpn", .ofOption Json.ofStrings h2.alpn),
      ("up", .ofOption Json.ofU32 h2.upMbps), ("down", .ofOption Json.ofU32 h2.downMbps)]
  let reality (reality : RealitySettings) : Json := .ofFields
    [("server_names", .ofStrings reality.serverNames), ("public_key", .str reality.publicKey),
      ("short_ids", .ofStrings reality.shortIds)]
  let stream (stream : StreamSettings) : Json := .ofFields
    [("network", .str stream.network.asStr),
      ("reality", .ofOption reality stream.realitySettings),
      ("grpc", .ofOption GrpcSettings.toValue stream.grpcSettings),
      ("xhttp", .ofOption XhttpSettings.toValue stream.xhttpSettings),
      ("tls_name", .ofOption .str (stream.tlsSettings.bind TlsSettings.serverName))]
  .ofFields [("awg", .ofOption awg inbound.awg), ("wg", .ofOption wg inbound.wg),
    ("h2", .ofOption h2 inbound.h2), ("stream", .ofOption stream inbound.streamSettings),
    ("mtproto", .ofOption .str inbound.mtprotoSecret)]

/-- The host of a configuration. Behind a CDN it is the name in the certificate. -/
def configHost (b : GatewayBackend) (node : Node) (inbound : Inbound) (tag : Tag) : String :=
  let serverName := (inbound.streamSettings.bind StreamSettings.tlsSettings).bind
    TlsSettings.serverName
  match if tag = .vlessXhttpCdn then serverName.filter fun name => name ≠ "" else none with
  | some name => name
  | none => node.connectionHost b.v4Text

def configRev (b : GatewayBackend) (node : Node) (tag : Tag) (ips : List String) :
    Option String :=
  (node.inbounds.lookup tag).map fun inbound => b.jsonDigest (.ofFields
    [("host", .str (configHost b node inbound tag)), ("address", .str (b.v4Text node.address)),
      ("port", .ofU16 inbound.port), ("node_ips", .ofStrings ips),
      ("dns", .ofStrings ["1.1.1.1", "1.0.0.1"]),
      ("server", serverMaterial b.toBackend inbound)])

def configRevPool (b : GatewayBackend) (members : List Node) (tag : Tag)
    (ports : Table String UInt16) : String :=
  let servers := members.filterMap fun node => (node.inbounds.lookup tag).map fun inbound =>
    Json.ofFields [("uuid", .str node.uuid.toText),
      ("host", .str (node.connectionHost b.v4Text)),
      ("server", serverMaterial b.toBackend inbound)]
  b.jsonDigest (.ofFields
    [("ports", .ofFields (ports.entries.map fun e => (e.1, .ofU16 e.2))),
      ("servers", .ofList servers)])

def nodePortsOfNode (b : GatewayBackend) (node : Node) (port : UInt16) :
    List (String × UInt16) :=
  (node.entryIps b.v4Text).map fun ip => (ip, port)

/-- The serving nodes of a pool in one environment, by identifier. -/
def poolMembers (nodes : Nodes) (env : Env) (pool : String) : List Node :=
  (nodes.all.filter fun node => node.status.isServing && decide (node.env = env) &&
    decide (normalizedPool node.pool = some pool)).insertionSort fun a b => a.uuid ≤ b.uuid

/-- One round of the loop over the members: a node without the inbound adds
nothing. -/
def insertNodePorts (b : GatewayBackend) (tag : Tag) (out : Table String UInt16) (node : Node) :
    Table String UInt16 :=
  match node.inbounds.lookup tag with
  | some inbound =>
    (nodePortsOfNode b node inbound.port).foldl (fun out e => AList.insert e.1 e.2 out) out
  | none => out

def nodePortsOfMembers (b : GatewayBackend) (members : List Node) (tag : Tag) :
    Table String UInt16 :=
  members.foldl (insertNodePorts b tag) ∅

def pooledNodePorts (b : GatewayBackend) (nodes : Nodes) (env : Env) (pool : String) (tag : Tag) :
    Table String UInt16 :=
  nodePortsOfMembers b (poolMembers nodes env pool) tag

def sortedKeys (ports : Table String UInt16) : List String := ports.keys.insertionSort (· ≤ ·)

def nodeWeightsOfIps (b : GatewayBackend) (members : List Node) (ports : Table String UInt16) :
    Table String ℤ :=
  (sortedKeys ports).foldl (fun weights ip =>
    let weight := match members.find? fun node => (node.entryIps b.v4Text).contains ip with
      | some node => node.weightFor ip
      | none => Node.defaultNodeWeight
    AList.insert ip weight weights) ∅

def gatewayNodeWeights (b : GatewayBackend) (node : Node) : Option (Table String ℤ) :=
  if (node.entryIps b.v4Text).length < 2 ∧ node.nodeWeights.entries = [] then none
  else some (node.weightsByIp b.v4Text)

/-- Whether a connection gets a card on a serving node. -/
def offeredOn (connNodes : Table Uuid Uuid) (protocol : String) (node : Node) (connId : Uuid)
    (conn : Conn) : Bool :=
  !conn.isDeleted && pinnedTo connNodes connId node.uuid &&
    protoMatches conn.proto.proto protocol &&
    node.hasInbound conn.proto.proto && decide (conn.env = node.env)

/-- The card of a pool before the second pass. -/
def poolCard (b : GatewayBackend) (connLabels : Table Uuid String) (node : Node) (connId : Uuid)
    (conn : Conn) (pool : String) : GatewayConnection :=
  let code := b.toUppercase node.country
  let tag := conn.proto.proto
  let poolTitle := match nonBlank (connLabels.lookup connId) with
    | some device => device ++ " (" ++ pool ++ ")"
    | none => pool
  { connectionUuid := connId
    nodeId := node.uuid
    countryCode := code
    countryName := code
    serviceProtocol := protoLabel tag
    env := conn.env.asStr
    connectionLabel := poolTitle ++ " · " ++ inboundLabel tag
    nodeIps := none
    nodePorts := none
    pool := some pool
    poolTranslation := node.poolTranslation
    weight := node.maxWeight b.v4Text
    nodeWeights := none
    configRev := none }

/-- The card of a single node. -/
def nodeCard (b : GatewayBackend) (connLabels : Table Uuid String) (node : Node) (connId : Uuid)
    (conn : Conn) : GatewayConnection :=
  let code := b.toUppercase node.country
  let tag := conn.proto.proto
  let title := connectionTitle b.toUppercase node.label node.hostname (b.v4Text node.address) code
    node.env.isPersonal (connLabels.lookup connId)
  let ips := (node.nodeIps.getD []).map b.v4Text
  { connectionUuid := connId
    nodeId := node.uuid
    countryCode := code
    countryName := code
    serviceProtocol := protoLabel tag
    env := conn.env.asStr
    connectionLabel := title ++ " · " ++ inboundLabel tag
    nodeIps := if ips.isEmpty then none else some ips
    nodePorts := none
    pool := node.pool
    poolTranslation := node.poolTranslation
    weight := node.maxWeight b.v4Text
    nodeWeights := gatewayNodeWeights b node
    configRev := configRev b node tag ips }

/-- What the list holds when there is nothing to offer. -/
def allCountriesCard : GatewayConnection where
  connectionUuid := 0
  nodeId := 0
  countryCode := ""
  countryName := "All countries"
  serviceProtocol := ""
  env := ""
  connectionLabel := "All countries"
  nodeIps := none
  nodePorts := none
  pool := none
  poolTranslation := none
  weight := Node.defaultNodeWeight
  nodeWeights := none
  configRev := none

/-- The cards collected so far, the pool cards indexed by connection, tag and
pool. -/
abbrev Cards := Slots (Uuid × Tag × String) GatewayConnection

section Gateway

variable (b : GatewayBackend) (nodes : Nodes) (connNodes : Table Uuid Uuid)
  (connLabels : Table Uuid String) (protocol : String) (conns : Option (List (Uuid × Conn)))
  (collapsePools : Bool)

/-- One round of the inner loop. -/
def addCard (node : Node) (cards : Cards) (entry : Uuid × Conn) : Cards :=
  if offeredOn connNodes protocol node entry.1 entry.2 then
    match if collapsePools then normalizedPool node.pool else none with
    | some pool =>
      cards.claim (entry.1, entry.2.proto.proto, pool)
        (poolCard b connLabels node entry.1 entry.2 pool)
    | none => cards.push (nodeCard b connLabels node entry.1 entry.2)
  else cards

def addNodeCards (cards : Cards) (node : Node) : Cards :=
  if node.status.isServing then
    (conns.getD []).foldl (addCard b connNodes connLabels protocol collapsePools node) cards
  else cards

def collectCards : Cards :=
  nodes.all.foldl (addNodeCards b connNodes connLabels protocol conns collapsePools) Slots.empty

omit connNodes connLabels protocol conns collapsePools in
/-- The second pass on one pool card. The environment is read back from its
text. -/
def fillPoolCard (key : Uuid × Tag × String) (card : GatewayConnection) : GatewayConnection :=
  let tag := key.2.1
  let pool := key.2.2
  let env := Env.ofStored b.toLowercase card.env
  let ports := pooledNodePorts b nodes env pool tag
  if ports.entries = [] then card
  else
    let members := poolMembers nodes env pool
    let weights := nodeWeightsOfIps b members ports
    { card with
      nodeIps := some (sortedKeys ports)
      nodePorts := some ports
      weight := Node.maxOfWeights weights
      nodeWeights := some weights
      configRev := some (configRevPool b members tag ports) }

def connectionsForProtocol : List GatewayConnection :=
  let result := (collectCards b nodes connNodes connLabels protocol conns collapsePools).fill
    (fillPoolCard b nodes)
  if result.isEmpty then [allCountriesCard] else result

end Gateway

end Fcore
