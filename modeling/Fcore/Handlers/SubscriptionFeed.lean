import Fcore.Config.Clash
import Fcore.Handlers.Access
import Fcore.Handlers.ConnectionSync
import Fcore.Handlers.ShareFeed
import Fcore.Handlers.SubscriptionTraffic
import Mathlib.Data.List.Destutter
import Mathlib.Data.List.Sort

/-!
# The link feed of a subscription

`GET /subscription` answers with one link for each connection on each node that
serves it, in the format the client asks for. The feed of a share token is the
same code with a scope: the token's child connection only, under the label of
the share, on the token's node if it is bound to one.

The access of the subscription is checked before anything is collected.
-/

namespace Fcore

/-- What the rendering crates and the standard library compute: a link that is
no WireGuard configuration, the document of a Clash configuration, the encoding
of a body, which characters are alphanumeric, and the text of a failed database
call. -/
structure FeedBackend extends Backend where
  uriLink : Inbound → Uuid → Conn → String → String → String → Except String String
  clashYaml : ClashConfig → String
  base64 : String → String
  isAlphanumeric : Char → Bool
  errorText : SyncError → String

inductive FormatReq where
  | base64
  | txt
  | clash
  deriving DecidableEq, Repr

def FormatReq.toText : FormatReq → String
  | base64 => "Base64"
  | txt => "Txt"
  | clash => "Clash"

inductive TagReq where
  | xray
  | proxy
  | wireguard
  | amneziaWg
  | vlessTcpReality
  | vlessGrpcReality
  | vlessXhttpReality
  | vlessXhttpCdn
  | hysteria2
  | mtproto
  deriving DecidableEq, Repr

namespace TagReq

def toText : TagReq → String
  | xray => "Xray"
  | proxy => "Proxy"
  | wireguard => "Wireguard"
  | amneziaWg => "AmneziaWg"
  | vlessTcpReality => "VlessTcpReality"
  | vlessGrpcReality => "VlessGrpcReality"
  | vlessXhttpReality => "VlessXhttpReality"
  | vlessXhttpCdn => "VlessXhttpCdn"
  | hysteria2 => "Hysteria2"
  | mtproto => "Mtproto"

def tags : TagReq → List Tag
  | xray => [.vlessTcpReality, .vlessGrpcReality, .vlessXhttpReality, .vlessXhttpCdn, .vmess,
      .shadowsocks]
  | proxy => [.vlessTcpReality, .vlessGrpcReality, .vlessXhttpReality, .vlessXhttpCdn, .vmess,
      .shadowsocks, .hysteria2]
  | wireguard => [.wireguard]
  | amneziaWg => [.amneziaWg, .amneziaWgMobile]
  | hysteria2 => [.hysteria2]
  | vlessTcpReality => [.vlessTcpReality]
  | vlessGrpcReality => [.vlessGrpcReality]
  | vlessXhttpReality => [.vlessXhttpReality]
  | vlessXhttpCdn => [.vlessXhttpCdn]
  | mtproto => [.mtproto]

def forTag : Tag → TagReq
  | .vlessTcpReality => vlessTcpReality
  | .vlessGrpcReality => vlessGrpcReality
  | .vlessXhttpReality => vlessXhttpReality
  | .vlessXhttpCdn => vlessXhttpCdn
  | .vmess | .shadowsocks => xray
  | .hysteria2 => hysteria2
  | .wireguard => wireguard
  | .amneziaWg | .amneziaWgMobile => amneziaWg
  | .mtproto => mtproto

end TagReq

inductive EnvFilter where
  | single (env : Env)
  | all
  deriving DecidableEq, Repr

structure SubscriptionInfoRequest where
  id : Uuid
  format : FormatReq
  env : EnvFilter
  proto : TagReq
  app : Option String
  conn : Option Uuid
  deriving DecidableEq, Repr

namespace SubscriptionInfoRequest

def allowedFormats : TagReq → List FormatReq
  | .wireguard | .amneziaWg | .mtproto => []
  | _ => [.txt, .base64, .clash]

def validate (req : SubscriptionInfoRequest) : Except String Unit :=
  if (allowedFormats req.proto).contains req.format then .ok ()
  else
    .error ("Error: Format " ++ req.format.toText ++ " not allowed for proto " ++
      req.proto.toText)

end SubscriptionInfoRequest

structure ShareFeedScope where
  connId : Uuid
  nodeId : Option Uuid
  title : String
  feedUrl : String
  deriving DecidableEq, Repr

def shareScopeAllows (share : Option ShareFeedScope) (nodeId : Uuid) : Bool :=
  match share.bind fun scope => scope.nodeId with
  | some pinned => decide (nodeId = pinned)
  | none => true

def personalOnGeneralList (personal included general : Bool) : Bool :=
  !general || !personal || included

def isUrlSafePunctuation (c : Char) : Bool :=
  ":/?#[]@!$&'()*+,;=%._-~\n".toList.contains c

def sanitizeForHapp (b : FeedBackend) (input : String) : String :=
  String.ofList (input.toList.filterMap fun c =>
    if c = ' ' then some '_'
    else if b.isAlphanumeric c || isUrlSafePunctuation c then some c
    else none)

inductive FeedResponse where
  | reply (reply : Reply)
  | body (contentType text : String)
  deriving DecidableEq, Repr

def FeedResponse.servesConfig : FeedResponse → Bool
  | reply _ => false
  | body _ _ => true

structure FeedEntry where
  inbound : Inbound
  connId : Uuid
  conn : Conn
  hostname : String
  host : String
  label : String
  deriving DecidableEq

namespace FeedEntry

/-- The order in which the entries are listed. -/
def le (e e' : FeedEntry) : Prop :=
  e.host < e'.host ∨ e.host = e'.host ∧
    (e.inbound.tag.toText < e'.inbound.tag.toText ∨
      e.inbound.tag.toText = e'.inbound.tag.toText ∧ e.connId ≤ e'.connId)

instance : DecidableRel le := fun _ _ => inferInstanceAs (Decidable (_ ∨ _))

def same (e e' : FeedEntry) : Prop :=
  e.host = e'.host ∧ e.inbound.tag = e'.inbound.tag ∧ e.connId = e'.connId

instance : DecidableRel same := fun _ _ => inferInstanceAs (Decidable (_ ∧ _))

def clashProxy (e : FeedEntry) : Option ClashProxy :=
  e.inbound.proxy e.connId e.conn e.host e.label

end FeedEntry

section Feed

variable (b : FeedBackend) (mem : Cache) (req : SubscriptionInfoRequest)
  (share : Option ShareFeedScope)

def isGeneral : Bool := req.conn.isNone && share.isNone

/-- The connections of the subscription the feed is about. -/
def feedConns (trafficMode : Bool) (meteredConns : List String) : List (Uuid × Conn) :=
  ((mem.connections.getBySubscriptionId req.id).getD []).filter fun c =>
    !c.2.isDeleted && !(trafficMode && !c.2.proto.proto.isMetered meteredConns) &&
      !(share.isNone && mem.shareConns.contains c.1) &&
      mainFeedConnectionVisible mem.mainFeedExcludedConns c.1 (isGeneral req share) &&
      match req.env with
      | .all => true
      | .single env => decide (c.2.env = env)

omit req in
/-- The inner loop over the nodes of one environment. -/
def nodeEntries (nodes : List Node) (listed : Node → Bool) (c : Uuid × Conn) : List FeedEntry :=
  nodes.filterMap fun node =>
    if node.status = .online && shareScopeAllows share node.uuid &&
        pinnedTo mem.connNodes c.1 node.uuid && listed node then
      (node.inbounds.lookup c.2.proto.proto).map fun inbound =>
        { inbound := inbound
          connId := c.1
          conn := c.2
          hostname := node.hostname
          host := node.connectionHost fun ip => b.ipText (.v4 ip)
          label := connLinkLabel mem.connLabels c.1 (node.cluster.getD node.label) }
    else none

/-- The entries before sorting. Only the walk over all environments looks at
which personal nodes are on the general list. -/
def collectEntries (conns : List (Uuid × Conn)) : List FeedEntry :=
  conns.flatMap fun c =>
    if req.proto.tags.contains c.2.proto.proto then
      match req.env with
      | .all =>
        nodeEntries b mem share ((mem.nodes.getByEnv c.2.env).getD [])
          (fun node => personalOnGeneralList node.env.isPersonal
            (mem.mainFeedNodes.contains node.uuid) (isGeneral req share)) c
      | .single env =>
        nodeEntries b mem share ((mem.nodes.getByEnv env).getD []) (fun _ => true) c
    else []

def feedEntries (conns : List (Uuid × Conn)) : List FeedEntry :=
  ((collectEntries b mem req share conns).insertionSort FeedEntry.le).destutter
    fun e e' => ¬ e.same e'

omit mem req share in
def feedLinks (entries : List FeedEntry) : List String :=
  entries.filterMap fun e =>
    (e.inbound.createLink b.toBackend b.uriLink e.connId e.conn e.hostname e.host
      e.label).toOption

omit b mem req share in
def clashFeed (entries : List FeedEntry) : ClashConfig :=
  Inbound.clash (entries.filterMap FeedEntry.clashProxy)

omit mem share in
/-- The body in the format the client asks for. -/
def renderFeed (info : String) (entries : List FeedEntry) : FeedResponse :=
  let happMode := req.app.any fun app => Text.eqIgnoreAsciiCase app "happ"
  let cleaned := fun text => if happMode then sanitizeForHapp b text else text
  match req.format with
  | .txt => .body "text/plain" (cleaned (info ++ "\n".intercalate (feedLinks b entries)))
  | .base64 =>
    .body "text/base64" (b.base64 (cleaned (info ++ "\n".intercalate (feedLinks b entries))))
  | .clash =>
    .body "application/yaml" (cleaned (b.clashYaml (clashFeed entries)))

end Feed

/-- The comment block in front of the links. -/
def feedMeta (title : String) (upload download : ℕ) (limit expiresAt : ℤ)
    (subUrl supportContact : String) : String :=
  "#profile-title: " ++ title ++ "\n#profile-update-interval: 1\n#subscription-userinfo: upload=" ++
    toString upload ++ "; download=" ++ toString download ++ "; total=" ++ toString limit ++
    "; expire=" ++ toString expiresAt ++ "\n#profile-web-page-url: " ++ subUrl ++
    "\n#support-url: " ++ supportContact ++ "\n"

/-- The day totals of each connection of a subscription. -/
def Db.perConnectionForSubscription (subId : Uuid) (db : Db) : List (Uuid × ℤ × ℤ) :=
  let rows := db.connectionTraffic.entries.filter fun e =>
    decide (e.2.subscriptionId = subId) && decide (e.1.period = .day)
  (Aggregate.groups (fun e => e.1.connectionId) rows).map fun connId =>
    let group := Aggregate.group (fun e => e.1.connectionId) rows connId
    (connId, Db.sumBytes group .uplink, Db.sumBytes group .downlink)

namespace World

/-- What the recipient of a share sees: the counters of the shared connection,
zero if they cannot be read. -/
def shareTraffic (subId connId : Uuid) (w : World) : World × ℕ × ℕ :=
  match w.dbRead (Db.perConnectionForSubscription subId) with
  | (w, .ok perConn) =>
    match perConn.find? fun row => row.1 = connId with
    | some (_, uplink, downlink) => (w, uplink.toNat, downlink.toNat)
    | none => (w, 0, 0)
  | (w, .error _) => (w, 0, 0)

section Feed

variable (b : FeedBackend) (metrics : MetricStorage) (title baseUrl supportContact : String)
  (share : Option ShareFeedScope) (req : SubscriptionInfoRequest) (now : DateTime)

omit title in
/-- The counters and the page address of the comment block. -/
def feedTraffic (sub : Subscription) (w : World) : World × Except Reply (ℕ × ℕ × String) :=
  match share with
  | some scope =>
    let (w, upload, download) := w.shareTraffic sub.id scope.connId
    (w, .ok (upload, download, scope.feedUrl))
  | none =>
    match buildSubscriptionTraffic metrics req.id sub.createdAt now w with
    | (w, .ok traffic) =>
      (w, .ok (traffic.total.uplink, traffic.total.downlink,
        baseUrl ++ "/subscription?id=" ++ sub.id.toText))
    | (w, .error e) =>
      (w, .error (.internalError ("Traffic aggregation failed: " ++ b.errorText e)))

/-- The feed of a subscription that has access. -/
def serveFeed (sub : Subscription) (trafficMode : Bool) (meteredConns : List String) (w : World) :
    World × FeedResponse :=
  let selected := feedConns w.mem req share trafficMode meteredConns
  let conns := match req.conn with
    | some connId => selected.filter fun c => c.1 = connId
    | none => selected
  if req.conn.isSome && conns.isEmpty then (w, .reply (.notFound "Connection not found"))
  else
    let entries := feedEntries b w.mem req share conns
    if entries.isEmpty then
      let message := if share.isSome then "Nodes not found"
        else "Nodes for subscription " ++ req.id.toText ++ " not found"
      (w, .reply (.notFound message))
    else
      let title := match share with
        | some scope => scope.title
        | none => (req.conn.bind fun connId => w.mem.connLabels.lookup connId).getD title
      match feedTraffic b metrics baseUrl share req now sub w with
      | (w, .error reply) => (w, .reply reply)
      | (w, .ok (upload, download, subUrl)) =>
        let expiresAt := (sub.expiresAt.map fun e => e / 1000000000).getD 0
        let info := feedMeta title upload download (sub.limitBytes.getD 0) expiresAt subUrl
          supportContact
        (w, renderFeed b req info entries)

def subscriptionFeedInner (trafficModeEnabled : Bool) (meteredConns : List String) (w : World) :
    World × FeedResponse :=
  match req.validate with
  | .error e => (w, .reply (.badRequest ("Bad Request: " ++ e)))
  | .ok () =>
    match w.mem.subscriptions.lookup req.id with
    | none =>
      let message := if share.isSome then "Subscription not found"
        else "Subscription " ++ req.id.toText ++ " not found"
      (w, .reply (.notFound message))
    | some sub =>
      match w.resolveServingAccess req.id (servingAccess sub trafficModeEnabled now) with
      | (w, .trafficMode) =>
        w.serveFeed b metrics title baseUrl supportContact share req now sub true
          meteredConns
      | (w, .full) =>
        w.serveFeed b metrics title baseUrl supportContact share req now sub false
          meteredConns
      | (w, _) =>
        let message := if share.isSome then "Subscription is expired"
          else "Subscription " ++ req.id.toText ++ " is expired"
        (w, .reply (.notFound message))

end Feed

end World

end Fcore
