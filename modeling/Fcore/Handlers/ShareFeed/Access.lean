import Fcore.Handlers.Share
import Fcore.Handlers.SubscriptionFeed

/-!
# The share feed and the owner's access

`GET /sub/<token>` serves the child connection of a share token to whoever has
the token. A child of the WireGuard family is answered with its configuration
text alone, every other one with the link feed in the scope of the token.

The link feed checks the access of the owner's subscription, the answer with the
configuration text does not. So an owner without access has nothing served only
as long as no configuration text can be rendered.
-/

namespace Fcore

def tokenLen : ℕ := 16

def uuidTokenLen : ℕ := 32

def tokenAlphabet : String := "0123456789abcdefghjkmnpqrstvwxyz"

def isAsciiHexdigit (c : Char) : Bool :=
  c.isDigit || decide ('a' ≤ c ∧ c ≤ 'f') || decide ('A' ≤ c ∧ c ≤ 'F')

/-- The stored form of a token, in lower case and without separators. -/
def normalizeShareToken (raw : String) : Option String :=
  let normalized := String.ofList ((raw.toList.filter fun c =>
    !Text.isWhitespace c && decide (c ≠ '-')).map Char.toLower)
  let legacy := decide (normalized.utf8ByteSize = tokenLen) &&
    normalized.toList.all tokenAlphabet.toList.contains
  let uuidLike := decide (normalized.utf8ByteSize = uuidTokenLen) &&
    normalized.toList.all isAsciiHexdigit
  if legacy || uuidLike then some normalized else none

def normalizeShareFeedToken (raw : String) : Option String :=
  normalizeShareToken (String.ofList (raw.toList.map fun c =>
    match c.toLower with
    | 'o' => '0'
    | 'i' | 'l' => '1'
    | c => c))

def groupedToken (token : String) : String :=
  "-".intercalate ((token.toList.toChunks 4).map String.ofList)

structure ShareFeedQuery where
  format : FormatReq
  app : Option String
  deriving DecidableEq, Repr

namespace World

section Handler

variable (b : FeedBackend) (metrics : MetricStorage) (title baseUrl supportContact : String)
  (now : DateTime)

/-- The answer for a token row that is not revoked. -/
def serveShare (token : String) (query : ShareFeedQuery) (row : ShareTokenRow) (w : World) :
    World × FeedResponse :=
  match w.mem.connections.lookup row.connectionId with
  | none => (w, .reply (.notFound "Connection not found"))
  | some child =>
    if child.isDeleted then (w, .reply (.notFound "Connection not found"))
    else if shareFeedIsRawIni child.proto.proto then
      match shareFeedIni b.toBackend b.uriLink w.mem row with
      | some ini => (w, .body "text/plain" ini)
      | none => (w, .reply (.notFound "Nodes not found"))
    else
      let feedUrl := String.ofList (baseUrl.toList.rdropWhile fun c => c = '/') ++ "/sub/" ++
        groupedToken token
      let scope := ⟨row.connectionId, row.nodeId, row.label, feedUrl⟩
      let req := ⟨row.subscriptionId, query.format, .all, .forTag child.proto.proto, query.app,
        some row.connectionId⟩
      w.subscriptionFeedInner b metrics title baseUrl supportContact (some scope) req now false
        []

/-- The handler. Whether the rate limiter admits the caller is the argument
`admitted`. -/
def shareFeedHandler (rawToken : String) (query : ShareFeedQuery) (admitted : Bool) (w : World) :
    World × FeedResponse :=
  if !admitted then (w, .reply (.tooManyRequests "Too many requests"))
  else
    match normalizeShareFeedToken rawToken with
    | none => (w, .reply shareNotFound)
    | some token =>
      match w.dbRead (Db.shareToken token) with
      | (w, .error _) => (w, .reply (.internalError "share lookup failed"))
      | (w, .ok none) => (w, .reply shareNotFound)
      | (w, .ok (some row)) =>
        if row.revokedAt.isSome then (w, .reply shareNotFound)
        else w.serveShare b metrics title baseUrl supportContact now token query row

end Handler

/-- A live child of the WireGuard family whose configuration can be rendered for
the node of the token. -/
def ShareIniRenders (b : FeedBackend) (mem : Cache) (row : ShareTokenRow) : Prop :=
  ∃ child node inbound, mem.connections.lookup row.connectionId = some child ∧
    child.isDeleted = false ∧ shareFeedIsRawIni child.proto.proto ∧
    shareIniNode mem row child = some node ∧ node.status = .online ∧
    node.inbounds.lookup child.proto.proto = some inbound ∧
    inbound.Renders b.toBackend b.uriLink row.connectionId child node.hostname
      (node.connectionHost fun ip => b.ipText (.v4 ip))
      (connLinkLabel mem.connLabels row.connectionId (node.cluster.getD node.label))

section Expired

variable {b : FeedBackend} {metrics : MetricStorage} {title baseUrl supportContact : String}
  {now : DateTime} {w : World} {sub : Subscription}

/-- The link feed answers an owner without access with a message. -/
theorem servesConfig_subscriptionFeedInner {share : Option ShareFeedScope}
    {req : SubscriptionInfoRequest} {trafficModeEnabled : Bool} {meteredConns : List String}
    (hsub : w.mem.subscriptions.lookup req.id = some sub)
    (hexpired : servingAccess sub trafficModeEnabled now = .expired) :
    (w.subscriptionFeedInner b metrics title baseUrl supportContact share req now
      trafficModeEnabled meteredConns).2.servesConfig = false := by
  unfold subscriptionFeedInner
  cases req.validate with
  | error e => rfl
  | ok _ => simp only [hsub, hexpired, resolveServingAccess, FeedResponse.servesConfig]

theorem exists_shareFeedIni_iff {row : ShareTokenRow} {child : Conn}
    (hchild : w.mem.connections.lookup row.connectionId = some child)
    (hlive : child.isDeleted = false) (hini : shareFeedIsRawIni child.proto.proto = true) :
    (∃ text, shareFeedIni b.toBackend b.uriLink w.mem row = some text) ↔
      ShareIniRenders b w.mem row := by
  constructor
  · rintro ⟨text, htext⟩
    obtain ⟨node, inbound, hnode, honline, hinbound, hlink⟩ :=
      (shareFeedIni_eq_some_iff hchild hlive).mp htext
    exact ⟨child, node, inbound, hchild, hlive, hini, hnode, honline, hinbound,
      Inbound.renders_iff.mpr ⟨text, hlink⟩⟩
  · rintro ⟨child', node, inbound, hchild', -, -, hnode, honline, hinbound, hrenders⟩
    obtain rfl : child = child' := Option.some.inj (hchild.symm.trans hchild')
    obtain ⟨text, hlink⟩ := Inbound.renders_iff.mp hrenders
    exact ⟨text, (shareFeedIni_eq_some_iff hchild hlive).mpr
      ⟨node, inbound, hnode, honline, hinbound, hlink⟩⟩

/-- Of an owner without access exactly the renderable configurations are
served. -/
theorem servesConfig_serveShare_iff {token : String} {query : ShareFeedQuery}
    {row : ShareTokenRow} (hsub : w.mem.subscriptions.lookup row.subscriptionId = some sub)
    (hexpired : servingAccess sub false now = .expired) :
    (w.serveShare b metrics title baseUrl supportContact now token query row).2.servesConfig =
      true ↔ ShareIniRenders b w.mem row := by
  unfold serveShare
  cases hchild : w.mem.connections.lookup row.connectionId with
  | none => simp [FeedResponse.servesConfig, ShareIniRenders, hchild]
  | some child =>
    dsimp only
    by_cases hlive : child.isDeleted = true
    · simp [FeedResponse.servesConfig, ShareIniRenders, hchild, hlive]
    · rw [if_neg hlive]
      by_cases hini : shareFeedIsRawIni child.proto.proto = true
      · rw [if_pos hini, ← exists_shareFeedIni_iff hchild (by simpa using hlive) hini]
        cases shareFeedIni b.toBackend b.uriLink w.mem row <;>
          simp [FeedResponse.servesConfig]
      · rw [if_neg hini, servesConfig_subscriptionFeedInner hsub hexpired]
        simp [ShareIniRenders, hchild, hini]

/-- With an owner whose access has expired, the handler serves no configuration
exactly when it refuses the token or the child has no configuration text to
render. -/
theorem share_feed_obeys_access_iff {rawToken token : String} {query : ShareFeedQuery}
    {admitted : Bool} {row : ShareTokenRow}
    (htoken : normalizeShareFeedToken rawToken = some token)
    (hrow : w.db.shareTokens.lookup token = some row)
    (hsub : w.mem.subscriptions.lookup row.subscriptionId = some sub)
    (hexpired : servingAccess sub false now = .expired) :
    (w.shareFeedHandler b metrics title baseUrl supportContact now rawToken query
      admitted).2.servesConfig = false ↔
      (admitted = false ∨ w.dbFails w.calls = true ∨ row.revokedAt ≠ none ∨
        ¬ ShareIniRenders b w.mem row) := by
  unfold shareFeedHandler
  cases admitted with
  | false => simp [FeedResponse.servesConfig]
  | true =>
    simp only [Bool.not_true, Bool.false_eq_true, if_false, htoken]
    by_cases hfails : w.dbFails w.calls = true
    · rw [dbRead, dbCall_of_fails hfails]
      simp [hfails, FeedResponse.servesConfig]
    · have hread : w.dbRead (Db.shareToken token) = (w.tick, .ok (some row)) := by
        rw [dbRead, dbCall_of_ok (by simpa using hfails) rfl, Db.shareToken, hrow]
        rfl
      rw [hread]
      dsimp only
      cases hrevoked : row.revokedAt with
      | some at' => simp [FeedResponse.servesConfig]
      | none =>
        have hserve : (w.tick.serveShare b metrics title baseUrl supportContact now token query
            row).2.servesConfig = true ↔ ShareIniRenders b w.mem row :=
          servesConfig_serveShare_iff (w := w.tick) hsub hexpired
        rw [← hserve]
        simp [hfails]

end Expired

/-- A deployment that renders nothing but WireGuard configurations. -/
def iniBackend : FeedBackend where
  toBackend := constantBackend
  uriLink _ _ _ _ _ _ := .error ""
  clashYaml _ := ""
  base64 text := text
  isAlphanumeric _ := true
  errorText _ := ""

/-- A share of connection 5 whose owner, subscription 2, has run out of time. -/
def sharedWorld (child : Conn) : World :=
  let w := World.init (fun _ => false) fun _ => false
  let node := { Node.bare 1 .dev with inbounds := AList.singleton .wireguard shareInbound }
  { w with
    mem := { w.mem with
      connections := AList.singleton 5 child
      subscriptions := AList.singleton 2 (.new 2 "" (some 0) none 0)
      nodes := AList.singleton .dev [node] }
    db := { w.db with
      shareTokens := AList.singleton "0000000000000000"
        ⟨2, 5, some 1, none, "conn", "Mum", 0, none, none⟩ } }

/-- A child of another protocol is refused with the owner. -/
theorem share_feed_obeys_access_vless :
    ((sharedWorld (.new .dev (some 2) (.xray .vlessTcpReality) none 0)).shareFeedHandler iniBackend
      (.new 0 0) "" "" "" 1 "0000-0000-0000-0000" ⟨.txt, none⟩ true).2 =
        .reply (.notFound "Subscription is expired") ∧
    ((sharedWorld (.new .dev (some 2) (.xray .vlessTcpReality) none 0)).shareFeedHandler iniBackend
      (.new 0 0) "" "" "" 1 "0000-0000-0000-0000" ⟨.txt, none⟩ true).2.servesConfig = false := by
  have htoken : normalizeShareFeedToken "0000-0000-0000-0000" = some "0000000000000000" := by
    decide +kernel
  refine ⟨by decide +kernel, (share_feed_obeys_access_iff htoken rfl rfl rfl).mpr ?_⟩
  refine Or.inr (Or.inr (Or.inr ?_))
  rintro ⟨child, node, inbound, hchild, -, hini, -⟩
  obtain rfl := Option.some.inj hchild
  exact absurd hini (by decide)

/-- A child of the WireGuard family is served whatever the owner's access. -/
theorem not_share_feed_obeys_access :
    ¬ ∀ (b : FeedBackend) (metrics : MetricStorage) (title baseUrl supportContact : String)
      (now : DateTime) (rawToken token : String) (query : ShareFeedQuery) (admitted : Bool)
      (row : ShareTokenRow) (sub : Subscription) (w : World),
      normalizeShareFeedToken rawToken = some token → w.db.shareTokens.lookup token = some row →
      w.mem.subscriptions.lookup row.subscriptionId = some sub →
      servingAccess sub false now = .expired →
      (w.shareFeedHandler b metrics title baseUrl supportContact now rawToken query
        admitted).2.servesConfig = false := by
  intro h
  have hserved := h iniBackend (.new 0 0) "" "" "" 1 "0000-0000-0000-0000"
    "0000000000000000" ⟨.txt, none⟩ true _ _ (sharedWorld shareConn) (by decide +kernel) rfl rfl rfl
  exact absurd hserved (by decide +kernel)

end World

end Fcore
