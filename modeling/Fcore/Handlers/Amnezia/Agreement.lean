import Fcore.Handlers.Amnezia.Holders
import Fcore.Handlers.Amnezia.Config
import Fcore.Memory.Registry
import Mathlib.Data.Countable.Basic
import Mathlib.Logic.Encodable.Basic
import Mathlib.Logic.Equiv.List
import Mathlib.Tactic.DeriveCountable

/-!
# Whether the list and the configuration agree

The card of a connection on a node and the configuration of the same connection on the same
node both carry addresses, ports, weights and a revision, and a client compares them. The
two are computed apart. A pool card digests the ports and the servers of the pool, the
configuration always digests one node; an empty list of addresses is absent on a card and
present in the configuration. So they agree exactly on nodes that are in no pool and do not
have an empty list of addresses (`agrees_iff`).
-/

namespace Fcore

/-- The fields a client compares are the same. -/
def GatewayConnection.Agrees (card : GatewayConnection) (response : GatewayConfigResponse) :
    Prop :=
  response.nodeIps = card.nodeIps ∧ response.nodePorts = card.nodePorts ∧
    response.nodeWeights = card.nodeWeights ∧ response.configRev = card.configRev

theorem configRev_ne_configRevPool {b : GatewayBackend} (hdigest : Function.Injective b.jsonDigest)
    (node : Node) (tag : Tag) (ips : List String) (members : List Node)
    (ports : Table String UInt16) :
    configRev b node tag ips ≠ some (configRevPool b members tag ports) := by
  intro h
  obtain ⟨inbound, -, hsame⟩ := Option.map_eq_some_iff.mp h
  have hlength := Json.length_of_ofFields_eq (hdigest hsame)
  simp at hlength

section Config

variable {b : ConfigBackend} {mem : Cache} {params : GatewayConfigParams} {connId : Uuid}
  {conn : Conn} {node : Node}

theorem isSome_inbound_of_serverConfigJson {config : Json}
    (h : serverConfigJson b connId conn node = .ok config) :
    (node.inbounds.lookup conn.proto.proto).isSome := by
  have hfirst : ∀ (protocol : String) (f : Inbound → Except Reply Json),
      (okOr (.internalError ("Node has no matching " ++ protocol ++ " inbound"))
        (node.inbounds.lookup conn.proto.proto) >>= f) = .ok config →
      (node.inbounds.lookup conn.proto.proto).isSome := by
    intro protocol f h
    obtain ⟨inbound, hinbound, -⟩ := exists_of_bind_ok h
    rw [okOr_eq_ok_iff.mp hinbound]
    rfl
  -- whatever the protocol, the inbound is the first thing that is read
  unfold serverConfigJson at h
  split at h
  · exact hfirst _ _ h
  · exact hfirst _ _ h
  · exact hfirst _ _ h
  · exact hfirst _ _ h
  · exact hfirst _ _ h

/-- The fields of a configuration that a card carries too. -/
theorem gatewayConfig_fields {response : GatewayConfigResponse}
    (h : gatewayConfig b mem params connId conn node = .ok response) :
    (node.inbounds.lookup conn.proto.proto).isSome ∧
      (response.nodeIps, response.nodePorts, response.nodeWeights) =
        configAddresses b mem.nodes node conn.proto.proto
          (if (mem.connNodes.lookup connId).isSome then none else normalizedPool node.pool) ∧
      response.configRev = configRev b.toGatewayBackend node conn.proto.proto
        (response.nodeIps.getD []) := by
  obtain ⟨config, hconfig, h⟩ := exists_of_bind_ok h
  obtain ⟨encoded, -, h⟩ := exists_of_bind_ok h
  obtain rfl := Except.ok.inj h
  exact ⟨isSome_inbound_of_serverConfigJson hconfig, rfl, rfl⟩

end Config

section Cards

variable {b : ConfigBackend} {nodes : Nodes} {connLabels : Table Uuid String} {node : Node}
  {connId : Uuid} {conn : Conn} {response : GatewayConfigResponse}

theorem agrees_nodeCard_iff
    (haddresses : (response.nodeIps, response.nodePorts, response.nodeWeights) =
      configAddresses b nodes node conn.proto.proto none)
    (hrev : response.configRev = configRev b.toGatewayBackend node conn.proto.proto
      (response.nodeIps.getD [])) :
    (nodeCard b.toGatewayBackend connLabels node connId conn).Agrees response ↔
      node.nodeIps ≠ some [] := by
  obtain ⟨hips, hports, hweights⟩ : response.nodeIps = _ ∧ response.nodePorts = _ ∧
    response.nodeWeights = _ := by simpa only [configAddresses, Prod.mk.injEq] using haddresses
  simp only [GatewayConnection.Agrees, nodeCard, hrev, hips, hports, hweights]
  cases node.nodeIps with
  | none => simp
  | some ips =>
    cases ips with
    | nil => simp
    | cons first rest => simp

/-- A pool card never agrees: it carries the revision of the pool, or none at all. -/
theorem not_agrees_fillPoolCard (hdigest : Function.Injective b.jsonDigest)
    (hinbound : (node.inbounds.lookup conn.proto.proto).isSome) {ips : List String}
    (hrev : response.configRev = configRev b.toGatewayBackend node conn.proto.proto ips)
    (key : Uuid × Tag × String) (htag : conn.proto.proto = key.2.1) (shown : Node) (pool : String) :
    ¬ (fillPoolCard b.toGatewayBackend nodes key
      (poolCard b.toGatewayBackend connLabels shown connId conn pool)).Agrees response := by
  rintro ⟨-, -, -, hsame⟩
  rw [hrev] at hsame
  unfold fillPoolCard at hsame
  dsimp only at hsame
  split at hsame
  · have hsome : (configRev b.toGatewayBackend node conn.proto.proto ips).isSome := by
      rw [configRev, Option.isSome_map]
      exact hinbound
    rw [hsame] at hsome
    cases hsome
  · rw [← htag] at hsame
    exact configRev_ne_configRevPool hdigest _ _ _ _ _ hsame

end Cards

/-- A card of a connection of the cache on a node is shown, and its configuration is
answered. -/
structure BothAnswer (b : ConfigBackend) (protocol : String) (conns : Option (List (Uuid × Conn)))
    (subId : Uuid) (params : GatewayConfigParams) (trafficModeEnabled : Bool)
    (meteredConns : List String) (now : DateTime) (w : World) (card : GatewayConnection)
    (response : GatewayConfigResponse) : Prop where
  filed : w.mem.nodes.Filed
  cached : ∀ c ∈ conns.getD [], w.mem.connections.lookup c.1 = some c.2
  shown : card ∈ connectionsForProtocol b.toGatewayBackend w.mem.nodes w.mem.connNodes
    w.mem.connLabels protocol conns true
  offers : card ≠ allCountriesCard
  connection : params.connectionId = some card.connectionUuid
  node : params.nodeId = some card.nodeId
  answered : (w.buildGatewayConfigResponse b subId params trafficModeEnabled meteredConns now).2 =
    .ok response

section Agreement

variable {b : ConfigBackend} {protocol : String} {conns : Option (List (Uuid × Conn))}
  {subId : Uuid} {params : GatewayConfigParams} {trafficModeEnabled : Bool}
  {meteredConns : List String} {now : DateTime} {w : World} {card : GatewayConnection}
  {response : GatewayConfigResponse} {conn : Conn} {node : Node}

theorem BothAnswer.gatewayConfig_ok (h : BothAnswer b protocol conns subId params
    trafficModeEnabled meteredConns now w card response)
    (hconn : w.mem.connections.lookup card.connectionUuid = some conn)
    (hnode : node ∈ w.mem.nodes.group conn.env) (hid : node.uuid = card.nodeId) :
    gatewayConfig b w.mem params card.connectionUuid conn node = .ok response := by
  obtain ⟨connId, conn', node', hselected, hconfig⟩ :=
    World.buildGatewayConfigResponse_ok_iff.mp h.answered
  obtain ⟨trafficMode, hsuits⟩ := World.configSuits_of_selected hselected
  obtain ⟨rfl, hid', -⟩ := hsuits.of_asked h.connection h.node
  obtain rfl : conn = conn' := Option.some_inj.mp (hconn.symm.trans hsuits.cached)
  obtain rfl : node = node' :=
    List.inj_on_of_nodup_map (h.filed.nodup conn.env) hnode hsuits.filed (hid.trans hid'.symm)
  exact hconfig

/-- A connection that is offered on a node of the identifier is offered on that node. -/
theorem BothAnswer.offered_node (h : BothAnswer b protocol conns subId params
    trafficModeEnabled meteredConns now w card response)
    (hconn : w.mem.connections.lookup card.connectionUuid = some conn)
    (hnode : node ∈ w.mem.nodes.group conn.env) {conn' : Conn} {node' : Node}
    (hoffer : Offered w.mem.nodes w.mem.connNodes protocol conns node' card.connectionUuid conn')
    (hid : node.uuid = node'.uuid) : conn' = conn ∧ node' = node := by
  have hsame : conn' = conn :=
    Option.some_inj.mp ((h.cached _ hoffer.listed).symm.trans hconn)
  have hgroup := Nodes.mem_group_env h.filed hoffer.registered
  rw [hoffer.holds.2.1, hsame] at hgroup
  exact ⟨hsame, List.inj_on_of_nodup_map (h.filed.nodup conn.env) hgroup hnode hid.symm⟩

/-- The two answers agree exactly on nodes that are in no pool and do not have an empty list
of addresses. -/
theorem agrees_iff (hdigest : Function.Injective b.jsonDigest)
    (h : BothAnswer b protocol conns subId params trafficModeEnabled meteredConns now w card
      response)
    (hconn : w.mem.connections.lookup card.connectionUuid = some conn)
    (hnode : node ∈ w.mem.nodes.group conn.env) (hid : node.uuid = card.nodeId) :
    card.Agrees response ↔ normalizedPool node.pool = none ∧ node.nodeIps ≠ some [] := by
  obtain ⟨hinbound, haddresses, hrev⟩ := gatewayConfig_fields (h.gatewayConfig_ok hconn hnode hid)
  rcases mem_connectionsForProtocol_single h.shown with hall |
    ⟨node', connId, conn', hoffer, hpool, rfl⟩ |
    ⟨-, key, old, ⟨node', conn', hoffer, htag, hpool, rfl⟩, rfl⟩
  · exact absurd hall h.offers
  · obtain ⟨rfl, rfl⟩ := h.offered_node hconn hnode hoffer hid
    rw [hpool rfl, ite_self] at haddresses
    rw [agrees_nodeCard_iff haddresses hrev, hpool rfl]
    simp
  · rw [nodeId_fillPoolCard] at hid
    have hoffer' : Offered w.mem.nodes w.mem.connNodes protocol conns node'
        (fillPoolCard b.toGatewayBackend w.mem.nodes key (poolCard b.toGatewayBackend
          w.mem.connLabels node' key.1 conn' key.2.2)).connectionUuid conn' := by
      rw [connectionUuid_fillPoolCard]
      exact hoffer
    obtain ⟨rfl, rfl⟩ := h.offered_node hconn hnode hoffer' hid
    refine iff_of_false ?_ ?_
    · exact not_agrees_fillPoolCard hdigest hinbound hrev key htag node' key.2.2
    · rintro ⟨hnone, -⟩
      rw [hpool] at hnone
      cases hnone

end Agreement

section Texts

instance countableChar : Countable Char :=
  (Function.LeftInverse.injective Char.ofNat_toNat).countable

instance countableString : Countable String :=
  (Function.LeftInverse.injective fun _ => String.ofList_toList).countable

deriving instance Countable for Json, Json.Items, Json.Fields

theorem exists_jsonText_injective : ∃ jsonText : Json → String, Function.Injective jsonText := by
  obtain ⟨number, hnumber⟩ := exists_injective_nat Json
  exact ⟨fun value => toString (number value), Text.toString_nat_injective.comp hnumber⟩

end Texts

/-- A backend with a given text of JSON values. -/
def textBackend (jsonText : Json → String) : ConfigBackend where
  toBackend := constantBackend
  toUppercase := id
  jsonText := jsonText
  sha256 := id
  uriLink _ _ _ _ _ _ := .ok ""
  gzip bytes := some bytes
  base64Standard _ := ""
  base64UrlSafeNoPad _ := ""
  rfc3339 _ := ""

/-- A node behind a CDN. -/
def cdnNode (pool : Option String) : Node :=
  { Node.bare 9 .ru with
    inbounds := AList.singleton .vlessXhttpCdn
      { tag := .vlessXhttpCdn, port := 443, wg := none, awg := none
        streamSettings := some ⟨.xhttp, none, none, none, some ⟨"/", none, none⟩, none⟩ }
    pool := pool }

def cdnConn : Conn := .new .ru (some 1) (.xray .vlessXhttpCdn) none 0

def cdnWorld (pool : Option String) : World :=
  let w := World.init (fun _ => false) fun _ => false
  { w with mem := { w.mem with
      subscriptions := AList.singleton 1 (.new 1 "" none none 0)
      connections := AList.singleton 5 cdnConn
      nodes := AList.singleton .ru [cdnNode pool] } }

theorem filed_cdnWorld (pool : Option String) : (cdnWorld pool).mem.nodes.Filed :=
  Nodes.filed_empty.add (cdnNode pool)

def cdnParams : GatewayConfigParams :=
  ⟨"vless", "amnezia-premium", none, none, some 5, some 9⟩

/-- Any card for the connection on the node can be asked for. -/
theorem exists_bothAnswer (jsonText : Json → String) {pool : Option String}
    {card : GatewayConnection}
    (hshown : card ∈ connectionsForProtocol (textBackend jsonText).toGatewayBackend
      (cdnWorld pool).mem.nodes ∅ ∅ "vless" (some [(5, cdnConn)]) true)
    (hconn : card.connectionUuid = 5) (hnode : card.nodeId = 9) :
    ∃ response, BothAnswer (textBackend jsonText) "vless" (some [(5, cdnConn)]) 1 cdnParams false
      [] 0 (cdnWorld pool) card response := by
  refine ⟨_, filed_cdnWorld pool, ?_, hshown, ?_, by rw [hconn]; rfl, by rw [hnode]; rfl, rfl⟩
  · intro c hc
    obtain rfl := List.mem_singleton.mp hc
    rfl
  · rintro rfl
    exact absurd hconn (by decide)

/-- The node in no pool: both answers are the same. -/
theorem agrees_single : ∃ b card response,
    BothAnswer b "vless" (some [(5, cdnConn)]) 1 cdnParams false [] 0 (cdnWorld none) card
      response ∧ card.Agrees response := by
  obtain ⟨jsonText, hinjective⟩ := exists_jsonText_injective
  have hdigest : Function.Injective (textBackend jsonText).jsonDigest := hinjective
  have hshown : nodeCard (textBackend jsonText).toGatewayBackend ∅ (cdnNode none) 5 cdnConn ∈
      connectionsForProtocol (textBackend jsonText).toGatewayBackend (cdnWorld none).mem.nodes ∅ ∅
        "vless" (some [(5, cdnConn)]) true := List.mem_singleton_self _
  obtain ⟨response, h⟩ := exists_bothAnswer jsonText hshown rfl rfl
  have hnode : cdnNode none ∈ (cdnWorld none).mem.nodes.group cdnConn.env :=
    List.mem_singleton_self _
  have hagrees := (agrees_iff hdigest h rfl hnode rfl).mpr ⟨rfl, nofun⟩
  exact ⟨_, _, response, h, hagrees⟩

/-- On a node of a pool the revision of the configuration is not that of the card. -/
theorem not_agrees :
    ¬ ∀ (b : ConfigBackend) (protocol : String) (conns : Option (List (Uuid × Conn)))
      (subId : Uuid) (params : GatewayConfigParams) (trafficModeEnabled : Bool)
      (meteredConns : List String) (now : DateTime) (w : World) (card : GatewayConnection)
      (response : GatewayConfigResponse), Function.Injective b.jsonDigest →
      BothAnswer b protocol conns subId params trafficModeEnabled meteredConns now w card
        response → card.Agrees response := by
  intro h
  obtain ⟨jsonText, hinjective⟩ := exists_jsonText_injective
  have hdigest : Function.Injective (textBackend jsonText).jsonDigest := hinjective
  have hoffer : Offered (cdnWorld (some "EU")).mem.nodes ∅ "vless" (some [(5, cdnConn)])
      (cdnNode (some "EU")) 5 cdnConn :=
    ⟨List.mem_singleton_self _, rfl, List.mem_singleton_self _, by decide +kernel⟩
  have hpool : normalizedPool (cdnNode (some "EU")).pool = some "EU" := by decide +kernel
  have hcard : ∃ old, PoolCardOf (textBackend jsonText).toGatewayBackend _ ∅ ∅ "vless" _ _ old ∧
      fillPoolCard (textBackend jsonText).toGatewayBackend _ _ old ∈ _ :=
    exists_poolCard_mem hoffer hpool
  obtain ⟨old, ⟨node, conn, hoffer', -, -, rfl⟩, hshown⟩ := hcard
  obtain rfl := List.mem_singleton.mp hoffer'.registered
  obtain ⟨-, rfl⟩ := Prod.mk.inj (List.mem_singleton.mp hoffer'.listed)
  obtain ⟨response, hboth⟩ := exists_bothAnswer jsonText hshown
    (connectionUuid_fillPoolCard _ _) (nodeId_fillPoolCard _ _)
  have hnode : cdnNode (some "EU") ∈ (cdnWorld (some "EU")).mem.nodes.group cdnConn.env :=
    List.mem_singleton_self _
  have hconfig := hboth.gatewayConfig_ok rfl hnode (by rfl)
  obtain ⟨hinbound, -, hrev⟩ := gatewayConfig_fields hconfig
  have hagrees := h _ _ _ _ _ _ _ _ _ _ _ hdigest hboth
  exact not_agrees_fillPoolCard hdigest hinbound hrev _ rfl _ _ hagrees

end Fcore
