import Fcore.Handlers.Amnezia

/-!
# Which addresses the cards carry

A node holds a connection when it serves, lies in the environment of the
connection, has an inbound of its tag and is not excluded by its pin. A card of
a single node carries addresses of a node that holds its connection. A pool card
carries the addresses of all members of the pool, so it depends on the members
whether they do too.
-/

namespace Fcore

/-- The node serves the connection. -/
def Node.Holds (connNodes : Table Uuid Uuid) (connId : Uuid) (conn : Conn) (node : Node) : Prop :=
  node.status.isServing ∧ node.env = conn.env ∧ node.hasInbound conn.proto.proto ∧
    pinnedTo connNodes connId node.uuid

def GatewayConnection.Advertises (card : GatewayConnection) (ip : String) : Prop :=
  ip ∈ card.nodeIps.getD [] ∨ ip ∈ card.nodePorts.getD ∅

variable {node : Node} {connId : Uuid} {conn : Conn}

section Pool

variable {b : GatewayBackend} {nodes : Nodes} {env : Env} {pool ip : String} {tag : Tag}

theorem mem_poolMembers :
    node ∈ poolMembers nodes env pool ↔ node ∈ nodes.all ∧ node.status.isServing ∧
      node.env = env ∧ normalizedPool node.pool = some pool := by
  simp [poolMembers, and_assoc]

theorem mem_insertNodePorts {out : Table String UInt16} :
    ip ∈ insertNodePorts b tag out node ↔
      (node.inbounds.lookup tag).isSome ∧ ip ∈ node.entryIps b.v4Text ∨ ip ∈ out := by
  unfold insertNodePorts
  cases node.inbounds.lookup tag with
  | none => simp
  | some inbound => simp [AList.mem_foldl_insert, nodePortsOfNode]

theorem mem_nodePortsOfMembers {members : List Node} :
    ip ∈ nodePortsOfMembers b members tag ↔
      ∃ node ∈ members, (node.inbounds.lookup tag).isSome ∧ ip ∈ node.entryIps b.v4Text := by
  have hfold : ∀ out, ip ∈ members.foldl (insertNodePorts b tag) out ↔
      (∃ node ∈ members, (node.inbounds.lookup tag).isSome ∧ ip ∈ node.entryIps b.v4Text) ∨
        ip ∈ out := by
    induction members with
    | nil => simp
    | cons node members ih =>
      intro out
      rw [List.foldl_cons, ih, mem_insertNodePorts, List.exists_mem_cons_iff, or_assoc]
      exact or_left_comm
  simpa [nodePortsOfMembers] using hfold ∅

theorem mem_pooledNodePorts :
    ip ∈ pooledNodePorts b nodes env pool tag ↔ ∃ node ∈ nodes.all, node.status.isServing ∧
      node.env = env ∧ normalizedPool node.pool = some pool ∧
      (node.inbounds.lookup tag).isSome ∧ ip ∈ node.entryIps b.v4Text := by
  simp only [pooledNodePorts, mem_nodePortsOfMembers, mem_poolMembers, and_assoc]

theorem advertises_fillPoolCard (key : Uuid × Tag × String) (card : GatewayConnection)
    (hips : card.nodeIps = none) (hports : card.nodePorts = none) :
    (fillPoolCard b nodes key card).Advertises ip ↔
      ip ∈ pooledNodePorts b nodes (Env.ofStored b.toLowercase card.env) key.2.2 key.2.1 := by
  unfold fillPoolCard
  dsimp only
  split
  · rename_i hempty
    have : ip ∉ pooledNodePorts b nodes (Env.ofStored b.toLowercase card.env) key.2.2 key.2.1 := by
      rw [AList.mem_keys, AList.keys, hempty]
      simp
    simp [GatewayConnection.Advertises, hips, hports, this]
  · simp [GatewayConnection.Advertises, sortedKeys, AList.mem_keys]

theorem advertises_nodeCard {connLabels : Table Uuid String}
    (h : (nodeCard b connLabels node connId conn).Advertises ip) : ip ∈ node.entryIps b.v4Text := by
  -- a node with a list of addresses shows it, one without shows nothing
  simp only [GatewayConnection.Advertises, nodeCard] at h
  cases hips : node.nodeIps with
  | none => simp [hips] at h
  | some ips =>
    cases ips with
    | nil => simp [hips] at h
    | cons first rest =>
      have hentry : node.entryIps b.v4Text = (first :: rest).map b.v4Text := by
        rw [Node.entryIps, hips]
        rfl
      simpa [hips, hentry] using h

end Pool

section Gateway

variable {b : GatewayBackend} {nodes : Nodes} {connNodes : Table Uuid Uuid}
  {connLabels : Table Uuid String} {protocol : String} {conns : Option (List (Uuid × Conn))}
  {collapsePools : Bool}

/-- A connection of the list gets a card on a node of the registry. -/
structure Offered (nodes : Nodes) (connNodes : Table Uuid Uuid) (protocol : String)
    (conns : Option (List (Uuid × Conn))) (node : Node) (connId : Uuid) (conn : Conn) : Prop where
  registered : node ∈ nodes.all
  serving : node.status.isServing
  listed : (connId, conn) ∈ conns.getD []
  offered : offeredOn connNodes protocol node connId conn

theorem Offered.holds (h : Offered nodes connNodes protocol conns node connId conn) :
    node.Holds connNodes connId conn := by
  have hoffered := h.offered
  simp only [offeredOn, Bool.and_eq_true, decide_eq_true_eq] at hoffered
  obtain ⟨⟨⟨⟨-, hpin⟩, -⟩, hinbound⟩, henv⟩ := hoffered
  exact ⟨h.serving, henv.symm, hinbound, hpin⟩

/-- The pool cards are those of connections offered on a member. -/
def PoolCardOf (b : GatewayBackend) (nodes : Nodes) (connNodes : Table Uuid Uuid)
    (connLabels : Table Uuid String) (protocol : String) (conns : Option (List (Uuid × Conn)))
    (key : Uuid × Tag × String) (card : GatewayConnection) : Prop :=
  ∃ node conn, Offered nodes connNodes protocol conns node key.1 conn ∧
    conn.proto.proto = key.2.1 ∧ normalizedPool node.pool = some key.2.2 ∧
    card = poolCard b connLabels node key.1 conn key.2.2

/-- The other cards are those of connections offered on a single node. -/
def NodeCardOf (b : GatewayBackend) (nodes : Nodes) (connNodes : Table Uuid Uuid)
    (connLabels : Table Uuid String) (protocol : String) (conns : Option (List (Uuid × Conn)))
    (card : GatewayConnection) : Prop :=
  ∃ node connId conn, Offered nodes connNodes protocol conns node connId conn ∧
    card = nodeCard b connLabels node connId conn

/-- Where pools are collapsed, the node of a single card is in none. -/
def SingleCardOf (b : GatewayBackend) (nodes : Nodes) (connNodes : Table Uuid Uuid)
    (connLabels : Table Uuid String) (protocol : String) (conns : Option (List (Uuid × Conn)))
    (collapsePools : Bool) (card : GatewayConnection) : Prop :=
  ∃ node connId conn, Offered nodes connNodes protocol conns node connId conn ∧
    (collapsePools = true → normalizedPool node.pool = none) ∧
    card = nodeCard b connLabels node connId conn

theorem sound_collectCards :
    (collectCards b nodes connNodes connLabels protocol conns collapsePools).Sound
      (fun key card => collapsePools = true ∧
        PoolCardOf b nodes connNodes connLabels protocol conns key card)
      (SingleCardOf b nodes connNodes connLabels protocol conns collapsePools) := by
  apply Run.invariant_foldl Slots.sound_empty
  intro cards node hnode hcards
  unfold addNodeCards
  split
  · rename_i hserving
    apply Run.invariant_foldl hcards
    intro cards entry hentry hcards
    unfold addCard
    split
    · rename_i hoffered
      have hoffer : Offered nodes connNodes protocol conns node entry.1 entry.2 :=
        ⟨hnode, hserving, hentry, hoffered⟩
      split
      · rename_i pool hpool
        cases collapsePools with
        | false => simp at hpool
        | true => exact hcards.claim ⟨rfl, node, entry.2, hoffer, rfl, hpool, rfl⟩
      · rename_i hnone
        refine hcards.push ⟨node, entry.1, entry.2, hoffer, fun hcollapse => ?_, rfl⟩
        rwa [if_pos hcollapse] at hnone
    · exact hcards
  · exact hcards

/-- A connection offered on a member of a pool has a card for that pool. -/
theorem isSome_index_collectCards (b : GatewayBackend) (connLabels : Table Uuid String)
    {pool : String} (h : Offered nodes connNodes protocol conns node connId conn)
    (hpool : normalizedPool node.pool = some pool) :
    ((collectCards b nodes connNodes connLabels protocol conns true).index.lookup
      (connId, conn.proto.proto, pool)).isSome := by
  let Q : Cards → Prop := fun cards =>
    (cards.index.lookup (connId, conn.proto.proto, pool)).isSome
  -- no round forgets a key
  have hkeep : ∀ node cards entry, Q cards →
      Q (addCard b connNodes connLabels protocol true node cards entry) := by
    intro node cards entry hcards
    unfold addCard
    split
    · split
      · exact Slots.isSome_lookup_claim_of hcards
      · exact hcards
    · exact hcards
  apply Run.reach_foldl (Q := Q) h.registered
  · intro cards
    rw [addNodeCards, if_pos h.serving]
    apply Run.reach_foldl (Q := Q) h.listed _ (hkeep node)
    intro cards
    have hclaim : addCard b connNodes connLabels protocol true node cards (connId, conn) =
        cards.claim (connId, conn.proto.proto, pool)
          (poolCard b connLabels node connId conn pool) := by
      simp only [addCard, h.offered, hpool, if_true]
    rw [hclaim]
    exact Slots.isSome_lookup_claim _ _ _
  · intro cards node' hcards
    unfold addNodeCards
    split
    · exact Run.invariant_foldl hcards fun cards entry _ => hkeep node' cards entry
    · exact hcards

/-- Every card is that of a single node, a filled pool card, or the card for an empty
list. -/
theorem mem_connectionsForProtocol_single {card : GatewayConnection}
    (h : card ∈ connectionsForProtocol b nodes connNodes connLabels protocol conns
      collapsePools) :
    card = allCountriesCard ∨
      SingleCardOf b nodes connNodes connLabels protocol conns collapsePools card ∨
      collapsePools = true ∧ ∃ key old,
        PoolCardOf b nodes connNodes connLabels protocol conns key old ∧
        card = fillPoolCard b nodes key old := by
  dsimp only [connectionsForProtocol] at h
  split at h
  · exact .inl (List.mem_singleton.mp h)
  · right
    rcases sound_collectCards.of_mem_fill h with
      ⟨key, old, -, ⟨hcollapse, hold⟩, rfl⟩ | hplain
    · exact .inr ⟨hcollapse, key, old, hold, rfl⟩
    · exact .inl hplain

theorem mem_connectionsForProtocol {card : GatewayConnection}
    (h : card ∈ connectionsForProtocol b nodes connNodes connLabels protocol conns
      collapsePools) :
    card = allCountriesCard ∨ NodeCardOf b nodes connNodes connLabels protocol conns card ∨
      collapsePools = true ∧ ∃ key old,
        PoolCardOf b nodes connNodes connLabels protocol conns key old ∧
        card = fillPoolCard b nodes key old := by
  refine (mem_connectionsForProtocol_single h).imp_right (Or.imp_left ?_)
  rintro ⟨node, connId, conn, hoffer, -, hcard⟩
  exact ⟨node, connId, conn, hoffer, hcard⟩

theorem exists_poolCard_mem {pool : String}
    (h : Offered nodes connNodes protocol conns node connId conn)
    (hpool : normalizedPool node.pool = some pool) :
    ∃ old, PoolCardOf b nodes connNodes connLabels protocol conns
        (connId, conn.proto.proto, pool) old ∧
      fillPoolCard b nodes (connId, conn.proto.proto, pool) old ∈
        connectionsForProtocol b nodes connNodes connLabels protocol conns true := by
  obtain ⟨old, ⟨-, hold⟩, hmem⟩ := sound_collectCards.exists_mem_fill (fillPoolCard b nodes)
    (isSome_index_collectCards b connLabels h hpool)
  refine ⟨old, hold, ?_⟩
  dsimp only [connectionsForProtocol]
  rw [if_neg]
  · exact hmem
  · simpa using List.ne_nil_of_mem hmem

theorem connectionUuid_fillPoolCard (key : Uuid × Tag × String) (card : GatewayConnection) :
    (fillPoolCard b nodes key card).connectionUuid = card.connectionUuid := by
  dsimp only [fillPoolCard]
  split <;> rfl

theorem nodeId_fillPoolCard (key : Uuid × Tag × String) (card : GatewayConnection) :
    (fillPoolCard b nodes key card).nodeId = card.nodeId := by
  dsimp only [fillPoolCard]
  split <;> rfl

/-- The cards advertise only nodes that hold the connection exactly when pools
are not collapsed, or the entry addresses of every pool a connection is offered
on are covered by nodes that hold it. -/
theorem cards_advertise_holders_iff (hconns : ((conns.getD []).map Prod.fst).Nodup) :
    (∀ card ∈ connectionsForProtocol b nodes connNodes connLabels protocol conns collapsePools,
      ∀ ip, card.Advertises ip → ∃ conn, (card.connectionUuid, conn) ∈ conns.getD [] ∧
        ∃ node ∈ nodes.all, node.Holds connNodes card.connectionUuid conn ∧
          ip ∈ node.entryIps b.v4Text) ↔
      (collapsePools = true → ∀ node connId conn pool,
        Offered nodes connNodes protocol conns node connId conn →
        normalizedPool node.pool = some pool →
        ∀ member ∈ nodes.all, member.status.isServing →
          member.env = Env.ofStored b.toLowercase conn.env.asStr →
          normalizedPool member.pool = some pool →
          (member.inbounds.lookup conn.proto.proto).isSome →
          ∀ ip ∈ member.entryIps b.v4Text, ∃ holder ∈ nodes.all,
            holder.Holds connNodes connId conn ∧ ip ∈ holder.entryIps b.v4Text) := by
  have hunique : ∀ {connId conn conn'}, (connId, conn) ∈ conns.getD [] →
      (connId, conn') ∈ conns.getD [] → conn = conn' := by
    intro connId conn conn' h h'
    exact (Prod.mk.inj (List.inj_on_of_nodup_map hconns h h' rfl)).2
  constructor
  · rintro h rfl node connId conn pool hoffer hpool member hmember hserving henv hmpool hinbound
      ip hip
    obtain ⟨old, ⟨node', conn', hoffer', -, -, rfl⟩, hmem⟩ := exists_poolCard_mem hoffer hpool
    obtain rfl : conn = conn' := hunique hoffer.listed hoffer'.listed
    have hadvertises := (advertises_fillPoolCard (connId, conn.proto.proto, pool)
      (poolCard b connLabels node' connId conn pool) rfl rfl).mpr
      (mem_pooledNodePorts.mpr ⟨member, hmember, hserving, henv, hmpool, hinbound, hip⟩)
    obtain ⟨conn'', hlisted, holder, hholder, hholds, hip⟩ := h _ hmem ip hadvertises
    rw [connectionUuid_fillPoolCard] at hlisted hholds
    obtain rfl : conn = conn'' := hunique hoffer.listed hlisted
    exact ⟨holder, hholder, hholds, hip⟩
  · intro h card hcard ip hip
    rcases mem_connectionsForProtocol hcard with rfl | ⟨node, connId, conn, hoffer, rfl⟩ |
      ⟨hcollapse, ⟨connId, tag, pool⟩, old, ⟨node, conn, hoffer, rfl, hpool, rfl⟩, rfl⟩
    · simp [GatewayConnection.Advertises, allCountriesCard] at hip
    · exact ⟨conn, hoffer.listed, node, hoffer.registered, hoffer.holds, advertises_nodeCard hip⟩
    · rw [advertises_fillPoolCard _ _ rfl rfl, mem_pooledNodePorts] at hip
      obtain ⟨member, hmember, hserving, henv, hmpool, hinbound, hip⟩ := hip
      rw [connectionUuid_fillPoolCard]
      refine ⟨conn, hoffer.listed, ?_⟩
      exact h hcollapse node connId conn pool hoffer hpool member hmember hserving henv hmpool
        hinbound ip hip

end Gateway

def twoAddressGateway : GatewayBackend where
  toBackend := { constantBackend with
    ipText := fun ip => if ip = .v4 1 then "203.0.113.1" else "203.0.113.2" }
  toUppercase := id
  jsonText _ := ""
  sha256 _ := ""

/-- A node of the pool `EU` with one VLESS inbound. -/
def euNode (uuid : Uuid) (address : Ipv4Addr) : Node :=
  { Node.bare uuid .ru with
    address := address
    inbounds := AList.singleton .vlessTcpReality
      { tag := .vlessTcpReality, port := 443, wg := none, awg := none }
    pool := some "EU" }

def euPool : Nodes := AList.singleton .ru [euNode 9 1, euNode 8 2]

def vlessConn : Conn where
  env := .ru
  proto := .xray .vlessTcpReality
  subscriptionId := none
  createdAt := 0
  modifiedAt := 0
  expiresAt := none
  isDeleted := false

/-- The unpinned connection: both members of the pool hold it. -/
theorem cards_advertise_holders_unpinned :
    (connectionsForProtocol twoAddressGateway euPool ∅ ∅ "vless" (some [(5, vlessConn)])
      true).map (fun card => card.nodeIps) = [some ["203.0.113.1", "203.0.113.2"]] ∧
    ∀ card ∈ connectionsForProtocol twoAddressGateway euPool ∅ ∅ "vless"
      (some [(5, vlessConn)]) true, ∀ ip, card.Advertises ip →
      ∃ conn, (card.connectionUuid, conn) ∈ [(5, vlessConn)] ∧
        ∃ node ∈ euPool.all, node.Holds ∅ card.connectionUuid conn ∧
          ip ∈ node.entryIps twoAddressGateway.v4Text := by
  refine ⟨by decide +kernel, (cards_advertise_holders_iff (by decide)).mpr ?_⟩
  intro _ node connId conn pool hoffer _ member hmember hserving _ _ _ ip hip
  obtain ⟨rfl, rfl⟩ := Prod.mk.inj (List.mem_singleton.mp hoffer.listed)
  have hheld : ∀ member ∈ euPool.all, member.env = .ru ∧ member.hasInbound .vlessTcpReality := by
    decide
  exact ⟨member, hmember, ⟨hserving, (hheld member hmember).1, (hheld member hmember).2, rfl⟩, hip⟩

/-- A connection pinned to the first node of the pool is shown with the address
of the second. -/
theorem not_cards_advertise_holders :
    ¬ ∀ (b : GatewayBackend) (nodes : Nodes) (connNodes : Table Uuid Uuid)
      (connLabels : Table Uuid String) (protocol : String) (conns : Option (List (Uuid × Conn)))
      (collapsePools : Bool), ((conns.getD []).map Prod.fst).Nodup →
      ∀ card ∈ connectionsForProtocol b nodes connNodes connLabels protocol conns collapsePools,
        ∀ ip, card.Advertises ip → ∃ conn, (card.connectionUuid, conn) ∈ conns.getD [] ∧
          ∃ node ∈ nodes.all, node.Holds connNodes card.connectionUuid conn ∧
            ip ∈ node.entryIps b.v4Text := by
  intro h
  have hcards : (connectionsForProtocol twoAddressGateway euPool (AList.singleton 5 9) ∅ "vless"
      (some [(5, vlessConn)]) true).map (fun card => (card.connectionUuid, card.nodeIps)) =
      [(5, some ["203.0.113.1", "203.0.113.2"])] := by decide +kernel
  obtain ⟨card, hcard, hshown⟩ := List.mem_map.mp (hcards ▸ List.mem_singleton_self _)
  obtain ⟨hid, hips⟩ := Prod.mk.inj hshown
  obtain ⟨conn, -, node, hnode, ⟨-, -, -, hpin⟩, hip⟩ :=
    h _ _ _ _ _ _ _ (by decide) card hcard "203.0.113.2" (.inl (by simp [hips]))
  rw [hid] at hpin
  have hfirst : ∀ node ∈ euPool.all, pinnedTo (AList.singleton 5 9) 5 node.uuid →
      "203.0.113.2" ∉ node.entryIps twoAddressGateway.v4Text := by decide +kernel
  exact hfirst node hnode hpin hip

end Fcore
