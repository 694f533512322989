import Fcore.Handlers.Connection
import Fcore.Handlers.ShareFeed.Access
import Fcore.Handlers.SubscriptionFeed.Lines

/-!
# What the feed lists

The feed is to have one line for each host and connection that can be seen there. A node has
an inbound for a connection if the tag of the inbound is the protocol of the connection. The
feed looks for it under that protocol in the map, and tells its lines apart by the tag of
what it finds.
-/

namespace Fcore

section Visible

variable (b : FeedBackend) (mem : Cache) (req : SubscriptionInfoRequest)
  (share : Option ShareFeedScope) (trafficMode : Bool) (meteredConns : List String)

/-- The connections that the feed is about. -/
def scopedConns : List (Uuid × Conn) :=
  match req.conn with
  | some connId => (feedConns mem req share trafficMode meteredConns).filter fun c => c.1 = connId
  | none => feedConns mem req share trafficMode meteredConns

/-- The node is online and open to the connection. -/
structure OpenTo (c : Uuid × Conn) (node : Node) : Prop where
  conn : c ∈ scopedConns mem req share trafficMode meteredConns
  proto : c.2.proto.proto ∈ req.proto.tags
  env : node ∈ (mem.nodes.getByEnv c.2.env).getD []
  online : node.status = .online
  allowed : shareScopeAllows share node.uuid = true
  pinned : pinnedTo mem.connNodes c.1 node.uuid = true
  listed : personalOnGeneralList node.env.isPersonal (mem.mainFeedNodes.contains node.uuid)
    (isGeneral req share) = true

/-- A connection can be seen on a node that is open to it and has an inbound for it. -/
structure Visible (c : Uuid × Conn) (node : Node) : Prop
    extends OpenTo mem req share trafficMode meteredConns c node where
  inbound : (node.inbound c.2.proto.proto).isSome = true

def Node.feedHost (node : Node) : String := node.connectionHost fun ip => b.ipText (.v4 ip)

/-- A line is known by its host, its protocol and its connection. -/
def feedKey (host : String) (tag : Tag) (connId : Uuid) : String ×ₗ String ×ₗ ℕ :=
  toLex (host, toLex (tag.toText, connId.toNat))

/-- There is one line for each host and connection that can be seen, and no other. -/
structure ListsVisible (entries : List FeedEntry) : Prop where
  one : ∀ c node, Visible mem req share trafficMode meteredConns c node →
    (entries.map FeedEntry.key).count (feedKey (node.feedHost b) c.2.proto.proto c.1) = 1
  only : ∀ e ∈ entries, ∃ c node, Visible mem req share trafficMode meteredConns c node ∧
    e.key = feedKey (node.feedHost b) c.2.proto.proto c.1
  unshared : share = none → ∀ e ∈ entries, e.connId ∉ mem.shareConns

variable {b mem req share trafficMode meteredConns}

theorem feedKey_inj {host host' : String} {tag tag' : Tag} {connId connId' : Uuid} :
    feedKey host tag connId = feedKey host' tag' connId' ↔
      host = host' ∧ tag = tag' ∧ connId = connId' := by
  simp [feedKey, Tag.toText_injective.eq_iff, BitVec.toNat_inj]

theorem scopedConns_inv {c : Uuid × Conn}
    (h : c ∈ scopedConns mem req share trafficMode meteredConns) :
    mem.connections.lookup c.1 = some c.2 ∧ (share = none → c.1 ∉ mem.shareConns) := by
  have hfeed : c ∈ feedConns mem req share trafficMode meteredConns := by
    unfold scopedConns at h
    split at h
    · exact (List.mem_filter.mp h).1
    · exact h
  obtain ⟨hconn, hshown⟩ := List.mem_filter.mp hfeed
  refine ⟨(Connections.mem_getBySubscriptionId.mp hconn).1, fun hshare => ?_⟩
  simp only [hshare, Bool.and_eq_true] at hshown
  simpa using hshown.1.1.2

/-- The lines before sorting are those of the nodes that are open to a connection. -/
theorem mem_collectEntries_iff (henv : req.env = .all) {e : FeedEntry} :
    e ∈ collectEntries b mem req share (scopedConns mem req share trafficMode meteredConns) ↔
      ∃ c node, OpenTo mem req share trafficMode meteredConns c node ∧
        feedLine b mem c node = some e := by
  simp only [collectEntries_eq, List.mem_flatMap, List.mem_filter, List.contains_iff_mem, feedLines,
    feedLists, feedWalk, henv, List.mem_filterMap, Option.ite_none_right_eq_some,
    Bool.and_eq_true, decide_eq_true_eq]
  constructor
  · rintro ⟨c, ⟨hc, hproto⟩, node, hnode, ⟨honline, ⟨hshare, hpinned⟩, hlisted⟩, hline⟩
    exact ⟨c, node, ⟨hc, hproto, hnode, honline, hshare, hpinned, hlisted⟩, hline⟩
  · rintro ⟨c, node, h, hline⟩
    exact ⟨c, ⟨h.conn, h.proto⟩, node, h.env, ⟨h.online, ⟨h.allowed, h.pinned⟩, h.listed⟩, hline⟩

theorem key_feedLine {c : Uuid × Conn} {node : Node} {inbound : Inbound} {e : FeedEntry}
    (hinbound : node.inbounds.lookup c.2.proto.proto = some inbound)
    (hline : feedLine b mem c node = some e) :
    e.key = feedKey (node.feedHost b) inbound.tag c.1 ∧ e.connId = c.1 := by
  rw [feedLine, hinbound] at hline
  cases hline
  exact ⟨rfl, rfl⟩

theorem isSome_inbound_of_lookup {node : Node} {tag key : Tag} {inbound : Inbound}
    (h : node.inbounds.lookup key = some inbound) (htag : inbound.tag = tag) :
    (node.inbound tag).isSome = true := by
  rw [Node.inbound, List.find?_isSome]
  exact ⟨inbound, List.mem_map.mpr ⟨⟨key, inbound⟩, AList.mem_entries_iff.mpr h, rfl⟩,
    decide_eq_true htag⟩

/-- The lines of the feed have the keys of what is found on the nodes that are open to a
connection, with the tag of what is found. -/
theorem mem_keys_feedEntries (henv : req.env = .all) {k : String ×ₗ String ×ₗ ℕ} :
    k ∈ (feedEntries b mem req share
      (scopedConns mem req share trafficMode meteredConns)).map FeedEntry.key ↔
      ∃ c node inbound, OpenTo mem req share trafficMode meteredConns c node ∧
        node.inbounds.lookup c.2.proto.proto = some inbound ∧
        k = feedKey (node.feedHost b) inbound.tag c.1 := by
  rw [feedEntries, ← sortDedup, FeedEntry.byKey.mem_map_sortDedup, List.mem_map]
  constructor
  · rintro ⟨e, he, rfl⟩
    obtain ⟨c, node, hopen, hline⟩ := (mem_collectEntries_iff henv).mp he
    obtain ⟨inbound, hinbound, -⟩ := Option.map_eq_some_iff.mp hline
    exact ⟨c, node, inbound, hopen, hinbound, (key_feedLine hinbound hline).1⟩
  · rintro ⟨c, node, inbound, hopen, hinbound, rfl⟩
    obtain ⟨e, hline⟩ : ∃ e, feedLine b mem c node = some e := by
      rw [feedLine, hinbound]
      exact ⟨_, rfl⟩
    exact ⟨e, (mem_collectEntries_iff henv).mpr ⟨c, node, hopen, hline⟩,
      (key_feedLine hinbound hline).1⟩

theorem eq_of_openTo {c c' : Uuid × Conn} {node node' : Node}
    (h : OpenTo mem req share trafficMode meteredConns c node)
    (h' : OpenTo mem req share trafficMode meteredConns c' node') (hid : c.1 = c'.1) :
    c = c' := by
  have hconn := (scopedConns_inv h.conn).1
  rw [hid, (scopedConns_inv h'.conn).1, Option.some.injEq] at hconn
  exact Prod.ext hid hconn.symm

/-- With the whole of the environments, the feed lists exactly what can be seen if and only if
what stands under the protocol of a connection has the tag of it, on every node that is open to
the connection, and a node with an inbound for a connection has one under its protocol, or
shares its host with a node that has. -/
theorem feedEntries_listsVisible_iff (henv : req.env = .all) :
    ListsVisible b mem req share trafficMode meteredConns
        (feedEntries b mem req share (scopedConns mem req share trafficMode meteredConns)) ↔
      (∀ c node inbound, OpenTo mem req share trafficMode meteredConns c node →
        node.inbounds.lookup c.2.proto.proto = some inbound → inbound.tag = c.2.proto.proto) ∧
      ∀ c node, Visible mem req share trafficMode meteredConns c node →
        ∃ node', OpenTo mem req share trafficMode meteredConns c node' ∧
          node'.feedHost b = node.feedHost b ∧
          (node'.inbounds.lookup c.2.proto.proto).isSome = true := by
  constructor
  · intro h
    constructor
    · intro c node inbound hopen hinbound
      obtain ⟨e, he, hkey⟩ := List.mem_map.mp
        ((mem_keys_feedEntries henv).mpr ⟨c, node, inbound, hopen, hinbound, rfl⟩)
      obtain ⟨c', node', hvisible', hkey'⟩ := h.only e he
      obtain ⟨-, htag, hid⟩ := feedKey_inj.mp (hkey.symm.trans hkey')
      rw [htag, eq_of_openTo hopen hvisible'.toOpenTo hid]
    · intro c node hvisible
      have hmem := List.count_pos_iff.mp (by rw [h.one c node hvisible]; decide)
      obtain ⟨c', node', inbound', hopen', hinbound', hkey⟩ :=
        (mem_keys_feedEntries henv).mp hmem
      obtain ⟨hhost, -, hid⟩ := feedKey_inj.mp hkey
      cases eq_of_openTo hvisible.toOpenTo hopen' hid
      exact ⟨node', hopen', hhost.symm, Option.isSome_of_mem hinbound'⟩
  · rintro ⟨htags, hhosts⟩
    refine ⟨fun c node hvisible => ?_, fun e he => ?_, fun hshare e he => ?_⟩
    · obtain ⟨node', hopen', hhost, hsome⟩ := hhosts c node hvisible
      obtain ⟨inbound, hinbound⟩ := Option.isSome_iff_exists.mp hsome
      refine List.count_eq_one_of_mem ?_ ((mem_keys_feedEntries henv).mpr
        ⟨c, node', inbound, hopen', hinbound, ?_⟩)
      · exact List.pairwise_map.mpr ((FeedEntry.byKey.pairwise_sortDedup _).imp fun h => h.ne)
      · rw [hhost, htags c node' inbound hopen' hinbound]
    · obtain ⟨c, node, inbound, hopen, hinbound, hkey⟩ :=
        (mem_keys_feedEntries henv).mp (List.mem_map_of_mem he)
      have htag := htags c node inbound hopen hinbound
      exact ⟨c, node, ⟨hopen, isSome_inbound_of_lookup hinbound htag⟩, htag ▸ hkey⟩
    · obtain ⟨c, node, inbound, hopen, hinbound, hkey⟩ :=
        (mem_keys_feedEntries henv).mp (List.mem_map_of_mem he)
      have hid : feedKey e.host e.inbound.tag e.connId = _ := hkey
      rw [(feedKey_inj.mp hid).2.2]
      exact (scopedConns_inv hopen.conn).2 hshare

end Visible

/-- One connection, and one node with an inbound of some tag under some key. -/
def oneLine (key tag : Tag) : Cache :=
  { Cache.empty with
    connections := AList.insert 2 (.new .dev (some 1) (.xray .vmess) none 0) ∅
    nodes := AList.insert .dev [{ Node.bare 3 .dev with
      inbounds := AList.insert key ⟨tag, 443, none, none, none, none, none⟩ ∅ }] ∅ }

def allLinks : SubscriptionInfoRequest := ⟨1, .txt, .all, .xray, none, none⟩

/-- The inbound of the connection stands under another key, and the feed has no line for it. -/
theorem not_listsVisible_foreign_key :
    ¬ ListsVisible World.iniBackend (oneLine .shadowsocks .vmess) allLinks none false []
      (feedEntries World.iniBackend (oneLine .shadowsocks .vmess) allLinks none
        (scopedConns (oneLine .shadowsocks .vmess) allLinks none false [])) := by
  intro h
  have hone := h.one (2, .new .dev (some 1) (.xray .vmess) none 0) _
    ⟨⟨List.mem_singleton_self _, by decide, List.mem_singleton_self _, rfl, rfl, rfl, rfl⟩, rfl⟩
  exact absurd hone (by decide)

theorem listsVisible_own_tag :
    ListsVisible World.iniBackend (oneLine .vmess .vmess) allLinks none false []
      (feedEntries World.iniBackend (oneLine .vmess .vmess) allLinks none
        (scopedConns (oneLine .vmess .vmess) allLinks none false [])) := by
  refine (feedEntries_listsVisible_iff rfl).mpr
    ⟨fun c node inbound h hinbound => ?_, fun c node h => ?_⟩
  · cases List.mem_singleton.mp h.conn
    cases List.mem_singleton.mp h.env
    cases hinbound
    rfl
  · refine ⟨node, h.toOpenTo, rfl, ?_⟩
    cases List.mem_singleton.mp h.conn
    cases List.mem_singleton.mp h.env
    rfl

end Fcore
