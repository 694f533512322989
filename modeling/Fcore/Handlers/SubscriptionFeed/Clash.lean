import Fcore.Handlers.SubscriptionFeed.Visible

/-!
# The Clash feed

The feed keeps one line for each host, while a proxy is named by the label of the
line. Two hosts with one label give two proxies with one name.
-/

namespace Fcore

section Clash

variable (b : FeedBackend) (mem : Cache) (req : SubscriptionInfoRequest)
  (share : Option ShareFeedScope) (conns : List (Uuid × Conn))

/-- The walk of the feed: the connections, and the nodes each is listed on. -/
def feedPairs : List ((Uuid × Conn) × Node) :=
  (conns.filter fun c => req.proto.tags.contains c.2.proto.proto).flatMap fun c =>
    (((mem.nodes.getByEnv (feedWalk req share c).1).getD []).filter fun node =>
      node.status = .online && feedLists mem req share c node).map fun node => (c, node)

/-- A node is the first of its host for the connection and the inbound. -/
def LeadsHost (x : (Uuid × Conn) × Node) : Prop :=
  (feedPairs mem req share conns).find? (fun y =>
    (feedLine b mem y.1 y.2).map FeedEntry.key = (feedLine b mem x.1 x.2).map FeedEntry.key) = some x

def Node.labelText (node : Node) : String := node.cluster.getD node.label

/-- For each connection, the first nodes of different hosts have different labels if they give
proxies for inbounds of one tag. -/
def LabelsSeparate : Prop :=
  ∀ x y, LeadsHost b mem req share conns x → LeadsHost b mem req share conns y → x.1 = y.1 →
    ∀ e e', feedLine b mem x.1 x.2 = some e → feedLine b mem y.1 y.2 = some e' →
      e.inbound.tag = e'.inbound.tag → e.clashProxy.isSome → e'.clashProxy.isSome →
      x.2.feedHost b ≠ y.2.feedHost b → x.2.labelText ≠ y.2.labelText

variable {b mem req share conns}

theorem collectEntries_eq_pairs : collectEntries b mem req share conns =
    (feedPairs mem req share conns).filterMap fun x => feedLine b mem x.1 x.2 := by
  rw [collectEntries_eq, feedPairs, List.filterMap_flatMap]
  congr 1
  funext c
  rw [List.filterMap_map, List.filterMap_filter]
  rfl

/-- The lines of the feed are those of the nodes that lead. -/
theorem mem_feedEntries_iff {e : FeedEntry} : e ∈ feedEntries b mem req share conns ↔
    ∃ x, LeadsHost b mem req share conns x ∧ feedLine b mem x.1 x.2 = some e := by
  rw [feedEntries, ← sortDedup, ByKey.mem_iff_find? (FeedEntry.byKey.pairwise_sortDedup _),
    FeedEntry.byKey.find?_sortDedup, collectEntries_eq_pairs, List.find?_filterMap,
    Option.bind_eq_some_iff]
  refine exists_congr fun x => and_congr_left fun hline => ?_
  unfold LeadsHost
  rw [hline]
  have hsearch : (fun y : (Uuid × Conn) × Node =>
      (feedLine b mem y.1 y.2).any fun e' => decide (e'.key = e.key)) =
        fun y => decide ((feedLine b mem y.1 y.2).map FeedEntry.key = (some e).map FeedEntry.key) := by
    funext y
    cases feedLine b mem y.1 y.2 <;> simp
  rw [hsearch]

omit share conns in
theorem feedLine_inv {c : Uuid × Conn} {node : Node} {e : FeedEntry}
    (h : feedLine b mem c node = some e) : e.connId = c.1 ∧ e.conn = c.2 ∧
      e.host = node.feedHost b ∧ e.label = connLinkLabel mem.connLabels c.1 node.labelText := by
  obtain ⟨inbound, -, rfl⟩ := Option.map_eq_some_iff.mp h
  exact ⟨rfl, rfl, rfl, rfl⟩

theorem connLinkLabel_inj {labels : Table Uuid String} {connId : Uuid} {text text' : String} :
    connLinkLabel labels connId text = connLinkLabel labels connId text' ↔ text = text' := by
  unfold connLinkLabel
  cases labels.lookup connId <;> simp

theorem mem_conns_of_leads {x : (Uuid × Conn) × Node} (h : LeadsHost b mem req share conns x) :
    x.1 ∈ conns := by
  obtain ⟨c, hc, hx⟩ := List.mem_flatMap.mp (List.mem_of_find?_eq_some h)
  obtain ⟨node, -, rfl⟩ := List.mem_map.mp hx
  exact (List.mem_filter.mp hc).1

/-- The names of the proxies are unique exactly if the labels separate the hosts. -/
theorem clash_namesUnique_iff
    (hids : ∀ c ∈ conns, ∀ c' ∈ conns,
      getUuidLastOctetSimple c.1 = getUuidLastOctetSimple c'.1 → c = c')
    (htokens : ∀ c ∈ conns, ∀ c' ∈ conns, ∀ token ∈ c.2.proto.token, ∀ token' ∈ c'.2.proto.token,
      getUuidLastOctetSimple token = getUuidLastOctetSimple token' → c = c') :
    (clashFeed (feedEntries b mem req share conns)).NamesUnique ↔
      LabelsSeparate b mem req share conns := by
  have hpairwise := FeedEntry.byKey.pairwise_sortDedup (collectEntries b mem req share conns)
  have hkeys : ∀ e ∈ feedEntries b mem req share conns, ∀ e' ∈ feedEntries b mem req share conns,
      e.key = e'.key → e = e' :=
    List.inj_on_of_nodup_map (List.pairwise_map.mpr (hpairwise.imp fun h => h.ne))
  rw [clashFeed, Inbound.namesUnique_clash_iff, List.map_filterMap, List.Nodup,
    List.pairwise_filterMap]
  constructor
  · intro h x y hx hy hconn e e' hline hline' htag hsome hsome' hhost hlabel
    have he := mem_feedEntries_iff.mpr ⟨x, hx, hline⟩
    have he' := mem_feedEntries_iff.mpr ⟨y, hy, hline'⟩
    obtain ⟨hconnId, hconnOf, hhostOf, hlabelOf⟩ := feedLine_inv hline
    obtain ⟨hconnId', hconnOf', hhostOf', hlabelOf'⟩ := feedLine_inv hline'
    obtain ⟨p, hp⟩ := Option.isSome_iff_exists.mp hsome
    obtain ⟨p', hp'⟩ := Option.isSome_iff_exists.mp hsome'
    obtain ⟨id, hid, hkind⟩ := Inbound.proxy_name hp
    obtain ⟨id', hid', hkind'⟩ := Inbound.proxy_name hp'
    have hne : e ≠ e' := by
      rintro rfl
      exact hhost (hhostOf.symm.trans hhostOf')
    have : Std.Symm fun a a' : FeedEntry => ∀ name, a.clashProxy.map ClashProxy.name = some name →
        ∀ name', a'.clashProxy.map ClashProxy.name = some name' → name ≠ name' :=
      ⟨fun a a' h name hname name' hname' => (h name' hname' name hname).symm⟩
    refine h.forall he he' hne _ (by rw [hp]; rfl) _ (by rw [hp']; rfl) ?_
    rw [hid, hid', clashName_inj]
    refine ⟨by rw [hlabelOf, hlabelOf', hconn, hlabel], htag, ?_⟩
    rw [hconnOf, hconnId] at hkind
    rw [hconnOf', hconnId', ← hconn, ← htag] at hkind'
    split at hkind
    · rename_i hhysteria
      rw [if_pos hhysteria] at hkind'
      rw [Option.some.inj (hkind.symm.trans hkind')]
    · rename_i hother
      rw [if_neg hother] at hkind'
      rw [hkind, hkind']
  · intro h
    have hnodup : (feedEntries b mem req share conns).Nodup :=
      hpairwise.imp fun hlt heq => hlt.ne (congrArg _ heq)
    refine hnodup.pairwise_of_forall_ne ?_
    rintro e he e' he' hne name hname _ hname' rfl
    obtain ⟨p, hp, rfl⟩ := Option.map_eq_some_iff.mp hname
    obtain ⟨p', hp', hsame⟩ := Option.map_eq_some_iff.mp hname'
    obtain ⟨x, hx, hline⟩ := mem_feedEntries_iff.mp he
    obtain ⟨y, hy, hline'⟩ := mem_feedEntries_iff.mp he'
    obtain ⟨id, hid, hkind⟩ := Inbound.proxy_name hp
    obtain ⟨id', hid', hkind'⟩ := Inbound.proxy_name hp'
    rw [hid, hid', clashName_inj] at hsame
    obtain ⟨hlabel, htag, hoctet⟩ := hsame
    obtain ⟨hconnId, hconnOf, hhostOf, hlabelOf⟩ := feedLine_inv hline
    obtain ⟨hconnId', hconnOf', hhostOf', hlabelOf'⟩ := feedLine_inv hline'
    have hx' := mem_conns_of_leads hx
    have hy' := mem_conns_of_leads hy
    have hconn : x.1 = y.1 := by
      rw [hconnOf, hconnId, ← htag] at hkind
      rw [hconnOf', hconnId'] at hkind'
      split at hkind
      · rename_i hhysteria
        rw [if_pos hhysteria] at hkind'
        exact htokens _ hx' _ hy' id hkind id' hkind' hoctet.symm
      · rename_i hother
        rw [if_neg hother] at hkind'
        rw [hkind, hkind'] at hoctet
        exact hids _ hx' _ hy' hoctet.symm
    rw [hlabelOf, hlabelOf', hconn, connLinkLabel_inj] at hlabel
    refine h x y hx hy hconn e e' hline hline' htag.symm (Option.isSome_of_eq_some hp)
      (Option.isSome_of_eq_some hp') (fun hhost => hne (hkeys e he e' he' ?_)) hlabel.symm
    rw [FeedEntry.key, FeedEntry.key, hhostOf, hhostOf', hhost, htag, hconnId, hconnId', hconn]

end Clash

def twoAddresses : FeedBackend :=
  { World.iniBackend with ipText := fun ip => if ip = .v4 1 then "10.0.0.1" else "10.0.0.2" }

/-- One connection on two nodes without a cluster. -/
def twoHosts (label : String) : Cache :=
  let stream : StreamSettings := ⟨.xhttp, none, none, none, some ⟨"/", none, none⟩, none⟩
  let node (uuid : Uuid) (address : Ipv4Addr) (label : String) : Node :=
    { Node.bare uuid .dev with
      address := address
      label := label
      inbounds := AList.insert .vlessXhttpCdn
        ⟨.vlessXhttpCdn, 443, none, none, some stream, none, none⟩ ∅ }
  { Cache.empty with
    connections := AList.insert 2 (.new .dev (some 1) (.xray .vlessXhttpCdn) none 0) ∅
    nodes := AList.insert .dev [node 3 1 "eu", node 4 2 label] ∅ }

def clashRequest : SubscriptionInfoRequest := ⟨1, .clash, .all, .xray, none, none⟩

def twoHostsFeed (label : String) : ClashConfig :=
  clashFeed (feedEntries twoAddresses (twoHosts label) clashRequest none
    (scopedConns (twoHosts label) clashRequest none false []))

theorem not_namesUnique_same_label : ¬ (twoHostsFeed "eu").NamesUnique := fun h =>
  absurd h.nodup (by decide)

theorem namesUnique_other_label : (twoHostsFeed "us").NamesUnique := by
  refine (clash_namesUnique_iff ?_ ?_).mpr ?_
  · intro c hc c' hc' _
    rw [List.mem_singleton.mp hc, List.mem_singleton.mp hc']
  · intro c hc c' _ token htoken
    cases List.mem_singleton.mp hc
    cases htoken
  · have hwalk : ∀ x ∈ feedPairs (twoHosts "us") clashRequest none
          (scopedConns (twoHosts "us") clashRequest none false []),
        ∀ y ∈ feedPairs (twoHosts "us") clashRequest none
          (scopedConns (twoHosts "us") clashRequest none false []),
        x.2.feedHost twoAddresses ≠ y.2.feedHost twoAddresses → x.2.labelText ≠ y.2.labelText := by
      decide
    intro x y hx hy _ _ _ _ _ _ _ _
    exact hwalk x (List.mem_of_find?_eq_some hx) y (List.mem_of_find?_eq_some hy)

end Fcore
