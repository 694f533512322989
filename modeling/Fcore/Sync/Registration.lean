import Fcore.Memory.Registry
import Fcore.Postgres.Load
import Fcore.Sync.Node
import Mathlib.Data.List.Find

/-!
# The registry and the tables after registrations

A registration replaces the node in the registry, and merges it into the tables: a pool that
is not sent is kept, so are all inbounds if none is sent, and the settings of an inbound are
spread over columns some of which they share. A reload of the cache then rebuilds the node
from the tables.

`World.registry_refines_iff` says when the reload changes nothing that clients see of a node,
in terms of its last registration and what was stored before it.
-/

namespace Fcore

structure WgView where
  port : UInt16
  keys : Keys
  keepalive : Option UInt16
  deriving DecidableEq

structure AwgView where
  listenPort : UInt16
  privateKey : Keys
  mtu : Option UInt16
  keepalive : Option UInt16
  deriving DecidableEq

structure InboundView where
  tag : Tag
  port : UInt16
  wg : Option WgView
  awg : Option AwgView
  deriving DecidableEq

def WireguardSettings.view (wg : WireguardSettings) : WgView where
  port := wg.port
  keys := wg.keys
  keepalive := wg.keepalive

def AmneziaWgSettings.view (awg : AmneziaWgSettings) : AwgView where
  listenPort := awg.interface.listenPort
  privateKey := awg.interface.privateKey
  mtu := awg.interface.mtu
  keepalive := awg.keepalive

namespace Inbound

def view (inbound : Inbound) : InboundView where
  tag := inbound.tag
  port := inbound.port
  wg := inbound.wg.map WireguardSettings.view
  awg := inbound.awg.map AmneziaWgSettings.view

def sharedKeepalive (inbound : Inbound) : Option UInt16 :=
  (inbound.wg.bind fun wg => wg.keepalive).or (inbound.awg.bind fun awg => awg.keepalive)

/-- An inbound that its columns describe: it is under its own tag, its settings have its
port and the one keepalive there is a column for, and their addresses have masks that fit. -/
structure Kept (tag : Tag) (inbound : Inbound) : Prop where
  tag : inbound.tag = tag
  wg : ∀ wg, inbound.wg = some wg → wg.address.cidr ≤ IpAddrMask.maxCidr wg.address.address ∧
    wg.port = inbound.port ∧ wg.keepalive = inbound.sharedKeepalive
  awg : ∀ awg, inbound.awg = some awg →
    awg.interface.address.cidr ≤ IpAddrMask.maxCidr awg.interface.address.address ∧
      awg.interface.listenPort = inbound.port ∧ awg.keepalive = inbound.sharedKeepalive

end Inbound

namespace InboundRow

variable (inbound : Inbound)

theorem ipv4Only_map (ips : List Ipv4Addr) : ipv4Only (ips.map .v4) = ips := by
  simp [ipv4Only, List.filterMap_map]

theorem keepalive_ofInbound :
    ((ofInbound inbound).keepalive.map fun k => k.toUInt32.toUInt16) = inbound.sharedKeepalive := by
  change (inbound.sharedKeepalive.map _).map _ = _
  cases inbound.sharedKeepalive with
  | none => rfl
  | some k => simp

theorem loadWg_ofInbound :
    (ofInbound inbound).loadWg = inbound.wg.bind fun wg => wg.address.reread.map fun mask =>
      { wg with address := mask, port := inbound.port, keepalive := inbound.sharedKeepalive } := by
  rw [loadWg, keepalive_ofInbound]
  cases hwg : inbound.wg with
  | none => simp [ofInbound, hwg]
  | some wg =>
    cases hread : wg.address.reread with
    | none => simp [ofInbound, hwg, hread]
    | some mask => simp [ofInbound, hwg, hread, ipv4Only_map]

theorem loadAwg_ofInbound :
    (ofInbound inbound).loadAwg = inbound.awg.bind fun awg =>
      awg.interface.address.reread.map fun mask =>
        { awg with
          interface := { awg.interface with address := mask, listenPort := inbound.port }
          keepalive := inbound.sharedKeepalive } := by
  rw [loadAwg, keepalive_ofInbound]
  cases hawg : inbound.awg with
  | none => simp [ofInbound, hawg]
  | some awg =>
    cases hread : awg.interface.address.reread with
    | none => simp [ofInbound, hawg, hread]
    | some mask =>
      have hmtu : (awg.interface.mtu.map UInt16.toInt16).map Int16.toUInt16 =
          awg.interface.mtu := by
        cases awg.interface.mtu with
        | none => rfl
        | some mtu => simp
      simp [ofInbound, hawg, hread, ipv4Only_map, hmtu]

variable {inbound}

theorem view_loadWg_iff :
    (ofInbound inbound).loadWg.map WireguardSettings.view =
        inbound.wg.map WireguardSettings.view ↔
      ∀ wg, inbound.wg = some wg → wg.address.cidr ≤ IpAddrMask.maxCidr wg.address.address ∧
        wg.port = inbound.port ∧ wg.keepalive = inbound.sharedKeepalive := by
  rw [loadWg_ofInbound]
  cases hwg : inbound.wg with
  | none => simp
  | some wg =>
    by_cases hfits : wg.address.cidr ≤ IpAddrMask.maxCidr wg.address.address
    · have hread : wg.address.reread = some wg.address :=
        IpAddrMask.reread_eq_some_iff.mpr ⟨hfits, rfl⟩
      simp [hread, hfits, WireguardSettings.view, eq_comm]
    · have hread : wg.address.reread = none := if_pos (UInt8.not_le.mp hfits)
      simp [hread, hfits]

theorem view_loadAwg_iff :
    (ofInbound inbound).loadAwg.map AmneziaWgSettings.view =
        inbound.awg.map AmneziaWgSettings.view ↔
      ∀ awg, inbound.awg = some awg →
        awg.interface.address.cidr ≤ IpAddrMask.maxCidr awg.interface.address.address ∧
          awg.interface.listenPort = inbound.port ∧
          awg.keepalive = inbound.sharedKeepalive := by
  rw [loadAwg_ofInbound]
  cases hawg : inbound.awg with
  | none => simp
  | some awg =>
    by_cases hfits : awg.interface.address.cidr ≤ IpAddrMask.maxCidr awg.interface.address.address
    · have hread : awg.interface.address.reread = some awg.interface.address :=
        IpAddrMask.reread_eq_some_iff.mpr ⟨hfits, rfl⟩
      simp [hread, hfits, AmneziaWgSettings.view, eq_comm]
    · have hread : awg.interface.address.reread = none := if_pos (UInt8.not_le.mp hfits)
      simp [hread, hfits]

/-- Clients see the same of an inbound and of what its row is read as exactly if the columns
describe it. -/
theorem view_toInbound_iff {tag : Tag} :
    ((ofInbound inbound).toInbound tag).view = inbound.view ↔ inbound.Kept tag := by
  have hport : ((ofInbound inbound).toInbound tag).port = inbound.port := by
    simp [toInbound, ofInbound]
  rw [InboundView.mk.injEq]
  constructor
  · rintro ⟨htag, -, hwg, hawg⟩
    exact ⟨htag.symm, view_loadWg_iff.mp hwg, view_loadAwg_iff.mp hawg⟩
  · intro h
    exact ⟨h.tag.symm, hport, view_loadWg_iff.mpr h.wg, view_loadAwg_iff.mpr h.awg⟩

end InboundRow

namespace Db

def rebuilt (lower : String → String) (id : Uuid) (db : Db) : Option Node :=
  (db.allNodes lower).find? fun node => node.uuid = id

theorem rebuilt_eq (lower : String → String) (id : Uuid) (db : Db) :
    db.rebuilt lower id =
      (db.nodes.lookup id).map fun row => row.toNode lower id (db.inboundsOf id) := by
  have hfind := AList.find?_entries id db.nodes
  rw [rebuilt, allNodes, List.find?_map]
  change (db.nodes.entries.find? fun e => e.1 = id).map _ = _
  rw [hfind, Option.map_map]
  rfl

theorem lookup_inboundsOf (id : Uuid) (tag : Tag) (db : Db) :
    (db.inboundsOf id).lookup tag =
      (db.inbounds.lookup (id, tag)).map fun row => row.toInbound tag := by
  have hkeys : ((db.inbounds.entries.filter fun e => decide (e.1.1 = id)).map fun e => e.1.2).map
      (fun tag => (id, tag)) =
        (db.inbounds.entries.filter fun e => decide (e.1.1 = id)).map Sigma.fst := by
    rw [List.map_map]
    apply List.map_congr_left
    intro e he
    exact Prod.ext (of_decide_eq_true (List.mem_filter.mp he).2).symm rfl
  have hnodup : ((db.inbounds.entries.filter fun e => decide (e.1.1 = id)).map
      fun e => e.1.2).Nodup := by
    apply List.Nodup.of_map fun tag => (id, tag)
    rw [hkeys]
    exact db.inbounds.nodupKeys.sublist List.filter_sublist
  have hfind : (db.inbounds.entries.filter fun e => decide (e.1.1 = id)).find?
      (fun e => decide (e.1.2 = tag)) =
        (db.inbounds.lookup (id, tag)).map fun row => ⟨(id, tag), row⟩ := by
    rw [List.find?_filter, ← AList.find?_entries]
    congr 1
    funext e
    rw [decide_eq_decide, decide_eq_true_eq, decide_eq_true_eq, Prod.ext_iff]
  rw [inboundsOf, AList.lookup_foldl_insert hnodup, hfind, Option.map_map, AList.lookup_empty,
    Option.or_none]
  rfl

theorem lookup_upsertInbounds {id : Uuid} {inbounds : Table Tag Inbound}
    (hown : ∀ tag inbound, inbounds.lookup tag = some inbound → inbound.tag = tag) (tag : Tag)
    (stored : Table (Uuid × Tag) InboundRow) :
    (upsertInbounds id inbounds stored).lookup (id, tag) =
      if inbounds.entries.isEmpty then stored.lookup (id, tag)
      else (inbounds.lookup tag).map .ofInbound := by
  have htag : ∀ e ∈ inbounds.entries, e.2.tag = e.1 := by
    intro e he
    exact hown e.1 e.2 (AList.lookup_of_mem_entries he)
  have hkeys : (inbounds.entries.map fun e => (id, e.2.tag)) =
      (inbounds.entries.map Sigma.fst).map fun tag => (id, tag) := by
    rw [List.map_map]
    apply List.map_congr_left
    intro e he
    rw [htag e he]
    rfl
  have hnodup : (inbounds.entries.map fun e => (id, e.2.tag)).Nodup := by
    rw [hkeys]
    exact List.Nodup.map (Prod.mk_right_injective id) inbounds.nodupKeys
  have hfind : (inbounds.entries.find? fun e => decide ((id, e.2.tag) = (id, tag))) =
      (inbounds.lookup tag).map fun inbound => ⟨tag, inbound⟩ := by
    rw [← AList.find?_entries]
    apply List.find?_congr
    intro e he
    rw [htag e he]
    simp
  have hwritten : (inbounds.entries.foldl
      (fun acc e => AList.insert (id, e.2.tag) (.ofInbound e.2) acc) stored).lookup (id, tag) =
        ((inbounds.lookup tag).map .ofInbound).or (stored.lookup (id, tag)) := by
    rw [AList.lookup_foldl_insert hnodup, hfind, Option.map_map]
    rfl
  unfold upsertInbounds
  split
  · rename_i hempty
    have hnone : inbounds.lookup tag = none := by
      rw [AList.lookup_eq_none, AList.mem_keys, AList.keys, List.isEmpty_iff.mp hempty]
      exact List.not_mem_nil
    rw [hwritten, hnone]
    rfl
  · rw [AList.lookup_filterRows, hwritten]
    cases inbounds.lookup tag with
    | none => simp
    | some inbound => simp

end Db

/-- Clients see the same of two nodes. -/
structure Node.SameSeen (node node' : Node) : Prop where
  env : node'.env = node.env
  pool : node'.pool = node.pool
  poolTranslation : node'.poolTranslation = node.poolTranslation
  nodeIps : node'.nodeIps = node.nodeIps
  nodeWeights : node'.nodeWeights = node.nodeWeights
  inbounds : ∀ tag, (node'.inbounds.lookup tag).map Inbound.view =
    (node.inbounds.lookup tag).map Inbound.view

namespace Db

variable {lower : String → String} {node : Node} {db db' : Db}

/-- A registration after which the tables hold what was sent: the environment reads back,
a pool or its translation is left out only if none is stored, all inbounds are left out only
if none is stored, and each inbound is one that its columns describe. -/
structure Reloads (lower : String → String) (node : Node) (db : Db) : Prop where
  env : Env.ofStored lower node.env.asStr = node.env
  pool : node.pool = none → (db.nodes.lookup node.uuid).bind NodeRow.pool = none
  poolTranslation : node.poolTranslation = none →
    (db.nodes.lookup node.uuid).bind NodeRow.poolTranslation = none
  inbounds : node.inbounds.entries.isEmpty → ∀ tag, db.inbounds.lookup (node.uuid, tag) = none
  kept : ∀ tag inbound, node.inbounds.lookup tag = some inbound → inbound.Kept tag

theorem or_eq_left_iff {α : Type*} {o o' : Option α} : o.or o' = o ↔ (o = none → o' = none) := by
  cases o with
  | none => simp
  | some a => simp

/-- What clients see of the inbounds after a registration in which each is under its own
tag. -/
theorem view_inbounds_of_own
    (hown : ∀ tag inbound, node.inbounds.lookup tag = some inbound → inbound.tag = tag) :
    (∀ tag, (((db.upsertNode node.uuid node).inboundsOf node.uuid).lookup tag).map Inbound.view =
        (node.inbounds.lookup tag).map Inbound.view) ↔
      (node.inbounds.entries.isEmpty → ∀ tag, db.inbounds.lookup (node.uuid, tag) = none) ∧
        ∀ tag inbound, node.inbounds.lookup tag = some inbound → inbound.Kept tag := by
  have hlookup : ∀ tag, ((db.upsertNode node.uuid node).inboundsOf node.uuid).lookup tag =
      (if node.inbounds.entries.isEmpty then db.inbounds.lookup (node.uuid, tag)
        else (node.inbounds.lookup tag).map .ofInbound).map fun row => row.toInbound tag := by
    intro tag
    rw [lookup_inboundsOf]
    exact congrArg (Option.map _) (lookup_upsertInbounds hown tag db.inbounds)
  simp only [hlookup]
  by_cases hempty : node.inbounds.entries.isEmpty = true
  · have hnone : ∀ tag, node.inbounds.lookup tag = none := by
      intro tag
      rw [AList.lookup_eq_none, AList.mem_keys, AList.keys, List.isEmpty_iff.mp hempty]
      exact List.not_mem_nil
    simp [hempty, hnone]
  · simp only [hempty, Bool.false_eq_true, if_false, Option.map_map, false_implies, true_and]
    constructor
    · intro h tag inbound hinbound
      have htag := h tag
      rw [hinbound] at htag
      exact InboundRow.view_toInbound_iff.mp (Option.some.inj htag)
    · intro h tag
      cases hinbound : node.inbounds.lookup tag with
      | none => rfl
      | some inbound =>
        exact congrArg some (InboundRow.view_toInbound_iff.mpr (h tag inbound hinbound))

theorem view_inbounds_upsert_iff :
    (∀ tag, (((db.upsertNode node.uuid node).inboundsOf node.uuid).lookup tag).map Inbound.view =
        (node.inbounds.lookup tag).map Inbound.view) ↔
      (node.inbounds.entries.isEmpty → ∀ tag, db.inbounds.lookup (node.uuid, tag) = none) ∧
        ∀ tag inbound, node.inbounds.lookup tag = some inbound → inbound.Kept tag := by
  constructor
  · intro h
    refine (view_inbounds_of_own ?_).mp h
    -- a rebuilt inbound has the tag of its row
    intro tag inbound hlookup
    have htag := h tag
    rw [lookup_inboundsOf, hlookup] at htag
    obtain ⟨_, hrow, hview⟩ := Option.map_eq_some_iff.mp htag
    obtain ⟨row, -, rfl⟩ := Option.map_eq_some_iff.mp hrow
    exact (congrArg InboundView.tag hview).symm
  · intro h
    exact (view_inbounds_of_own fun tag inbound hlookup => (h.2 tag inbound hlookup).tag).mpr h

/-- Clients see the same of a node and of its row exactly if the tables hold what was
sent. -/
theorem sameSeen_upsert_iff :
    node.SameSeen ((node.toRow (db.nodes.lookup node.uuid)).toNode lower node.uuid
        ((db.upsertNode node.uuid node).inboundsOf node.uuid)) ↔ db.Reloads lower node := by
  constructor
  · intro h
    obtain ⟨hinbounds, hkept⟩ := view_inbounds_upsert_iff.mp h.inbounds
    exact
      { env := h.env
        pool := or_eq_left_iff.mp h.pool
        poolTranslation := or_eq_left_iff.mp h.poolTranslation
        inbounds := hinbounds
        kept := hkept }
  · intro h
    exact
      { env := h.env
        pool := or_eq_left_iff.mpr h.pool
        poolTranslation := or_eq_left_iff.mpr h.poolTranslation
        nodeIps := rfl
        nodeWeights := rfl
        inbounds := view_inbounds_upsert_iff.mpr ⟨h.inbounds, h.kept⟩ }

end Db

theorem Nodes.Filed.getById_of_mem {nodes : Nodes} (h : nodes.Filed) {node : Node}
    (hnode : node ∈ nodes.all)
    (hunique : ∀ other ∈ nodes.all, other.uuid = node.uuid → other.env = node.env) :
    nodes.getById node.uuid = some node := by
  cases hfound : nodes.getById node.uuid with
  | none => exact absurd rfl (Nodes.getById_eq_none.mp hfound node hnode)
  | some other =>
    obtain ⟨hother, hid⟩ := Nodes.getById_eq_some hfound
    have hgroup := Nodes.mem_group_env h hother
    rw [hunique other hother hid] at hgroup
    exact congrArg some
      (List.inj_on_of_nodup_map (h.nodup node.env) hgroup (Nodes.mem_group_env h hnode) hid)

namespace World

/-- The node of an identifier is in the registry and in the tables, and clients see the same
of both. -/
def Refines (lower : String → String) (w : World) (id : Uuid) : Prop :=
  ∃ node node', w.mem.nodes.getById id = some node ∧ w.db.rebuilt lower id = some node' ∧
    node.SameSeen node'

def register (w : World) (e : Uuid × Node) : World := (w.addNode e.1 e.2).1

structure InPlace (envOf : Uuid → Env) (w : World) : Prop where
  filed : w.mem.nodes.Filed
  env : ∀ node ∈ w.mem.nodes.all, node.env = envOf node.uuid

/-- A registration that succeeds, under the identifier of the node and in its
environment. -/
structure Registers (envOf : Uuid → Env) (w : World) (e : Uuid × Node) : Prop where
  ok : ∃ status, (w.addNode e.1 e.2).2 = .ok status
  uuid : e.2.uuid = e.1
  env : e.2.env = envOf e.1

variable {lower : String → String} {envOf : Uuid → Env} {w : World} {e : Uuid × Node}
  {node : Node}

theorem Registers.eq (h : w.Registers envOf e) :
    (w.register e).db = w.db.upsertNode e.1 e.2 ∧
      (w.register e).mem.nodes = (w.mem.nodes.add e.2).1 := by
  obtain ⟨status, hok⟩ := h.ok
  rcases addNode_cases e.1 e.2 w with ⟨⟨err, herr⟩, -⟩ | ⟨-, hdb, hmem⟩
  · rw [hok] at herr
    cases herr
  · exact ⟨hdb, by rw [register, hmem]⟩

theorem InPlace.allows (h : w.InPlace envOf) (he : w.Registers envOf e) :
    w.mem.nodes.Allows (.add e.2) := by
  intro other hother hid
  rw [h.env other hother, hid, he.uuid, he.env]

theorem InPlace.after_register (h : w.InPlace envOf) (he : w.Registers envOf e) :
    (w.register e).InPlace envOf where
  filed := by
    rw [he.eq.2]
    exact h.filed.add e.2
  env := by
    rw [he.eq.2]
    intro node hnode
    rcases Nodes.mem_all_add hnode with rfl | hnode
    · rw [he.env, he.uuid]
    · exact h.env node hnode

/-- The registry and the tables hold a node as its registration left them. -/
structure Holds (node : Node) (db : Db) (w : World) : Prop where
  registered : node ∈ w.mem.nodes.all
  row : w.db.nodes.lookup node.uuid = db.nodes.lookup node.uuid
  inbounds : ∀ tag, w.db.inbounds.lookup (node.uuid, tag) = db.inbounds.lookup (node.uuid, tag)

theorem InPlace.holds_register (h : w.InPlace envOf) (he : w.Registers envOf e) :
    (w.register e).Holds e.2 (w.db.upsertNode e.2.uuid e.2) where
  registered := by
    rw [he.eq.2]
    exact (h.filed.mem_all_add_iff (h.allows he)).mpr (.inl rfl)
  row := by rw [he.eq.1, he.uuid]
  inbounds tag := by rw [he.eq.1, he.uuid]

variable {db : Db} {events : List (Uuid × Node)}

theorem Holds.after_register (hholds : w.Holds node db) (h : w.InPlace envOf)
    (he : w.Registers envOf e) (hne : e.1 ≠ node.uuid) : (w.register e).Holds node db where
  registered := by
    rw [he.eq.2]
    refine (h.filed.mem_all_add_iff (h.allows he)).mpr (.inr ⟨hholds.registered, ?_⟩)
    rw [he.uuid]
    exact hne.symm
  row := by
    rw [he.eq.1, ← hholds.row]
    exact (Db.NodeWrites.upsertNode rfl w.db).rows_ne _ hne.symm
  inbounds tag := by
    rw [he.eq.1, ← hholds.inbounds tag]
    exact (Db.NodeWrites.upsertNode rfl w.db).inbounds_ne _ tag hne.symm

theorem Holds.refines_iff (hholds : w.Holds node (db.upsertNode node.uuid node))
    (h : w.InPlace envOf) : w.Refines lower node.uuid ↔ db.Reloads lower node := by
  have hget : w.mem.nodes.getById node.uuid = some node := by
    apply h.filed.getById_of_mem hholds.registered
    intro other hother hid
    rw [h.env other hother, h.env node hholds.registered, hid]
  have hrebuilt : w.db.rebuilt lower node.uuid =
      some ((node.toRow (db.nodes.lookup node.uuid)).toNode lower node.uuid
        (w.db.inboundsOf node.uuid)) := by
    rw [Db.rebuilt_eq, hholds.row, Db.upsertNode_nodes_self]
    rfl
  have hinbounds : ∀ tag, (w.db.inboundsOf node.uuid).lookup tag =
      ((db.upsertNode node.uuid node).inboundsOf node.uuid).lookup tag := by
    intro tag
    rw [Db.lookup_inboundsOf, Db.lookup_inboundsOf, hholds.inbounds]
  rw [← Db.sameSeen_upsert_iff]
  constructor
  · rintro ⟨node₁, node', hnode₁, hnode', hsame⟩
    rw [hget] at hnode₁
    rw [hrebuilt] at hnode'
    cases hnode₁
    cases hnode'
    refine { hsame with inbounds := fun tag => ?_ }
    exact (congrArg (Option.map Inbound.view) (hinbounds tag)).symm.trans (hsame.inbounds tag)
  · intro hsame
    refine ⟨node, _, hget, hrebuilt, { hsame with inbounds := fun tag => ?_ }⟩
    exact (congrArg (Option.map Inbound.view) (hinbounds tag)).trans (hsame.inbounds tag)

theorem InPlace.run (h : w.InPlace envOf)
    (hrun : Run.Along register (fun w e => w.Registers envOf e) w events) :
    (events.foldl register w).InPlace envOf :=
  Run.invariant_end (fun _ _ hw he => hw.after_register he) h hrun

theorem Holds.run (hholds : w.Holds node db) (h : w.InPlace envOf)
    (hrun : Run.Along register (fun w e => w.Registers envOf e) w events)
    (hne : ∀ e ∈ events, e.1 ≠ node.uuid) : (events.foldl register w).Holds node db := by
  have hothers : Run.Along register (fun _ e => e.1 ≠ node.uuid) w events :=
    Run.along_of_forall (fun e he _ => hne e he) w
  refine (Run.invariant_end (I := fun w => w.InPlace envOf ∧ w.Holds node db) ?_ ⟨h, hholds⟩
    (Run.along_and hrun hothers)).2
  intro w' e hw he
  exact ⟨hw.1.after_register he.1, hw.2.after_register hw.1 he.1 he.2⟩

/-- After registrations that succeed, each under the identifier of its node and every node in
one environment, a reload changes nothing that clients see of a node exactly if its last
registration was one after which the tables hold what was sent. -/
theorem registry_refines_iff {id : Uuid} {before after : List (Uuid × Node)} (h : w.InPlace envOf)
    (hrun : Run.Along register (fun w e => w.Registers envOf e) w (before ++ (id, node) :: after))
    (hlast : ∀ e ∈ after, e.1 ≠ id) :
    ((before ++ (id, node) :: after).foldl register w).Refines lower id ↔
      (before.foldl register w).db.Reloads lower node := by
  obtain ⟨hbefore, hreg, hafter⟩ := Run.along_append.mp hrun
  have hplace := h.run hbefore
  have huuid : node.uuid = id := hreg.uuid
  subst huuid
  rw [List.foldl_append]
  exact ((hplace.holds_register hreg).run (hplace.after_register hreg) hafter hlast).refines_iff
    ((hplace.after_register hreg).run hafter)

theorem dbReliable_register (h : w.DbReliable) (e : Uuid × Node) : (w.register e).DbReliable := by
  have hfails : (w.dbExec (Db.upsertNode e.1 e.2)).1.dbFails = w.dbFails := dbCall_dbFails _ w
  unfold register addNode DbReliable
  split
  · rename_i heq
    rw [heq] at hfails
    rwa [hfails]
  · rename_i heq
    rw [heq] at hfails
    rwa [writeMem, hfails]

theorem along_registers (h : w.DbReliable)
    (hevents : ∀ e ∈ events, e.2.uuid = e.1 ∧ e.2.env = envOf e.1) :
    Run.Along register (fun w e => w.Registers envOf e) w events := by
  have hown : Run.Along register (fun _ e => e.2.uuid = e.1 ∧ e.2.env = envOf e.1) w events :=
    Run.along_of_forall (fun e he _ => hevents e he) w
  refine Run.along_of_invariant (I := DbReliable) (fun w' e hw he => ?_) h hown
  refine ⟨dbReliable_register hw e, ?_, he.1, he.2⟩
  rw [addNode, dbExec, dbCall, if_neg (by simp [hw w'.calls])]
  exact ⟨_, rfl⟩

section Runs

def wgInbound : Inbound where
  tag := .wireguard
  port := 51820
  wg := some ⟨"wg0", ⟨.v4 0, 24⟩, 51820, ⟨"server"⟩, [], some 25⟩
  awg := none

theorem kept_wgInbound : wgInbound.Kept .wireguard where
  tag := rfl
  wg := by
    rintro wg ⟨⟩
    exact ⟨by decide, rfl, rfl⟩
  awg := by
    rintro awg ⟨⟩

def pooledNode : Node :=
  { Node.bare 1 .production with
    pool := some "EU"
    inbounds := AList.insert .wireguard wgInbound ∅ }

def freshApi : World := init (fun _ => false) fun _ => false

theorem inPlace_freshApi : freshApi.InPlace fun _ => .production where
  filed := Nodes.filed_empty
  env := by
    intro node hnode
    cases hnode

def registrations : List (Uuid × Node) := [(1, pooledNode), (2, .bare 2 .production)]

/-- The node registers again as it is. -/
theorem registry_refines_pooled :
    Run.Along register (fun w e => w.Registers (fun _ => .production) e) freshApi
        (registrations ++ (1, pooledNode) :: []) ∧
      ((registrations ++ (1, pooledNode) :: []).foldl register freshApi).Refines id 1 := by
  have hrun : Run.Along register (fun w e => w.Registers (fun _ => .production) e) freshApi
      (registrations ++ (1, pooledNode) :: []) := by
    apply along_registers fun _ => rfl
    simp [registrations, pooledNode, Node.bare]
  refine ⟨hrun, (registry_refines_iff inPlace_freshApi hrun (List.forall_mem_nil _)).mpr ?_⟩
  exact
    { env := by decide
      pool := by
        rintro ⟨⟩
      poolTranslation := fun _ => by decide +kernel
      inbounds := by
        rintro ⟨⟩
      kept := by
        intro tag inbound hinbound
        rw [show pooledNode.inbounds = AList.insert .wireguard wgInbound ∅ from rfl] at hinbound
        obtain ⟨rfl, rfl⟩ := AList.eq_of_lookup_single hinbound
        exact kept_wgInbound }

def unpooledNode : Node := { pooledNode with pool := none }

/-- A node that leaves its pool is out of it in the registry, and in it again after the next
reload. -/
theorem not_refines_unpooled :
    Run.Along register (fun w e => w.Registers (fun _ => .production) e) freshApi
        [(1, pooledNode), (1, unpooledNode)] ∧
      ¬ ([(1, pooledNode), (1, unpooledNode)].foldl register freshApi).Refines id 1 := by
  have hrun : Run.Along register (fun w e => w.Registers (fun _ => .production) e) freshApi
      [(1, pooledNode), (1, unpooledNode)] := by
    apply along_registers fun _ => rfl
    simp [unpooledNode, pooledNode, Node.bare]
  refine ⟨hrun, fun h => ?_⟩
  have hplace := inPlace_freshApi.after_register hrun.1
  have hreloads := ((hplace.holds_register hrun.2.1).refines_iff
    (hplace.after_register hrun.2.1)).mp h
  have hstored : ((freshApi.register (1, pooledNode)).db.nodes.lookup 1).bind NodeRow.pool =
      some "EU" := by decide +kernel
  have hnone := hreloads.pool rfl
  rw [show unpooledNode.uuid = 1 from rfl, hstored] at hnone
  cases hnone

end Runs

end World

end Fcore
