import Fcore.Handlers.SubscriptionFeed
import Fcore.Lib.SortDedup
import Mathlib.Data.Prod.Lex
import Mathlib.Data.String.Basic

/-!
# The lines of the link feed

The link feed lists a connection on the nodes that are online and that its walk admits, one
line for each. `collectEntries_eq` is the walk as a list of lines. Lines are sorted by host,
tag and connection, and lines that agree in all three coincide (`FeedEntry.byKey`).
-/

namespace Fcore

namespace FeedEntry

def key (e : FeedEntry) : String ×ₗ String ×ₗ ℕ :=
  toLex (e.host, toLex (e.inbound.tag.toText, e.connId.toNat))

theorem byKey : ByKey FeedEntry.le FeedEntry.same FeedEntry.key where
  le_iff e e' := by simp [le, key, Prod.Lex.le_iff, BitVec.le_def]
  same_iff e e' := by
    simp [same, key, Tag.toText_injective.eq_iff, BitVec.toNat_inj]

end FeedEntry

section Feed

variable (b : FeedBackend) (mem : Cache) (req : SubscriptionInfoRequest)
  (share : Option ShareFeedScope)

omit req share in
/-- The line of a connection on a node. -/
def feedLine (c : Uuid × Conn) (node : Node) : Option FeedEntry :=
  (node.inbounds.lookup c.2.proto.proto).map fun inbound =>
    { inbound := inbound
      connId := c.1
      conn := c.2
      hostname := node.hostname
      host := node.connectionHost fun ip => b.ipText (.v4 ip)
      label := connLinkLabel mem.connLabels c.1 (node.cluster.getD node.label) }

omit b mem in
/-- The environment the feed walks through for a connection, and whether the walk is that
of the general list. -/
def feedWalk (c : Uuid × Conn) : Env × Bool :=
  match req.env with
  | .all => (c.2.env, isGeneral req share)
  | .single env => (env, false)

omit b in
/-- Whether the walk lists a connection on a node, if the node may serve. -/
def feedLists (c : Uuid × Conn) (node : Node) : Bool :=
  shareScopeAllows share node.uuid && pinnedTo mem.connNodes c.1 node.uuid &&
    personalOnGeneralList node.env.isPersonal (mem.mainFeedNodes.contains node.uuid)
      (feedWalk req share c).2

/-- The lines of a connection. -/
def feedLines (c : Uuid × Conn) : List FeedEntry :=
  ((mem.nodes.getByEnv (feedWalk req share c).1).getD []).filterMap fun node =>
    if node.status = .online && feedLists mem req share c node then feedLine b mem c node else none

theorem collectEntries_eq (conns : List (Uuid × Conn)) : collectEntries b mem req share conns =
    (conns.filter fun c => req.proto.tags.contains c.2.proto.proto).flatMap
      (feedLines b mem req share) := by
  unfold collectEntries
  induction conns with
  | nil => rfl
  | cons c conns ih =>
    rw [List.flatMap_cons, ih, List.filter_cons]
    cases hproto : req.proto.tags.contains c.2.proto.proto with
    | false => simp
    | true =>
      unfold feedLines feedLists
      cases henv : req.env <;>
        simp [nodeEntries, feedLine, feedWalk, henv, personalOnGeneralList, Bool.and_assoc]

end Feed

end Fcore
