import Fcore.Handlers.PrivateNode
import Fcore.Sync.Registration

/-!
# The nodes of an account

The cabinet lists the nodes of an account in the environment it owns: the scope
of the subscription if that is a personal or a premium environment, and else its
personal environment. Deleting a node and putting it on the main feed compare
with the personal environment alone.
-/

namespace Fcore

def ownedEnv (sub : Subscription) (subscriptionId : Uuid) : Env :=
  (sub.scopeEnv.filter fun env => env.isPersonal || env.isPremium).getD
    (personalEnv subscriptionId)

structure PrivateNodeResponse where
  uuid : Uuid
  hostname : String
  address : Ipv4Addr
  label : String
  country : String
  status : NodeStatus
  env : String
  inbounds : List String

def Node.asPrivateNodeResponse (node : Node) : PrivateNodeResponse where
  uuid := node.uuid
  hostname := node.hostname
  address := node.address
  label := node.label
  country := node.country
  status := node.status
  env := node.env.asStr
  inbounds := node.inbounds.entries.map fun e => e.2.tag.toText

def listPrivateNodesHandler (subscriptionId : Uuid) (mem : Cache) :
    Except Reply (List PrivateNodeResponse) :=
  match mem.subscriptions.lookup subscriptionId with
  | none => .error (.notFound "subscription not found")
  | some sub =>
    if sub.isDeleted then .error (.notFound "subscription not found")
    else
      .ok (((mem.nodes.getByEnv (ownedEnv sub subscriptionId)).getD []).map
        Node.asPrivateNodeResponse)

def ownedNode (subscriptionId nodeId : Uuid) (mem : Cache) : Option Node :=
  (mem.subscriptions.lookup subscriptionId).bind fun sub =>
    if sub.isDeleted then none
    else
      ((mem.nodes.getByEnv (ownedEnv sub subscriptionId)).getD []).find? fun node =>
        node.uuid = nodeId

/-- What deleting a node and setting its feed flag check alike. -/
def checkNodeOwner (subscriptionId nodeId : Uuid) (mem : Cache) : Except Reply Unit :=
  let env := personalEnv subscriptionId
  match mem.subscriptions.lookup subscriptionId with
  | none => .error (.notFound "subscription not found")
  | some sub =>
    if sub.isDeleted then .error (.notFound "subscription not found")
    else
      match mem.nodes.getById nodeId with
      | none => .error (.notFound "node not found")
      | some node =>
        if node.env ≠ env || !node.env.isPersonal then
          .error (.forbidden "node is not owned by this subscription")
        else .ok ()

namespace Db

def insertPrivateFeed (nodeId : Uuid) (db : Db) : Db :=
  { db with privateNodeFeed := db.privateNodeFeed.insert nodeId }

def deletePrivateFeed (nodeId : Uuid) (db : Db) : Db :=
  { db with privateNodeFeed := db.privateNodeFeed.filter fun id => id ≠ nodeId }

end Db

def setPrivateFeedHandler (nodeId subscriptionId : Uuid) (included : Bool) (w : World) :
    World × Reply :=
  match checkNodeOwner subscriptionId nodeId w.mem with
  | .error reply => (w, reply)
  | .ok () =>
    match w.dbExec
      (if included then Db.insertPrivateFeed nodeId else Db.deletePrivateFeed nodeId) with
    | (w, .error _) => (w, .internalError "db error")
    | (w, .ok ()) =>
      (w.writeMem fun mem =>
        { mem with
          mainFeedNodes :=
            if included then mem.mainFeedNodes.insert nodeId
            else mem.mainFeedNodes.filter fun id => id ≠ nodeId },
        .success "Ok")

def deletePrivateNodeHandler (nodeId subscriptionId : Uuid) (w : World) : World × Reply :=
  match checkNodeOwner subscriptionId nodeId w.mem with
  | .error reply => (w, reply)
  | .ok () =>
    match w.deleteNode nodeId with
    | (w, .ok (.ok _)) | (w, .ok (.notFound _)) => (w, .success "Ok")
    | (w, .ok _) => (w, .badRequest "operation not supported")
    | (w, .error _) => (w, .internalError "delete failed")

section Agreement

variable {w : World} {nodeId subscriptionId : Uuid} {sub : Subscription} {node : Node}

/-- The node is rejected as one of another account. -/
def Reply.NotOwned (reply : Reply) : Prop :=
  reply = .forbidden "node is not owned by this subscription"

theorem notOwned_setPrivateFeedHandler (included : Bool) :
    (setPrivateFeedHandler nodeId subscriptionId included w).2.NotOwned ↔
      checkNodeOwner subscriptionId nodeId w.mem =
        .error (.forbidden "node is not owned by this subscription") := by
  unfold setPrivateFeedHandler Reply.NotOwned
  cases checkNodeOwner subscriptionId nodeId w.mem with
  | error reply => exact ⟨congrArg _, fun h => Except.error.inj h⟩
  | ok _ =>
    dsimp only
    split
    · simp [Reply.internalError, Reply.forbidden]
    · simp [Reply.success, Reply.forbidden]

theorem notOwned_deletePrivateNodeHandler :
    (deletePrivateNodeHandler nodeId subscriptionId w).2.NotOwned ↔
      checkNodeOwner subscriptionId nodeId w.mem =
        .error (.forbidden "node is not owned by this subscription") := by
  unfold deletePrivateNodeHandler Reply.NotOwned
  cases checkNodeOwner subscriptionId nodeId w.mem with
  | error reply => exact ⟨congrArg _, fun h => Except.error.inj h⟩
  | ok _ =>
    dsimp only
    split
    · simp [Reply.success, Reply.forbidden]
    · simp [Reply.success, Reply.forbidden]
    · simp [Reply.badRequest, Reply.forbidden]
    · simp [Reply.internalError, Reply.forbidden]

/-- The four handlers take the node for one of the account, or all of them do not. -/
structure OwnersAgree (subscriptionId nodeId : Uuid) (w : World) : Prop where
  listed : (∃ nodes, listPrivateNodesHandler subscriptionId w.mem = .ok nodes ∧
    ∃ node ∈ nodes, node.uuid = nodeId) ↔ (ownedNode subscriptionId nodeId w.mem).isSome
  delete : (ownedNode subscriptionId nodeId w.mem).isSome ↔
    ¬ (deletePrivateNodeHandler nodeId subscriptionId w).2.NotOwned
  feed : ∀ included, (ownedNode subscriptionId nodeId w.mem).isSome ↔
    ¬ (setPrivateFeedHandler nodeId subscriptionId included w).2.NotOwned

variable (hsub : w.mem.subscriptions.lookup subscriptionId = some sub)
  (hlive : sub.isDeleted = false) (hfiled : w.mem.nodes.Filed) (hnode : node ∈ w.mem.nodes.all)
  (hunique : ∀ other ∈ w.mem.nodes.all, other.uuid = node.uuid → other.env = node.env)
include hsub hlive

theorem listed_iff_ownedNode : (∃ nodes, listPrivateNodesHandler subscriptionId w.mem = .ok nodes ∧
    ∃ node ∈ nodes, node.uuid = nodeId) ↔ (ownedNode subscriptionId nodeId w.mem).isSome := by
  simp [listPrivateNodesHandler, ownedNode, hsub, hlive, Node.asPrivateNodeResponse]

include hfiled hnode hunique

theorem isSome_ownedNode_iff : (ownedNode subscriptionId node.uuid w.mem).isSome ↔
    node.env = ownedEnv sub subscriptionId := by
  have howned : (ownedNode subscriptionId node.uuid w.mem).isSome ↔
      ∃ other ∈ w.mem.nodes.group (ownedEnv sub subscriptionId), other.uuid = node.uuid := by
    simp [ownedNode, hsub, hlive, Nodes.group, Nodes.getByEnv]
  rw [howned]
  constructor
  · rintro ⟨other, hother, hid⟩
    rw [← hunique other (Nodes.mem_all_iff.mpr ⟨_, hother⟩) hid, hfiled.own _ other hother]
  · intro henv
    exact ⟨node, henv ▸ Nodes.mem_group_env hfiled hnode, rfl⟩

theorem checkNodeOwner_iff : checkNodeOwner subscriptionId node.uuid w.mem ≠
    .error (.forbidden "node is not owned by this subscription") ↔
      node.env = personalEnv subscriptionId := by
  have hfound := hfiled.getById_of_mem hnode hunique
  have hpersonal : (personalEnv subscriptionId).isPersonal = true := by
    simp [personalEnv, Env.personalFor, Env.isPersonal, startsWith_append]
  simp only [checkNodeOwner, hsub, hlive, hfound, Bool.false_eq_true, if_false]
  by_cases henv : node.env = personalEnv subscriptionId
  · simp [henv, hpersonal]
  · simp [henv]

/-- For a live account and a node of the registry, listing it and deleting it agree exactly if
the account owns its personal environment, or the node is in neither of its environments. -/
theorem ownersAgree_iff : OwnersAgree subscriptionId node.uuid w ↔
    ownedEnv sub subscriptionId = personalEnv subscriptionId ∨
      node.env ≠ ownedEnv sub subscriptionId ∧ node.env ≠ personalEnv subscriptionId := by
  have howned := isSome_ownedNode_iff hsub hlive hfiled hnode hunique
  have hcheck := checkNodeOwner_iff hsub hlive hfiled hnode hunique
  have hagree : OwnersAgree subscriptionId node.uuid w ↔
      (node.env = ownedEnv sub subscriptionId ↔ node.env = personalEnv subscriptionId) := by
    constructor
    · intro h
      rw [← howned, h.delete, notOwned_deletePrivateNodeHandler, ← hcheck]
    · intro h
      refine ⟨listed_iff_ownedNode hsub hlive, ?_, fun included => ?_⟩
      · rw [notOwned_deletePrivateNodeHandler, howned, h, ← hcheck]
      · rw [notOwned_setPrivateFeedHandler, howned, h, ← hcheck]
  rw [hagree]
  constructor
  · intro h
    by_cases henv : node.env = ownedEnv sub subscriptionId
    · exact .inl (henv.symm.trans (h.mp henv))
    · exact .inr ⟨henv, fun hpersonal => henv (h.mpr hpersonal)⟩
  · rintro (henv | ⟨howned, hpersonal⟩)
    · rw [henv]
    · exact iff_of_false howned hpersonal

end Agreement

/-- An account with a scope, and a node in some environment. -/
def accountWithNode (scope : Option Env) (env : Env) : World :=
  (World.init (fun _ => false) fun _ => false).writeMem fun mem => { mem with
    subscriptions := AList.insert 7 { Subscription.new 7 "" none none 0 with scopeEnv := scope } ∅
    nodes := AList.insert env [.bare 1 env] ∅ }

theorem not_ownersAgree_premium :
    ¬ OwnersAgree 7 1 (accountWithNode (some (.custom "premium7")) (.custom "premium7")) := by
  intro h
  have howned : (ownedNode 7 1
      (accountWithNode (some (.custom "premium7")) (.custom "premium7")).mem).isSome := by
    decide
  exact h.delete.mp howned (by unfold Reply.NotOwned; decide)

theorem ownersAgree_personal : OwnersAgree 7 1 (accountWithNode none (.personalFor 7)) := by
  have hnode : .bare 1 (.personalFor 7) ∈ (accountWithNode none (.personalFor 7)).mem.nodes.all :=
    List.mem_singleton.mpr rfl
  refine (ownersAgree_iff rfl rfl ?_ hnode ?_).mpr (.inl rfl)
  · exact Nodes.filed_empty.add (.bare 1 (.personalFor 7))
  · rintro other hother -
    rw [List.mem_singleton.mp hother]

end Fcore
