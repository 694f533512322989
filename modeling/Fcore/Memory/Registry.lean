import Fcore.Lib.Run
import Fcore.Memory.Node
import Mathlib.Data.List.Induction

/-!
# Histories of the node registry

The registry is changed by `add` and `remove` alone. A history is the list of these
operations from the empty registry on, and `latestAdded` says what it should have left
under an identifier: the node of the latest `add`, unless a `remove` came after it.

`Nodes.Filed` is what every history keeps: each group holds nodes of its own environment
and no identifier twice. That an identifier is in one group only is kept by a step exactly
if it registers no node that another environment still holds (`Nodes.Allows`); while every
step is such, the registry is `Recorded`, and every scan of it finds what `latestAdded` says.
-/

namespace Fcore

inductive RegistryOp where
  | add (node : Node)
  | remove (id : Uuid)
  deriving DecidableEq

namespace RegistryOp

def apply (nodes : Nodes) : RegistryOp → Nodes
  | add node => (nodes.add node).1
  | remove id => nodes.remove id

def record (id : Uuid) (latest : Option Node) : RegistryOp → Option Node
  | add node => if node.uuid = id then some node else latest
  | remove removed => if removed = id then none else latest

end RegistryOp

def registryAfter (history : List RegistryOp) : Nodes :=
  history.foldl RegistryOp.apply ∅

/-- The node of the latest `add` for an identifier that no `remove` of it followed. -/
def latestAdded (history : List RegistryOp) (id : Uuid) : Option Node :=
  history.foldl (RegistryOp.record id) none

@[simp] theorem registryAfter_nil : registryAfter [] = ∅ := rfl

@[simp] theorem registryAfter_concat (history : List RegistryOp) (op : RegistryOp) :
    registryAfter (history ++ [op]) = op.apply (registryAfter history) := by
  simp [registryAfter]

@[simp] theorem latestAdded_nil (id : Uuid) : latestAdded [] id = none := rfl

@[simp] theorem latestAdded_concat (history : List RegistryOp) (op : RegistryOp) (id : Uuid) :
    latestAdded (history ++ [op]) id = op.record id (latestAdded history id) := by
  simp [latestAdded]

namespace Nodes

/-- Two registries a scan of which may differ in its order only. -/
def SameGroups (nodes nodes' : Nodes) : Prop :=
  ∀ env, nodes'.getByEnv env = nodes.getByEnv env

structure Filed (nodes : Nodes) : Prop where
  own : ∀ env, ∀ node ∈ nodes.group env, node.env = env
  nodup : ∀ env, ((nodes.group env).map Node.uuid).Nodup

/-- An operation registers no node that another environment still holds. -/
def Allows (nodes : Nodes) : RegistryOp → Prop
  | .add node => ∀ other ∈ nodes.all, other.uuid = node.uuid → other.env = node.env
  | .remove _ => True

instance decidableAllows (nodes : Nodes) : ∀ op, Decidable (nodes.Allows op)
  | .add _ => inferInstanceAs (Decidable (∀ _ ∈ _, _))
  | .remove _ => instDecidableTrue

theorem uuids_addToGroup (newNode : Node) (group : List Node) :
    (addToGroup newNode group).1.map Node.uuid =
      if newNode.uuid ∈ group.map Node.uuid then group.map Node.uuid
      else group.map Node.uuid ++ [newNode.uuid] := by
  induction group with
  | nil => simp [addToGroup]
  | cons node rest ih =>
    by_cases hid : node.uuid = newNode.uuid
    · by_cases hsame : node = newNode
      · simp [addToGroup, hsame]
      · simp [addToGroup, hid, hsame]
    · have hid' : newNode.uuid ≠ node.uuid := Ne.symm hid
      simp only [addToGroup, if_neg hid, List.map_cons, ih, List.mem_cons, hid', false_or]
      split
      · rfl
      · rfl

theorem nodup_addToGroup {group : List Node} (hnodup : (group.map Node.uuid).Nodup)
    (newNode : Node) : ((addToGroup newNode group).1.map Node.uuid).Nodup := by
  rw [uuids_addToGroup]
  split
  · exact hnodup
  · rename_i hnew
    rw [← List.concat_eq_append]
    exact hnodup.concat hnew

variable {node : Node} {nodes : Nodes}

theorem mem_addToGroup_iff {newNode : Node} {group : List Node}
    (hnodup : (group.map Node.uuid).Nodup) :
    node ∈ (addToGroup newNode group).1 ↔
      node = newNode ∨ node ∈ group ∧ node.uuid ≠ newNode.uuid := by
  constructor
  · intro h
    by_cases hid : node.uuid = newNode.uuid
    · left
      exact List.inj_on_of_nodup_map (nodup_addToGroup hnodup newNode) h
        (mem_addToGroup_self newNode group) hid
    · rcases mem_addToGroup h with rfl | h
      · exact .inl rfl
      · exact .inr ⟨h, hid⟩
  · rintro (rfl | ⟨h, hid⟩)
    · exact mem_addToGroup_self _ _
    · exact mem_addToGroup_of_ne h hid

theorem filed_empty : Filed ∅ where
  own := by simp [group]
  nodup := by simp [group]

theorem Filed.add (h : nodes.Filed) (newNode : Node) : (nodes.add newNode).1.Filed where
  own := by
    intro env node hnode
    by_cases henv : env = newNode.env
    · subst henv
      rcases mem_group_add_self hnode with rfl | hnode
      · rfl
      · exact h.own _ node hnode
    · rw [group_add_ne henv] at hnode
      exact h.own env node hnode
  nodup := by
    intro env
    by_cases henv : env = newNode.env
    · subst henv
      rw [group_add_self]
      exact nodup_addToGroup (h.nodup _) newNode
    · rw [group_add_ne henv]
      exact h.nodup env

theorem Filed.remove (h : nodes.Filed) (id : Uuid) : (nodes.remove id).Filed where
  own := by
    intro env node hnode
    rw [group_remove] at hnode
    exact h.own env node (List.mem_of_mem_filter hnode)
  nodup := by
    intro env
    rw [group_remove]
    exact (h.nodup env).sublist (List.filter_sublist.map Node.uuid)

theorem Filed.apply (h : nodes.Filed) (op : RegistryOp) : (op.apply nodes).Filed := by
  cases op with
  | add node => exact h.add node
  | remove id => exact h.remove id

theorem mem_group_env (h : nodes.Filed) (hnode : node ∈ nodes.all) :
    node ∈ nodes.group node.env := by
  obtain ⟨env, hgroup⟩ := mem_all_iff.mp hnode
  rwa [h.own env node hgroup]

theorem Filed.mem_all_add_iff (h : nodes.Filed) {newNode : Node}
    (hallows : nodes.Allows (.add newNode)) :
    node ∈ (nodes.add newNode).1.all ↔
      node = newNode ∨ node ∈ nodes.all ∧ node.uuid ≠ newNode.uuid := by
  constructor
  · intro hnode
    have hfiled := mem_group_env (h.add newNode) hnode
    by_cases henv : node.env = newNode.env
    · rw [henv, group_add_self, mem_addToGroup_iff (h.nodup _)] at hfiled
      exact hfiled.imp_right fun hold => ⟨mem_all_iff.mpr ⟨_, hold.1⟩, hold.2⟩
    · rw [group_add_ne henv] at hfiled
      have hold : node ∈ nodes.all := mem_all_iff.mpr ⟨_, hfiled⟩
      exact .inr ⟨hold, fun hid => henv (hallows node hold hid)⟩
  · rintro (rfl | ⟨hnode, hid⟩)
    · refine mem_all_iff.mpr ⟨node.env, ?_⟩
      rw [group_add_self]
      exact mem_addToGroup_self node _
    · refine mem_all_iff.mpr ⟨node.env, ?_⟩
      have hfiled := mem_group_env h hnode
      by_cases henv : node.env = newNode.env
      · rw [henv] at hfiled ⊢
        rw [group_add_self]
        exact mem_addToGroup_of_ne hfiled hid
      · rwa [group_add_ne henv]

theorem Filed.nodup_uuids (h : nodes.Filed)
    (hunique : ∀ node ∈ nodes.all, ∀ other ∈ nodes.all, other.uuid = node.uuid →
      other.env = node.env) : (nodes.all.map Node.uuid).Nodup := by
  rw [all, List.map_flatMap, List.nodup_flatMap]
  have hgroup : ∀ e ∈ nodes.entries, e.2 = nodes.group e.1 := by
    intro e he
    simp [group, AList.lookup_of_mem_entries he]
  refine ⟨?_, ?_⟩
  · intro e he
    rw [hgroup e he]
    exact h.nodup e.1
  · have hkeys : nodes.entries.Pairwise fun e e' => e.1 ≠ e'.1 :=
      List.pairwise_map.mp nodes.nodupKeys
    refine hkeys.imp_of_mem fun {e e'} he he' hne => ?_
    intro id hid hid'
    obtain ⟨node, hnode, rfl⟩ := List.mem_map.mp hid
    obtain ⟨other, hother, hsame⟩ := List.mem_map.mp hid'
    rw [hgroup e he] at hnode
    rw [hgroup e' he'] at hother
    have henv := hunique node (mem_all_iff.mpr ⟨_, hnode⟩) other (mem_all_iff.mpr ⟨_, hother⟩) hsame
    rw [h.own _ node hnode, h.own _ other hother] at henv
    exact hne henv.symm

end Nodes

/-- The registry holds exactly the nodes a history leaves registered. -/
structure Recorded (history : List RegistryOp) : Prop where
  filed : (registryAfter history).Filed
  exactly : ∀ id node, latestAdded history id = some node ↔
    node ∈ (registryAfter history).all ∧ node.uuid = id

theorem recorded_nil : Recorded [] where
  filed := Nodes.filed_empty
  exactly := by simp [Nodes.mem_all_iff, Nodes.group]

variable {history : List RegistryOp}

theorem Recorded.concat (h : Recorded history) {op : RegistryOp}
    (hallows : (registryAfter history).Allows op) : Recorded (history ++ [op]) where
  filed := by
    rw [registryAfter_concat]
    exact h.filed.apply op
  exactly := by
    intro id node
    rw [registryAfter_concat, latestAdded_concat]
    cases op with
    | add newNode =>
      simp only [RegistryOp.apply, RegistryOp.record, h.filed.mem_all_add_iff hallows]
      by_cases hid : newNode.uuid = id
      · rw [if_pos hid, Option.some_inj]
        constructor
        · rintro rfl
          exact ⟨.inl rfl, hid⟩
        · rintro ⟨rfl | ⟨-, hne⟩, hnode⟩
          · rfl
          · exact absurd (hnode.trans hid.symm) hne
      · rw [if_neg hid, h.exactly]
        constructor
        · rintro ⟨hnode, rfl⟩
          exact ⟨.inr ⟨hnode, Ne.symm hid⟩, rfl⟩
        · rintro ⟨rfl | ⟨hnode, -⟩, hnode'⟩
          · exact absurd hnode' hid
          · exact ⟨hnode, hnode'⟩
    | remove removed =>
      simp only [RegistryOp.apply, RegistryOp.record, Nodes.mem_all_remove_iff]
      by_cases hid : removed = id
      · rw [if_pos hid]
        constructor
        · intro hnone
          cases hnone
        · rintro ⟨⟨-, hne⟩, hnode⟩
          exact absurd (hnode.trans hid.symm) hne
      · rw [if_neg hid, h.exactly]
        constructor
        · rintro ⟨hnode, rfl⟩
          exact ⟨⟨hnode, Ne.symm hid⟩, rfl⟩
        · rintro ⟨⟨hnode, -⟩, hnode'⟩
          exact ⟨hnode, hnode'⟩

theorem Recorded.getById (h : Recorded history) {nodes : Nodes}
    (hsame : (registryAfter history).SameGroups nodes) (id : Uuid) :
    nodes.getById id = latestAdded history id := by
  have hmem : ∀ node, node ∈ nodes.all ↔ node ∈ (registryAfter history).all := by
    intro node
    simp only [Nodes.mem_all_iff, Nodes.group]
    exact exists_congr fun env => by
      rw [show nodes.lookup env = (registryAfter history).lookup env from hsame env]
  cases hfound : nodes.getById id with
  | some node =>
    obtain ⟨hnode, hid⟩ := Nodes.getById_eq_some hfound
    exact ((h.exactly id node).mpr ⟨(hmem node).mp hnode, hid⟩).symm
  | none =>
    symm
    rw [Option.eq_none_iff_forall_ne_some]
    intro node hnode
    obtain ⟨hall, hid⟩ := (h.exactly id node).mp hnode
    exact Nodes.getById_eq_none.mp hfound node ((hmem node).mpr hall) hid

/-- What a registry should look like after a history: no identifier twice, every node in
the group of its own environment, and under each identifier what was registered last,
in whatever order the groups are scanned. -/
structure UniquelyRegistered (history : List RegistryOp) : Prop where
  once : ((registryAfter history).all.map Node.uuid).Nodup
  own : ∀ env, ∀ node ∈ (registryAfter history).group env, node.env = env
  latest : ∀ nodes : Nodes, (registryAfter history).SameGroups nodes →
    ∀ id, nodes.getById id = latestAdded history id

theorem Recorded.uniquelyRegistered (h : Recorded history) : UniquelyRegistered history where
  once := by
    refine h.filed.nodup_uuids fun node hnode other hother hid => ?_
    have hnode' := (h.exactly node.uuid node).mpr ⟨hnode, rfl⟩
    have hother' := (h.exactly node.uuid other).mpr ⟨hother, hid⟩
    rw [hnode', Option.some_inj] at hother'
    rw [hother']
  own := h.filed.own
  latest := fun _ hsame id => h.getById hsame id

/-- A step that leaves no identifier twice was allowed: an `add` keeps what other
environments hold. -/
theorem allows_of_nodup {nodes : Nodes} (hfiled : nodes.Filed) {op : RegistryOp}
    (honce : ((op.apply nodes).all.map Node.uuid).Nodup) : nodes.Allows op := by
  cases op with
  | remove id => trivial
  | add newNode =>
    intro other hother hid
    by_contra henv
    have hkept : other ∈ (nodes.add newNode).1.all := by
      refine Nodes.mem_all_iff.mpr ⟨other.env, ?_⟩
      rw [Nodes.group_add_ne henv]
      exact Nodes.mem_group_env hfiled hother
    have hnew : newNode ∈ (nodes.add newNode).1.all := by
      refine Nodes.mem_all_iff.mpr ⟨newNode.env, ?_⟩
      rw [Nodes.group_add_self]
      exact Nodes.mem_addToGroup_self newNode _
    exact henv (congrArg Node.env (List.inj_on_of_nodup_map honce hkept hnew hid))

/-- While every node is registered only where no other environment holds it, the registry
records the history. -/
theorem recorded_of_along (halong : Run.Along RegistryOp.apply Nodes.Allows ∅ history) :
    Recorded history := by
  induction history using List.reverseRecOn with
  | nil => exact recorded_nil
  | append_singleton history op ih =>
    obtain ⟨hbefore, hop, -⟩ := Run.along_append.mp halong
    exact (ih hbefore).concat hop

/-- After every part of a history the registry is as it should be exactly if every node
was registered only while no other environment held its identifier. -/
theorem uniquelyRegistered_iff (history : List RegistryOp) :
    (∀ done, done <+: history → UniquelyRegistered done) ↔
      Run.Along RegistryOp.apply Nodes.Allows ∅ history := by
  constructor
  · intro h
    induction history using List.reverseRecOn with
    | nil => trivial
    | append_singleton history op ih =>
      have hbefore := ih fun done hdone => h done (hdone.trans (List.prefix_append history [op]))
      have honce := (h _ List.prefix_rfl).once
      rw [registryAfter_concat] at honce
      have hop := allows_of_nodup (recorded_of_along hbefore).filed honce
      exact Run.along_append.mpr ⟨hbefore, hop, trivial⟩
  · rintro halong done ⟨rest, rfl⟩
    exact (recorded_of_along (Run.along_append.mp halong).1).uniquelyRegistered

/-- Node 7 is registered in `dev` and then in `production`: both groups keep it. -/
theorem registered_in_two_environments :
    ¬ UniquelyRegistered [.add (Node.bare 7 .dev), .add (Node.bare 7 .production)] := by
  intro h
  have honce := h.once
  revert honce
  decide +kernel

end Fcore
