import Fcore.Sync.Node

/-!
# The status of a node

A registration writes the status of the node to the table and to the registry. An update
of the status reaches the table, while in memory it changes a copy. So table and registry
agree on the status after both exactly if the registration had that status already, and so
had every entry of the node that it left alone.
-/

namespace Fcore

namespace Nodes

def entriesOf (nodes : Nodes) (id : Uuid) (env : Env) : List Node :=
  (nodes.group env).filter fun node => decide (node.uuid = id)

theorem filter_addToGroup (newNode : Node) (group : List Node) :
    ((addToGroup newNode group).1.filter fun node => decide (node.uuid = newNode.uuid)) =
      newNode :: (group.filter fun node => decide (node.uuid = newNode.uuid)).tail := by
  induction group with
  | nil => simp [addToGroup]
  | cons first rest ih =>
    simp only [addToGroup]
    by_cases hid : first.uuid = newNode.uuid
    · rw [if_pos hid, List.filter_cons_of_pos (by simpa using hid)]
      split
      · rename_i hsame
        rw [hsame, List.filter_cons_of_pos (by simp)]
        rfl
      · rw [List.filter_cons_of_pos (by simp)]
        rfl
    · rw [if_neg hid, List.filter_cons_of_neg (by simpa using hid),
        List.filter_cons_of_neg (by simpa using hid), ih]

def entriesLeft (nodes : Nodes) (newNode : Node) (env : Env) : List Node :=
  if env = newNode.env then (nodes.entriesOf newNode.uuid env).tail
  else nodes.entriesOf newNode.uuid env

theorem entriesOf_add (nodes : Nodes) (newNode : Node) (env : Env) :
    (nodes.add newNode).1.entriesOf newNode.uuid env =
      if env = newNode.env then newNode :: nodes.entriesLeft newNode env
      else nodes.entriesLeft newNode env := by
  unfold entriesLeft
  by_cases henv : env = newNode.env
  · subst henv
    rw [if_pos rfl, if_pos rfl, entriesOf, group_add_self, filter_addToGroup, entriesOf]
  · rw [if_neg henv, if_neg henv, entriesOf, group_add_ne henv, entriesOf]

end Nodes

namespace World

/-- Registry and table have a node with one status, wherever it is looked up. -/
structure StatusCoherent (w : World) (id : Uuid) (status : NodeStatus) : Prop where
  stored : ∃ row, w.db.nodes.lookup id = some row ∧ row.status = status
  byId : ∃ node, w.mem.nodes.getById id = some node ∧ node.status = status
  byEnv : ∀ env nodes, w.mem.nodes.getByEnv env = some nodes →
    ∀ node ∈ nodes, node.uuid = id → node.status = status

def registerThenUpdate (node : Node) (status : NodeStatus) (now : DateTime) (w : World) : World :=
  ((w.addNode node.uuid node).1.updateNodeStatus node.uuid status now).1

variable {w : World} {node : Node} {status : NodeStatus} {now : DateTime}

/-- Both operations succeed. -/
structure BothOk (w : World) (node : Node) (status : NodeStatus) (now : DateTime) : Prop where
  added : ∃ result, (w.addNode node.uuid node).2 = .ok result
  updated : ((w.addNode node.uuid node).1.updateNodeStatus node.uuid status now).2 = .ok ()

theorem BothOk.registerThenUpdate (h : w.BothOk node status now) :
    (w.registerThenUpdate node status now).mem.nodes = (w.mem.nodes.add node).1 ∧
      ∃ row, (w.registerThenUpdate node status now).db.nodes.lookup node.uuid = some row ∧
        row.status = status := by
  rcases addNode_cases node.uuid node w with ⟨⟨e, he⟩, -⟩ | ⟨-, hdb, hmem⟩
  · obtain ⟨result, hok⟩ := h.added
    exact absurd (hok.symm.trans he) (by simp)
  · constructor
    · rw [World.registerThenUpdate, updateNodeStatus, dbExec_mem, hmem]
    · rcases dbExec_cases (Db.updateNodeStatus node.uuid status now)
        (w.addNode node.uuid node).1 with ⟨⟨e, he⟩, -⟩ | ⟨-, hupdate⟩
      · exact absurd (h.updated.symm.trans he) (by simp)
      · rw [World.registerThenUpdate, updateNodeStatus, hupdate, hdb, Db.updateNodeStatus,
          AList.lookup_modify_self, Db.upsertNode_nodes_self]
        exact ⟨_, rfl, rfl⟩

theorem statusCoherent_iff_entries {nodes : Nodes} (hmem : w.mem.nodes = nodes) {id : Uuid}
    (hrow : ∃ row, w.db.nodes.lookup id = some row ∧ row.status = status)
    (hfound : ∃ env, ∃ node, node ∈ nodes.entriesOf id env) :
    w.StatusCoherent id status ↔ ∀ env, ∀ node ∈ nodes.entriesOf id env, node.status = status := by
  subst hmem
  constructor
  · intro h env node hnode
    obtain ⟨hgroup, hid⟩ := List.mem_filter.mp hnode
    unfold Nodes.group at hgroup
    cases hnodes : w.mem.nodes.lookup env with
    | none =>
      rw [hnodes] at hgroup
      cases hgroup
    | some group =>
      rw [hnodes] at hgroup
      exact h.byEnv env group hnodes node hgroup (of_decide_eq_true hid)
  · intro h
    refine ⟨hrow, ?_, fun env group hgroup node hnode hid => ?_⟩
    · obtain ⟨env, node, hnode⟩ := hfound
      obtain ⟨hgroup, hid⟩ := List.mem_filter.mp hnode
      cases hget : w.mem.nodes.getById id with
      | none =>
        exact absurd (of_decide_eq_true hid)
          (Nodes.getById_eq_none.mp hget node (Nodes.mem_all_iff.mpr ⟨env, hgroup⟩))
      | some found =>
        obtain ⟨hall, hid⟩ := Nodes.getById_eq_some hget
        obtain ⟨env, henv⟩ := Nodes.mem_all_iff.mp hall
        exact ⟨found, rfl, h env found (List.mem_filter.mpr ⟨henv, decide_eq_true hid⟩)⟩
    · apply h env node
      rw [Nodes.getByEnv] at hgroup
      rw [Nodes.entriesOf, Nodes.group, hgroup]
      exact List.mem_filter.mpr ⟨hnode, decide_eq_true hid⟩

/-- After the registration of a node and an update of its status, table and registry agree
on the status exactly if the node was registered with it and every entry the registration
left alone has it too. -/
theorem statusCoherent_iff (h : w.BothOk node status now) :
    (w.registerThenUpdate node status now).StatusCoherent node.uuid status ↔
      node.status = status ∧
        ∀ env, ∀ entry ∈ w.mem.nodes.entriesLeft node env, entry.status = status := by
  obtain ⟨hmem, hrow⟩ := h.registerThenUpdate
  have hself : node ∈ (w.mem.nodes.add node).1.entriesOf node.uuid node.env := by
    rw [Nodes.entriesOf_add, if_pos rfl]
    exact List.mem_cons_self
  rw [statusCoherent_iff_entries hmem hrow ⟨node.env, node, hself⟩]
  constructor
  · intro hall
    refine ⟨hall node.env node hself, fun env entry hentry => hall env entry ?_⟩
    rw [Nodes.entriesOf_add]
    split
    · exact List.mem_cons_of_mem node hentry
    · exact hentry
  · rintro ⟨hnode, hleft⟩ env entry hentry
    rw [Nodes.entriesOf_add] at hentry
    split at hentry
    · rcases List.mem_cons.mp hentry with rfl | hentry
      · exact hnode
      · exact hleft env entry hentry
    · exact hleft env entry hentry

section Runs

theorem bothOk_init (node : Node) (status : NodeStatus) (now : DateTime) :
    (init (fun _ => false) fun _ => false).BothOk node status now :=
  ⟨⟨_, rfl⟩, rfl⟩

/-- A node that was registered as online, and is said to be so. -/
theorem statusCoherent_online :
    (init (fun _ => false) fun _ => false).BothOk (.bare 1 .production) .online 0 ∧
      ((init (fun _ => false) fun _ => false).registerThenUpdate (.bare 1 .production)
        .online 0).StatusCoherent 1 .online := by
  refine ⟨bothOk_init _ _ _, (statusCoherent_iff (bothOk_init _ _ _)).mpr ⟨rfl, ?_⟩⟩
  intro env entry hentry
  unfold Nodes.entriesLeft at hentry
  split at hentry <;> cases hentry

/-- When the node goes offline, the registry has it as online still. -/
theorem not_statusCoherent_offline :
    (init (fun _ => false) fun _ => false).BothOk (.bare 1 .production) .offline 0 ∧
      ¬ ((init (fun _ => false) fun _ => false).registerThenUpdate (.bare 1 .production)
        .offline 0).StatusCoherent 1 .offline := by
  refine ⟨bothOk_init _ _ _, fun h => ?_⟩
  obtain ⟨node, hnode, hstatus⟩ := h.byId
  cases hnode
  cases hstatus

end Runs

end World

end Fcore
