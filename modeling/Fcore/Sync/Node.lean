import Fcore.Postgres.Node
import Fcore.Sync.World

/-!
# Node operations of the api

Each operation writes the database first and the registry second. The status
update changes the registry's node in a copy only, so in memory it has no effect.

`World.NodeWrites` is what a registration may do to the whole process: the tables
change as in `Db.NodeWrites`, the registry gains at most the node in the given
environment, and no other group of the registry changes.
-/

namespace Fcore

namespace World

def addNode (nodeId : Uuid) (node : Node) (w : World) : World × Except SyncError Status :=
  match w.dbExec (Db.upsertNode nodeId node) with
  | (w, .error e) => (w, .error e)
  | (w, .ok ()) =>
    (w.writeMem fun mem => { mem with nodes := (mem.nodes.add node).1 }, .ok (.ok nodeId))

def deleteNode (nodeId : Uuid) (w : World) : World × Except SyncError Status :=
  match w.dbExec (Db.deleteNode nodeId) with
  | (w, .error e) => (w, .error e)
  | (w, .ok ()) =>
    (w.writeMem fun mem => { mem with nodes := mem.nodes.remove nodeId },
      .ok (if (w.mem.nodes.getById nodeId).isSome then .ok nodeId else .notFound nodeId))

def updateNodeStatus (nodeId : Uuid) (status : NodeStatus) (now : DateTime) (w : World) :
    World × Except SyncError Unit :=
  w.dbExec (Db.updateNodeStatus nodeId status now)

structure NodeWrites (nodeId : Uuid) (env : Env) (w w' : World) : Prop where
  db : w.db.NodeWrites nodeId env w'.db
  registry : ∀ node ∈ w'.mem.nodes.all,
    node ∈ w.mem.nodes.all ∨ (node.uuid = nodeId ∧ node.env = env)
  group_ne : ∀ e, e ≠ env → w'.mem.nodes.group e = w.mem.nodes.group e

namespace NodeWrites

variable {nodeId : Uuid} {env : Env} {w w' w'' : World}

theorem refl (nodeId : Uuid) (env : Env) (w : World) : NodeWrites nodeId env w w :=
  ⟨.refl nodeId env w.db, fun _ h => .inl h, fun _ _ => rfl⟩

theorem trans (h : NodeWrites nodeId env w w') (h' : NodeWrites nodeId env w' w'') :
    NodeWrites nodeId env w w'' where
  db := h.db.trans h'.db
  registry node hnode := by
    rcases h'.registry node hnode with hmem | hnew
    · exact h.registry node hmem
    · exact .inr hnew
  group_ne e he := (h'.group_ne e he).trans (h.group_ne e he)

/-- A step that leaves the registry alone is judged by its effect on the
tables. -/
theorem of_db (hmem : w'.mem = w.mem) (hdb : w.db.NodeWrites nodeId env w'.db) :
    NodeWrites nodeId env w w' :=
  ⟨hdb, fun _ h => .inl (hmem ▸ h), fun _ _ => by rw [hmem]⟩

theorem dbRead {α : Type*} (f : Db → α) (w : World) : NodeWrites nodeId env w (w.dbRead f).1 :=
  of_db (dbRead_mem f w) (by rw [dbRead_db]; exact .refl nodeId env w.db)

theorem dbCall {α : Type*} {f : Db → Except SyncError (Db × α)}
    (h : ∀ db a, f w.db = .ok (db, a) → w.db.NodeWrites nodeId env db) :
    NodeWrites nodeId env w (w.dbCall f).1 :=
  of_db (dbCall_mem f w) (dbCall_rel (.refl nodeId env w.db) h)

theorem dbExec {f : Db → Db} (h : w.db.NodeWrites nodeId env (f w.db)) :
    NodeWrites nodeId env w (w.dbExec f).1 := by
  refine dbCall ?_
  rintro db a heq
  cases heq
  exact h

theorem addNode {node : Node} (huuid : node.uuid = nodeId) (henv : node.env = env) (w : World) :
    NodeWrites nodeId env w (w.addNode nodeId node).1 := by
  have hexec : NodeWrites nodeId env w (w.dbExec (Db.upsertNode nodeId node)).1 :=
    dbExec (.upsertNode henv w.db)
  unfold World.addNode
  split
  · rename_i w₁ e heq
    rwa [heq] at hexec
  · rename_i w₁ heq
    rw [heq] at hexec
    refine hexec.trans ⟨.refl nodeId env _, ?_, ?_⟩
    · intro node' hnode'
      rcases Nodes.mem_all_add hnode' with rfl | hmem
      · exact .inr ⟨huuid, henv⟩
      · exact .inl hmem
    · intro e he
      exact Nodes.group_add_ne (henv ▸ he)

theorem updateNodeStatus (status : NodeStatus) (now : DateTime) (w : World) :
    NodeWrites nodeId env w (w.updateNodeStatus nodeId status now).1 :=
  dbExec (.updateNodeStatus status now w.db)

end NodeWrites

/-- A registration fails and leaves table and registry alone, or writes both. -/
theorem addNode_cases (nodeId : Uuid) (node : Node) (w : World) :
    ((∃ e, (w.addNode nodeId node).2 = .error e) ∧ (w.addNode nodeId node).1.db = w.db ∧
      (w.addNode nodeId node).1.mem = w.mem) ∨
    ((w.addNode nodeId node).2 = .ok (.ok nodeId) ∧
      (w.addNode nodeId node).1.db = w.db.upsertNode nodeId node ∧
      (w.addNode nodeId node).1.mem = { w.mem with nodes := (w.mem.nodes.add node).1 }) := by
  have hmem := dbExec_mem (Db.upsertNode nodeId node) w
  unfold addNode
  rcases dbExec_cases (Db.upsertNode nodeId node) w with ⟨⟨e, he⟩, hdb⟩ | ⟨hok, hdb⟩
  · split
    · rename_i w₁ e' heq
      rw [heq] at hdb hmem
      exact .inl ⟨⟨e', rfl⟩, hdb, hmem⟩
    · rename_i w₁ heq
      rw [heq] at he
      cases he
  · split
    · rename_i w₁ e heq
      rw [heq] at hok
      cases hok
    · rename_i w₁ heq
      rw [heq] at hdb hmem
      exact .inr ⟨rfl, hdb, by rw [writeMem_mem, hmem]⟩

theorem addNode_row {nodeId : Uuid} {node : Node} {w : World} {status : Status}
    (h : (w.addNode nodeId node).2 = .ok status) :
    ∃ row, (w.addNode nodeId node).1.db.nodes.lookup nodeId = some row ∧
      row.env = node.env.asStr := by
  rcases addNode_cases nodeId node w with ⟨⟨e, he⟩, -⟩ | ⟨-, hdb, -⟩
  · rw [h] at he
    cases he
  · exact ⟨node.toRow (w.db.nodes.lookup nodeId), by rw [hdb, Db.upsertNode_nodes_self], rfl⟩

theorem deleteNode_spec (nodeId : Uuid) (w : World) :
    (∀ id row, (w.deleteNode nodeId).1.db.nodes.lookup id = some row →
      w.db.nodes.lookup id = some row) ∧
    ∀ node ∈ (w.deleteNode nodeId).1.mem.nodes.all, node ∈ w.mem.nodes.all := by
  have hmem := dbExec_mem (Db.deleteNode nodeId) w
  have hdb : ∀ id row, (w.dbExec (Db.deleteNode nodeId)).1.db.nodes.lookup id = some row →
      w.db.nodes.lookup id = some row := by
    intro id row hrow
    rcases dbExec_cases (Db.deleteNode nodeId) w with ⟨-, hdb⟩ | ⟨-, hdb⟩
    · rwa [hdb] at hrow
    · rw [hdb, Db.deleteNode, AList.lookup_erase_eq_ite] at hrow
      split at hrow
      · cases hrow
      · exact hrow
  unfold deleteNode
  split
  · rename_i w₁ e heq
    rw [heq] at hmem hdb
    exact ⟨hdb, fun node hnode => hmem ▸ hnode⟩
  · rename_i w₁ heq
    rw [heq] at hmem hdb
    refine ⟨hdb, fun node hnode => ?_⟩
    rw [← hmem]
    exact (Nodes.mem_all_remove_iff.mp hnode).1

end World

end Fcore
