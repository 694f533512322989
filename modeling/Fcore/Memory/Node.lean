import Fcore.Config.Inbound

/-!
# Nodes and the node registry

The registry groups nodes by environment. Insertion looks for the node only in
the group of the environment it is being registered in, so a node that changes
its environment leaves its former entry behind; removal, in contrast, searches
every group. `getById` returns the first entry a scan meets.

`all` flattens the registry, and membership in it is what the results about
registrations are stated with.
-/

namespace Fcore

inductive NodeStatus where
  | online
  | degraded
  | offline
  deriving DecidableEq, Repr

namespace NodeStatus

def isServing : NodeStatus → Bool
  | online | degraded => true
  | offline => false

end NodeStatus

inductive NodeType where
  | node
  | premiumNode
  | service
  | agent
  deriving DecidableEq, Repr

structure Node where
  uuid : Uuid
  env : Env
  hostname : String
  address : Ipv4Addr
  status : NodeStatus
  label : String
  interface : String
  createdAt : DateTime
  modifiedAt : DateTime
  inbounds : Table Tag Inbound
  cores : ℕ
  maxBandwidthBps : ℤ
  country : String
  type : NodeType
  cluster : Option String
  nodeIps : Option (List Ipv4Addr)
  pool : Option String
  poolTranslation : Option (Table String String)
  nodeWeights : Table String ℤ
  deriving DecidableEq

inductive Status where
  | alreadyExist (id : Uuid)
  | notModified (id : Uuid)
  | updated (id : Uuid)
  | notFound (id : Uuid)
  | ok (id : Uuid)
  deriving DecidableEq, Repr

abbrev Nodes := Table Env (List Node)

namespace Nodes

def all (nodes : Nodes) : List Node :=
  nodes.entries.flatMap fun e => e.2

def getByEnv (nodes : Nodes) (env : Env) : Option (List Node) :=
  nodes.lookup env

def getById (nodes : Nodes) (id : Uuid) : Option Node :=
  nodes.all.find? fun node => node.uuid = id

/-- The loop of `add` over one group: replace the first node with the same
identifier, or append. -/
def addToGroup (newNode : Node) : List Node → List Node × Status
  | [] => ([newNode], .ok newNode.uuid)
  | node :: rest =>
    if node.uuid = newNode.uuid then
      if node = newNode then
        (node :: rest, .alreadyExist newNode.uuid)
      else
        (newNode :: rest, .updated newNode.uuid)
    else
      let added := addToGroup newNode rest
      (node :: added.1, added.2)

def add (nodes : Nodes) (newNode : Node) : Nodes × Status :=
  match nodes.lookup newNode.env with
  | some group =>
    let added := addToGroup newNode group
    (nodes.modify newNode.env fun _ => added.1, added.2)
  | none => (AList.insert newNode.env [newNode] nodes, .ok newNode.uuid)

def remove (nodes : Nodes) (id : Uuid) : Nodes :=
  (nodes.mapRows fun _ group => group.filter fun node => node.uuid ≠ id).filterRows
    fun env group => !(group.isEmpty && (nodes.lookup env).any fun before => !before.isEmpty)

def group (nodes : Nodes) (env : Env) : List Node :=
  (nodes.lookup env).getD []

variable {nodes : Nodes} {node newNode : Node} {id : Uuid}

theorem mem_all_iff : node ∈ nodes.all ↔ ∃ env, node ∈ nodes.group env := by
  simp only [all, List.mem_flatMap, group]
  constructor
  · rintro ⟨⟨env, group⟩, hmem, hnode⟩
    exact ⟨env, by simpa [AList.lookup_of_mem_entries hmem] using hnode⟩
  · rintro ⟨env, hnode⟩
    cases hgroup : nodes.lookup env with
    | none => simp [hgroup] at hnode
    | some group =>
      exact ⟨⟨env, group⟩, AList.mem_entries_iff.mpr hgroup, by simpa [hgroup] using hnode⟩

theorem getById_eq_some (h : nodes.getById id = some node) : node ∈ nodes.all ∧ node.uuid = id := by
  refine ⟨List.mem_of_find?_eq_some h, ?_⟩
  simpa using List.find?_some h

theorem getById_eq_none : nodes.getById id = none ↔ ∀ node ∈ nodes.all, node.uuid ≠ id := by
  simp [getById]

theorem mem_addToGroup {group : List Node} (h : node ∈ (addToGroup newNode group).1) :
    node = newNode ∨ node ∈ group := by
  induction group with
  | nil => simpa [addToGroup] using h
  | cons first rest ih =>
    simp only [addToGroup] at h
    split at h
    · split at h
      · exact .inr h
      · simp only [List.mem_cons] at h ⊢
        tauto
    · simp only [List.mem_cons] at h ⊢
      rcases h with h | h
      · exact .inr (.inl h)
      · rcases ih h with h | h
        · exact .inl h
        · exact .inr (.inr h)

theorem group_add_ne {env : Env} (h : env ≠ newNode.env) :
    (nodes.add newNode).1.group env = nodes.group env := by
  unfold add
  split <;> simp [group, h]

theorem mem_group_add_self (h : node ∈ (nodes.add newNode).1.group newNode.env) :
    node = newNode ∨ node ∈ nodes.group newNode.env := by
  unfold add at h
  split at h
  · rename_i before hbefore
    simp only [group, AList.lookup_modify_self, hbefore, Option.map_some, Option.getD_some] at h ⊢
    exact mem_addToGroup h
  · left
    simpa [group] using h

theorem mem_all_add (h : node ∈ (nodes.add newNode).1.all) : node = newNode ∨ node ∈ nodes.all := by
  obtain ⟨env, henv⟩ := mem_all_iff.mp h
  by_cases hne : env = newNode.env
  · subst hne
    rcases mem_group_add_self henv with h | h
    · exact .inl h
    · exact .inr (mem_all_iff.mpr ⟨_, h⟩)
  · rw [group_add_ne hne] at henv
    exact .inr (mem_all_iff.mpr ⟨env, henv⟩)

theorem mem_addToGroup_self (newNode : Node) (group : List Node) :
    newNode ∈ (addToGroup newNode group).1 := by
  induction group with
  | nil => simp [addToGroup]
  | cons first rest ih =>
    simp only [addToGroup]
    split
    · split
      · rename_i hsame
        rw [hsame]
        exact List.mem_cons_self
      · exact List.mem_cons_self
    · exact List.mem_cons_of_mem first ih

theorem mem_addToGroup_of_ne {group : List Node} (h : node ∈ group)
    (hne : node.uuid ≠ newNode.uuid) : node ∈ (addToGroup newNode group).1 := by
  induction group with
  | nil => cases h
  | cons first rest ih =>
    simp only [addToGroup]
    rcases List.mem_cons.mp h with rfl | h
    · rw [if_neg hne]
      exact List.mem_cons_self
    · split
      · split
        · exact List.mem_cons_of_mem first h
        · exact List.mem_cons_of_mem newNode h
      · exact List.mem_cons_of_mem first (ih h)

theorem group_add_self (nodes : Nodes) (newNode : Node) :
    (nodes.add newNode).1.group newNode.env = (addToGroup newNode (nodes.group newNode.env)).1 := by
  unfold add group
  cases hgroup : nodes.lookup newNode.env with
  | none => simp [addToGroup]
  | some before => simp [AList.lookup_modify_self, hgroup]

theorem group_remove (nodes : Nodes) (id : Uuid) (env : Env) :
    (nodes.remove id).group env = (nodes.group env).filter fun node => node.uuid ≠ id := by
  simp only [group, remove, AList.lookup_filterRows, AList.lookup_mapRows]
  cases hgroup : nodes.lookup env with
  | none => simp
  | some before =>
    rw [Option.map_some, Option.filter_some]
    split
    · rfl
    · rename_i hdropped
      simp only [Bool.not_eq_true', Bool.and_eq_false_iff, not_or, Bool.not_eq_false] at hdropped
      simpa using hdropped.1

theorem mem_all_remove_iff : node ∈ (nodes.remove id).all ↔ node ∈ nodes.all ∧ node.uuid ≠ id := by
  simp only [mem_all_iff, group_remove, List.mem_filter, decide_eq_true_eq]
  exact exists_and_right

end Nodes

namespace Node

/-- The cluster domain when the node belongs to a cluster, otherwise its
address. The text of an address is left to the caller. -/
def connectionHost (ipText : Ipv4Addr → String) (node : Node) : String :=
  match node.cluster with
  | some cluster => if cluster ≠ "" then cluster else ipText node.address
  | none => ipText node.address

def hasInbound (node : Node) (tag : Tag) : Bool :=
  node.inbounds.entries.any fun e => e.2.tag = tag

/-- The entry addresses: `nodeIps` in their order, else `address` alone. -/
def entryIps (ipText : Ipv4Addr → String) (node : Node) : List String :=
  match (node.nodeIps.map fun ips => ips.map ipText).filter fun ips => !ips.isEmpty with
  | some ips => ips
  | none => [ipText node.address]

def defaultNodeWeight : ℤ := 100

def weightFor (node : Node) (ip : String) : ℤ :=
  match node.nodeWeights.lookup ip with
  | some weight => if 0 < weight then weight else defaultNodeWeight
  | none => defaultNodeWeight

def weightsByIp (ipText : Ipv4Addr → String) (node : Node) : Table String ℤ :=
  (node.entryIps ipText).foldl (fun weights ip => AList.insert ip (node.weightFor ip) weights) ∅

def maxOfWeights (weights : Table String ℤ) : ℤ :=
  (weights.entries.map fun e => e.2).max?.getD defaultNodeWeight

def maxWeight (ipText : Ipv4Addr → String) (node : Node) : ℤ :=
  maxOfWeights (node.weightsByIp ipText)

/-- A node of which only the identifier and the environment are set. -/
def bare (uuid : Uuid) (env : Env) : Node where
  uuid := uuid
  env := env
  hostname := "n"
  address := 0
  status := .online
  label := "n"
  interface := "eth0"
  createdAt := 0
  modifiedAt := 0
  inbounds := ∅
  cores := 1
  maxBandwidthBps := 0
  country := "FI"
  type := .node
  cluster := none
  nodeIps := none
  pool := none
  poolTranslation := none
  nodeWeights := ∅

end Node

end Fcore
