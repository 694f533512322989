import Fcore.Memory.AddressText
import Fcore.Postgres.Db

/-!
# Node tables

The writes to `nodes`, `inbounds`, `install_tokens` and `node_access_tokens`.
The upsert of a node is keyed by its identifier alone: a row that exists is
overwritten whatever environment it belongs to. The one check made on behalf of
an account is the number of its nodes, counted by environment.

Each statement comes with what it leaves alone, so that the handlers above never
look inside it.
-/

namespace Fcore

/-- The row an insert writes; on a conflict the pool columns of the stored row
survive a missing value. -/
def Node.toRow (node : Node) (old : Option NodeRow) : NodeRow where
  env := node.env.asStr
  hostname := node.hostname
  address := node.address
  status := node.status
  createdAt := (old.map NodeRow.createdAt).getD node.createdAt
  modifiedAt := node.modifiedAt
  label := node.label
  interface := node.interface
  cores := node.cores
  maxBandwidthBps := node.maxBandwidthBps
  country := node.country
  nodeType := node.type
  cluster := node.cluster
  nodeIps := node.nodeIps
  pool := node.pool.or (old.bind NodeRow.pool)
  poolTranslation := node.poolTranslation.or (old.bind NodeRow.poolTranslation)
  nodeWeights := node.nodeWeights

/-- The row of an inbound. One column holds the keepalive of whichever settings there are,
and the ports of the settings have none. -/
def InboundRow.ofInbound (inbound : Inbound) : InboundRow where
  port := inbound.port.toUInt32.toInt32
  streamSettings := inbound.streamSettings
  wgPrivkey := inbound.wg.map fun wg => wg.keys.privkey
  wgInterface := inbound.wg.map fun wg => wg.interface
  wgAddress := inbound.wg.bind fun wg => wg.address.reread
  dns := inbound.wg.map fun wg => wg.dns.map .v4
  h2 := inbound.h2
  mtprotoSecret := inbound.mtprotoSecret
  awgPrivkey := inbound.awg.map fun awg => awg.interface.privateKey.privkey
  awgInterface := inbound.awg.map fun awg => awg.interface.interface
  awgAddress := inbound.awg.bind fun awg => awg.interface.address.reread
  awgDns := inbound.awg.map fun awg => awg.interface.dns.map .v4
  awgMtu := inbound.awg.bind fun awg => awg.interface.mtu.map UInt16.toInt16
  awgObfuscation := inbound.awg.bind fun awg => awg.obfuscation
  keepalive := ((inbound.wg.bind fun wg => wg.keepalive).or
    (inbound.awg.bind fun awg => awg.keepalive)).map fun k => k.toUInt32.toInt32

structure NodeSlotOutcome where
  inserted : Bool
  used : ℤ
  limit : ℤ
  deriving DecidableEq, Repr

namespace Db

/-- The inbounds of a node after its registration: those sent replace the stored
ones of the same tag, and stored tags that were not sent are pruned unless
nothing was sent at all. -/
def upsertInbounds (nodeId : Uuid) (inbounds : Table Tag Inbound)
    (stored : Table (Uuid × Tag) InboundRow) : Table (Uuid × Tag) InboundRow :=
  let written := inbounds.entries.foldl
    (fun acc e => AList.insert (nodeId, e.2.tag) (.ofInbound e.2) acc) stored
  if inbounds.entries.isEmpty then written
  else written.filterRows fun key _ => !(decide (key.1 = nodeId)) || (inbounds.lookup key.2).isSome

def upsertNode (nodeId : Uuid) (node : Node) (db : Db) : Db :=
  { db with
    nodes := AList.insert nodeId (node.toRow (db.nodes.lookup nodeId)) db.nodes
    inbounds := upsertInbounds nodeId node.inbounds db.inbounds }

/-- The limit-aware insert of a private node, in one transaction. It finds the
subscription that owns the environment, counts the other nodes of the
environment, and inserts while the count is below the subscription's limit.
Several owners of one environment are an error of the query. -/
def insertPrivateNodeWithLimit (env : Env) (nodeId : Uuid) (node : Node) (db : Db) :
    Except SyncError (Db × Option NodeSlotOutcome) :=
  match db.subscriptions.entries.filter fun e =>
      decide (e.2.scopeEnv = some env.asStr) && !e.2.isDeleted with
  | [] => .ok (db, none)
  | [owner] =>
    let serverLimit := max owner.2.serverLimit 0
    let used : ℤ := (db.nodes.entries.filter fun e =>
      decide (e.2.env = env.asStr) && decide (e.1 ≠ nodeId)).length
    if serverLimit ≤ used then .ok (db, some ⟨false, used, serverLimit⟩)
    else .ok (db.upsertNode nodeId node, some ⟨true, used + 1, serverLimit⟩)
  | _ => .error .rowCount

def deleteNode (nodeId : Uuid) (db : Db) : Db :=
  { db with
    nodes := AList.erase nodeId db.nodes
    inbounds := db.inbounds.filterRows fun key _ => decide (key.1 ≠ nodeId) }

def updateNodeStatus (nodeId : Uuid) (status : NodeStatus) (now : DateTime) (db : Db) : Db :=
  { db with nodes := db.nodes.modify nodeId fun row =>
      { row with status := status, modifiedAt := now } }

/-- Whether an install token may still be used. -/
def installTokenUsable (row : InstallTokenRow) (now : DateTime) : Bool :=
  row.usedAt.isNone && row.revokedAt.isNone && decide (now < row.expiresAt)

def findUsableInstallToken (token : String) (now : DateTime) (db : Db) :
    Option InstallTokenRow :=
  (db.installTokens.lookup token).filter fun row => installTokenUsable row now

/-- Burns the token; the result says whether it was usable until now. -/
def markInstallTokenUsed (token : String) (now : DateTime) (db : Db) : Db × Bool :=
  ({ db with installTokens := db.installTokens.modify token fun row =>
      if installTokenUsable row now then { row with usedAt := some now } else row },
    (db.installTokens.lookup token).any fun row => installTokenUsable row now)

/-- The token column is the primary key, so a token held by another node is
refused. -/
def upsertNodeAccessToken (token : String) (nodeId : Uuid) (db : Db) :
    Except SyncError (Db × Unit) :=
  if db.nodeAccessTokens.entries.any fun e => decide (e.2 = token) && decide (e.1 ≠ nodeId) then
    .error .constraint
  else
    .ok ({ db with nodeAccessTokens := AList.insert nodeId token db.nodeAccessTokens }, ())

def findNodeByToken (token : String) (db : Db) : Option Uuid :=
  (db.nodeAccessTokens.entries.find? fun e => e.2 = token).map fun e => e.1

variable {row : InstallTokenRow}

theorem insertPrivateNodeWithLimit_ok {env : Env} {nodeId : Uuid} {node : Node} {db db' : Db}
    {slot : Option NodeSlotOutcome}
    (h : db.insertPrivateNodeWithLimit env nodeId node = .ok (db', slot)) :
    (db' = db ∧ ∀ s ∈ slot, s.inserted = false) ∨
      (db' = db.upsertNode nodeId node ∧ ∃ s ∈ slot, s.inserted = true) := by
  unfold insertPrivateNodeWithLimit at h
  split at h
  · cases h
    exact .inl ⟨rfl, by simp⟩
  · simp only at h
    split at h
    · cases h
      exact .inl ⟨rfl, by simp⟩
    · cases h
      exact .inr ⟨rfl, by simp⟩
  · cases h

@[simp] theorem upsertNode_nodes_self (nodeId : Uuid) (node : Node) (db : Db) :
    (db.upsertNode nodeId node).nodes.lookup nodeId =
      some (node.toRow (db.nodes.lookup nodeId)) := by
  simp [upsertNode]

theorem lookup_upsertInbounds_ne {id nodeId : Uuid} (h : id ≠ nodeId) (tag : Tag)
    (inbounds : Table Tag Inbound) (stored : Table (Uuid × Tag) InboundRow) :
    (upsertInbounds nodeId inbounds stored).lookup (id, tag) = stored.lookup (id, tag) := by
  have hwritten : ∀ (es : List (Σ _ : Tag, Inbound)) (acc : Table (Uuid × Tag) InboundRow),
      (es.foldl (fun acc e => AList.insert (nodeId, e.2.tag) (.ofInbound e.2) acc) acc).lookup
        (id, tag) = acc.lookup (id, tag) := by
    intro es
    induction es with
    | nil => simp
    | cons e es ih =>
      intro acc
      rw [List.foldl_cons, ih, AList.lookup_insert_ne (by simp [h])]
  unfold upsertInbounds
  split
  · exact hwritten _ _
  · rw [AList.lookup_filterRows, hwritten]
    cases stored.lookup (id, tag) <;> simp [h]

/-- The tables after writes to one node: every other node keeps its row, its
inbounds and its token. The row of the node is not lost, and it is in the given
environment or in the one it was in. -/
structure NodeWrites (nodeId : Uuid) (env : Env) (db db' : Db) : Prop where
  rows_ne : ∀ id, id ≠ nodeId → db'.nodes.lookup id = db.nodes.lookup id
  inbounds_ne : ∀ id tag, id ≠ nodeId → db'.inbounds.lookup (id, tag) = db.inbounds.lookup (id, tag)
  tokens_ne : ∀ id, id ≠ nodeId → db'.nodeAccessTokens.lookup id = db.nodeAccessTokens.lookup id
  row_env : ∀ row', db'.nodes.lookup nodeId = some row' →
    row'.env = env.asStr ∨ ∃ row, db.nodes.lookup nodeId = some row ∧ row.env = row'.env
  row_kept : (db.nodes.lookup nodeId).isSome → (db'.nodes.lookup nodeId).isSome

namespace NodeWrites

variable {nodeId : Uuid} {env : Env} {db db' db'' : Db}

theorem refl (nodeId : Uuid) (env : Env) (db : Db) : NodeWrites nodeId env db db :=
  ⟨fun _ _ => rfl, fun _ _ _ => rfl, fun _ _ => rfl, fun row' h => .inr ⟨row', h, rfl⟩, id⟩

theorem trans (h : NodeWrites nodeId env db db') (h' : NodeWrites nodeId env db' db'') :
    NodeWrites nodeId env db db'' where
  rows_ne id hid := (h'.rows_ne id hid).trans (h.rows_ne id hid)
  inbounds_ne id tag hid := (h'.inbounds_ne id tag hid).trans (h.inbounds_ne id tag hid)
  tokens_ne id hid := (h'.tokens_ne id hid).trans (h.tokens_ne id hid)
  row_env row'' hrow'' := by
    rcases h'.row_env row'' hrow'' with henv | ⟨row', hrow', heq'⟩
    · exact .inl henv
    · rcases h.row_env row' hrow' with henv | ⟨row, hrow, heq⟩
      · exact .inl (heq' ▸ henv)
      · exact .inr ⟨row, hrow, heq.trans heq'⟩
  row_kept hrow := h'.row_kept (h.row_kept hrow)

theorem upsertNode {node : Node} (henv : node.env = env) (db : Db) :
    NodeWrites nodeId env db (db.upsertNode nodeId node) where
  rows_ne id hid := by simp [Db.upsertNode, hid]
  inbounds_ne id tag hid := lookup_upsertInbounds_ne hid tag _ _
  tokens_ne id hid := rfl
  row_env row' hrow' := by
    rw [upsertNode_nodes_self] at hrow'
    cases hrow'
    exact .inl (by simp [Node.toRow, henv])
  row_kept _ := by simp

theorem exists_row (h : NodeWrites nodeId env db db')
    (hrow : ∃ row, db.nodes.lookup nodeId = some row ∧ row.env = env.asStr) :
    ∃ row, db'.nodes.lookup nodeId = some row ∧ row.env = env.asStr := by
  obtain ⟨row, hlookup, henv⟩ := hrow
  obtain ⟨row', hlookup'⟩ := Option.isSome_iff_exists.mp (h.row_kept (by simp [hlookup]))
  refine ⟨row', hlookup', ?_⟩
  rcases h.row_env row' hlookup' with henv' | ⟨row'', hlookup'', heq⟩
  · exact henv'
  · rw [← heq, ← Option.some.inj (hlookup.symm.trans hlookup''), henv]

theorem insertPrivateNodeWithLimit {node : Node} (henv : node.env = env)
    {slot : Option NodeSlotOutcome}
    (h : db.insertPrivateNodeWithLimit env nodeId node = .ok (db', slot)) :
    NodeWrites nodeId env db db' := by
  rcases insertPrivateNodeWithLimit_ok h with ⟨rfl, -⟩ | ⟨rfl, -⟩
  · exact .refl nodeId env _
  · exact .upsertNode henv db

theorem updateNodeStatus (status : NodeStatus) (now : DateTime) (db : Db) :
    NodeWrites nodeId env db (db.updateNodeStatus nodeId status now) where
  rows_ne id hid := by simp [Db.updateNodeStatus, hid]
  inbounds_ne id tag hid := rfl
  tokens_ne id hid := rfl
  row_env row' hrow' := by
    simp only [Db.updateNodeStatus, AList.lookup_modify_self, Option.map_eq_some_iff] at hrow'
    obtain ⟨row, hrow, rfl⟩ := hrow'
    exact .inr ⟨row, hrow, rfl⟩
  row_kept hrow := by simpa [Db.updateNodeStatus] using hrow

theorem markInstallTokenUsed (token : String) (now : DateTime) (db : Db) :
    NodeWrites nodeId env db (db.markInstallTokenUsed token now).1 :=
  ⟨fun _ _ => rfl, fun _ _ _ => rfl, fun _ _ => rfl, fun row' h => .inr ⟨row', h, rfl⟩, id⟩

theorem upsertNodeAccessToken {token : String} {u : Unit}
    (h : db.upsertNodeAccessToken token nodeId = .ok (db', u)) : NodeWrites nodeId env db db' := by
  unfold Db.upsertNodeAccessToken at h
  split at h
  · cases h
  · cases h
    exact ⟨fun _ _ => rfl, fun _ _ _ => rfl, fun id hid => by simp [hid],
      fun row' h => .inr ⟨row', h, rfl⟩, id⟩

end NodeWrites

end Db

end Fcore
