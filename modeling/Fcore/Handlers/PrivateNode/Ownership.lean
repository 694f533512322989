import Fcore.Handlers.PrivateNode

/-!
# Who owns a private node

Two results about the environment of private nodes. The first is about a single
accepted registration and the nodes of other environments: it leaves them alone
exactly when the identifier in the request is not already taken in one of them.
The second is about runs: as long as one subscription registers a node and a
refresh of a forgotten node names that subscription's environment, the node never
leaves the environment of that subscription.

Both are read off `World.NodeWrites`.
-/

namespace Fcore

section Tokens

theorem bearerToken_bearer (token : String) :
    bearerToken (some ("Bearer " ++ token)) = token := by
  simp [bearerToken, startsWith_append]

theorem startsWith_node_of_inst {token : String} (h : startsWith token "inst_" = true) :
    startsWith token "node_" = false := by
  unfold startsWith at *
  cases htoken : token.toList with
  | nil => rfl
  | cons c cs =>
    rw [htoken] at h
    have hc : c = 'i' := by
      have := List.isPrefixOf_iff_prefix.mp h
      exact (List.cons_prefix_cons.mp this).1.symm
    subst hc
    rfl

theorem ne_empty_of_inst {token : String} (h : startsWith token "inst_" = true) : token ≠ "" := by
  rintro rfl
  exact absurd h (by decide)

end Tokens

section Registration

variable {b : Backend} {token : String} {req : NodeRequest} {now : DateTime} {w : World}

/-- An accepted registration leaves the row of its node in the node's
environment. -/
theorem finishRegistration_accepted {nodeId : Uuid} {node : Node} {fresh : Uuid}
    (h : (finishRegistration token nodeId node fresh now w).2.status = 200) :
    ∃ row, (finishRegistration token nodeId node fresh now w).1.db.nodes.lookup nodeId = some row ∧
      row.env = node.env.asStr := by
  have hrow : ∀ status, (w.addNode nodeId node).2 = .ok status →
      ∃ row, (w.addNode nodeId node).1.db.nodes.lookup nodeId = some row ∧
        row.env = node.env.asStr := fun status hstatus => World.addNode_row hstatus
  revert h
  unfold finishRegistration
  split <;> rename_i heq <;> rw [heq] at hrow <;> intro h
  · simp [Reply.internalError] at h
  · exact (issueNodeToken_writes token nodeId _ fresh now _).db.exists_row (hrow _ rfl)
  · exact (issueNodeToken_writes token nodeId _ fresh now _).db.exists_row (hrow _ rfl)
  · exact (issueNodeToken_writes token nodeId _ fresh now _).db.exists_row (hrow _ rfl)
  · simp [Reply.badRequest] at h

theorem registerWithInstallToken_accepted {row : InstallTokenRow} {fresh : Uuid}
    (h : (registerWithInstallToken b token row req fresh now w).2.status = 200) :
    ∃ row', (registerWithInstallToken b token row req fresh now w).1.db.nodes.lookup req.uuid =
        some row' ∧ row'.env = (personalEnv row.subscriptionId).asStr := by
  revert h
  unfold registerWithInstallToken
  simp only
  split
  · simp [Reply.badRequest]
  split
  · simp [Reply.badRequest]
  split
  · simp [Reply.badRequest]
  split
  · simp [Reply.badRequest]
  split
  · simp [Reply.internalError]
  · simp [Reply.internalError]
  split
  · exact finishRegistration_accepted
  · simp [Reply.limitReached, Reply.conflict]

/-- With an install token that is usable, an accepted call is a registration. -/
theorem registerPrivateNodeHandler_install (hinst : startsWith token "inst_" = true) (fresh : Uuid)
    {row : InstallTokenRow} (hrow : w.db.findUsableInstallToken token now = some row)
    (h : (registerPrivateNodeHandler b (some ("Bearer " ++ token)) req fresh now w).2.status =
      200) :
    registerPrivateNodeHandler b (some ("Bearer " ++ token)) req fresh now w =
      registerWithInstallToken b token row req fresh now
        (w.dbRead (Db.findUsableInstallToken token now)).1 := by
  revert h
  unfold registerPrivateNodeHandler
  rw [bearerToken_bearer]
  simp only [startsWith_node_of_inst hinst, hinst, ne_empty_of_inst hinst, Bool.false_eq_true,
    if_false, or_self, Bool.true_eq_false]
  split <;> rename_i heq
  · simp [Reply.internalError]
  · simp [Reply.unauthorized]
  · rename_i row'
    have hread : some row' = w.db.findUsableInstallToken token now :=
      World.dbRead_ok (by rw [heq])
    intro _
    rw [heq, Option.some.inj (hread.trans hrow)]

/-- No node of another environment is touched: its row, its token and its
inbounds are as they were, and so is the registry outside the environment. -/
structure ForeignUntouched (env : Env) (w w' : World) : Prop where
  rows : ∀ id row, w.db.nodes.lookup id = some row → row.env ≠ env.asStr →
    w'.db.nodes.lookup id = some row
  tokens : ∀ id row, w.db.nodes.lookup id = some row → row.env ≠ env.asStr →
    w'.db.nodeAccessTokens.lookup id = w.db.nodeAccessTokens.lookup id
  inbounds : ∀ id row tag, w.db.nodes.lookup id = some row → row.env ≠ env.asStr →
    w'.db.inbounds.lookup (id, tag) = w.db.inbounds.lookup (id, tag)
  registry : ∀ e, e ≠ env → w'.mem.nodes.group e = w.mem.nodes.group e

/-- Writes to one node leave the nodes of other environments alone when the node
was in none of them. -/
theorem ForeignUntouched.of_writes {nodeId : Uuid} {env : Env} {w' : World}
    (h : w.NodeWrites nodeId env w')
    (hown : ∀ row, w.db.nodes.lookup nodeId = some row → row.env = env.asStr) :
    ForeignUntouched env w w' := by
  have hne : ∀ id row, w.db.nodes.lookup id = some row → row.env ≠ env.asStr → id ≠ nodeId := by
    rintro id row hrow hforeign rfl
    exact hforeign (hown row hrow)
  refine ⟨fun id row hrow hf => ?_, fun id row hrow hf => ?_, fun id row tag hrow hf => ?_,
    h.group_ne⟩
  · rw [h.db.rows_ne id (hne id row hrow hf), hrow]
  · exact h.db.tokens_ne id (hne id row hrow hf)
  · exact h.db.inbounds_ne id tag (hne id row hrow hf)

/-- An accepted registration leaves every node of another environment alone
exactly when the identifier it names is not the identifier of such a node. -/
theorem registration_foreignUntouched_iff (b : Backend) (token : String) (req : NodeRequest)
    (fresh : Uuid) (now : DateTime) (w : World) (row : InstallTokenRow)
    (hinst : startsWith token "inst_" = true)
    (hrow : w.db.findUsableInstallToken token now = some row)
    (haccepted :
      (registerPrivateNodeHandler b (some ("Bearer " ++ token)) req fresh now w).2.status = 200) :
    ForeignUntouched (personalEnv row.subscriptionId) w
        (registerPrivateNodeHandler b (some ("Bearer " ++ token)) req fresh now w).1 ↔
      ∀ old, w.db.nodes.lookup req.uuid = some old →
        old.env = (personalEnv row.subscriptionId).asStr := by
  have hhandler := registerPrivateNodeHandler_install hinst fresh hrow haccepted
  rw [hhandler] at haccepted ⊢
  constructor
  · intro h old hold
    by_contra hforeign
    obtain ⟨new, hnew, henv⟩ := registerWithInstallToken_accepted haccepted
    have hkept := h.rows req.uuid old hold hforeign
    rw [hnew] at hkept
    exact hforeign (Option.some.inj hkept ▸ henv)
  · intro hown
    have hread : w.NodeWrites req.uuid (personalEnv row.subscriptionId)
        (w.dbRead (Db.findUsableInstallToken token now)).1 := .dbRead _ w
    exact .of_writes (hread.trans (registerWithInstallToken_writes row fresh)) hown

/-- An account with a personal environment and room for its nodes. -/
def personalAccount (subscriptionId : Uuid) : SubscriptionRow where
  expiresAt := none
  referCode := ""
  createdAt := 0
  updatedAt := 0
  isDeleted := false
  parentId := none
  scopeEnv := some (personalEnv subscriptionId).asStr
  premiumToken := none
  premiumUntil := none
  planKind := .selfhosted
  serverLimit := 3
  userLimit := 20
  limitBytes := none
  product := .standard

def personalInstallToken (subscriptionId : Uuid) : InstallTokenRow where
  subscriptionId := subscriptionId
  scopeEnv := (personalEnv subscriptionId).asStr
  createdAt := 0
  expiresAt := 1000
  usedAt := none
  revokedAt := none

/-- Two accounts, each with one install token, and no node. -/
def twoAccounts : World :=
  let w := World.init (fun _ => false) fun _ => false
  { w with db := { w.db with
      subscriptions := AList.insert 1 (personalAccount 1) (AList.insert 2 (personalAccount 2) ∅)
      installTokens := AList.insert "inst_a" (personalInstallToken 1)
        (AList.insert "inst_b" (personalInstallToken 2) ∅) } }

def plainNodeRequest (uuid : Uuid) (env : Env) : NodeRequest where
  env := env
  hostname := "n"
  address := 0
  inbounds := ∅
  uuid := uuid
  label := "n"
  interface := "eth0"
  cores := 1
  maxBandwidthBps := 0
  country := "FI"
  type := none
  cluster := none
  nodeIps := none
  pool := none
  nodeWeights := ∅
  poolTranslation := none

def secondHasNode : World :=
  (registerPrivateNodeHandler constantBackend (some "Bearer inst_b") (plainNodeRequest 7 .dev) 9 0
    twoAccounts).1

theorem asStr_personalEnv_two_ne_one : (personalEnv 2).asStr ≠ (personalEnv 1).asStr :=
  Env.asStr_injective.ne (Env.personalFor_injective.ne (by decide))

/-- A registration under a new identifier leaves the other account's node alone. -/
theorem registration_of_new_node_foreignUntouched :
    ForeignUntouched (personalEnv 1) secondHasNode
      (registerPrivateNodeHandler constantBackend (some ("Bearer " ++ "inst_a"))
        (plainNodeRequest 8 .dev) 9 1 secondHasNode).1 := by
  -- evaluated together, so that the first registration runs once
  obtain ⟨hrow, haccepted, hnew⟩ :
      secondHasNode.db.findUsableInstallToken "inst_a" 1 = some (personalInstallToken 1) ∧
      (registerPrivateNodeHandler constantBackend (some ("Bearer " ++ "inst_a"))
        (plainNodeRequest 8 .dev) 9 1 secondHasNode).2.status = 200 ∧
      ∀ old, secondHasNode.db.nodes.lookup 8 = some old → old.env = (personalEnv 1).asStr := by
    decide +kernel
  exact (registration_foreignUntouched_iff constantBackend "inst_a" (plainNodeRequest 8 .dev) 9 1
    secondHasNode (personalInstallToken 1) (by decide) hrow haccepted).mpr hnew

/-- A registration under the identifier of the other account's node is accepted
and takes the node over: its row moves to the environment of the first account
and its access token is replaced. -/
theorem registration_takes_over_foreign_node :
    (secondHasNode.db.nodes.lookup 7).map NodeRow.env = some (personalEnv 2).asStr ∧
      (registerPrivateNodeHandler constantBackend (some "Bearer inst_a") (plainNodeRequest 7 .dev)
        10 1 secondHasNode).2 = .success "Ok" ∧
      ¬ ForeignUntouched (personalEnv 1) secondHasNode
        (registerPrivateNodeHandler constantBackend (some "Bearer inst_a")
          (plainNodeRequest 7 .dev) 10 1 secondHasNode).1 := by
  obtain ⟨hbefore, haccepted, hafter⟩ :
      (secondHasNode.db.nodes.lookup 7).map NodeRow.env = some (personalEnv 2).asStr ∧
      (registerPrivateNodeHandler constantBackend (some "Bearer inst_a") (plainNodeRequest 7 .dev)
        10 1 secondHasNode).2 = .success "Ok" ∧
      ((registerPrivateNodeHandler constantBackend (some "Bearer inst_a")
        (plainNodeRequest 7 .dev) 10 1 secondHasNode).1.db.nodes.lookup 7).map NodeRow.env =
          some (personalEnv 1).asStr := by decide +kernel
  refine ⟨hbefore, haccepted, fun h => ?_⟩
  obtain ⟨row, hrow, henv⟩ := Option.map_eq_some_iff.mp hbefore
  rw [h.rows 7 row hrow (henv ▸ asStr_personalEnv_two_ne_one), Option.map_some, henv] at hafter
  exact asStr_personalEnv_two_ne_one (Option.some.inj hafter)

end Registration

section Runs

inductive NodeOp where
  | register (authHeader : Option String) (req : NodeRequest) (fresh : Uuid) (now : DateTime)
  | delete (nodeId : Uuid)

def NodeOp.step (b : Backend) (w : World) : NodeOp → World
  | register authHeader req fresh now =>
    (registerPrivateNodeHandler b authHeader req fresh now w).1
  | delete nodeId => (w.deleteNode nodeId).1

/-- The node is unknown, or known in the personal environment of the subscription
only: in the table and in every group of the registry. -/
structure OwnedBy (nodeId subscriptionId : Uuid) (w : World) : Prop where
  row : ∀ row, w.db.nodes.lookup nodeId = some row →
    row.env = (personalEnv subscriptionId).asStr
  registry : ∀ node ∈ w.mem.nodes.all, node.uuid = nodeId → node.env = personalEnv subscriptionId

/-- What keeps a node with its owner. An install token used for it is the
owner's, and while the registry does not have the node, a personal environment
named with a `node_` token that is bound to it is the owner's. -/
def NodeOp.KeepsOwner (nodeId subscriptionId : Uuid) (w : World) : NodeOp → Prop
  | register authHeader req _ now =>
    req.uuid = nodeId →
      if startsWith (bearerToken authHeader) "node_" then
        w.db.findNodeByToken (bearerToken authHeader) = some nodeId →
          w.mem.nodes.getById nodeId = none → req.env.isPersonal →
            req.env = personalEnv subscriptionId
      else
        ∀ row, w.db.findUsableInstallToken (bearerToken authHeader) now = some row →
          row.subscriptionId = subscriptionId
  | delete _ => True

instance NodeOp.decidableKeepsOwner (nodeId subscriptionId : Uuid) (w : World) :
    ∀ op : NodeOp, Decidable (op.KeepsOwner nodeId subscriptionId w)
  | register authHeader req _ now => inferInstanceAs <| Decidable <| req.uuid = nodeId →
      if startsWith (bearerToken authHeader) "node_" then
        w.db.findNodeByToken (bearerToken authHeader) = some nodeId →
          w.mem.nodes.getById nodeId = none → req.env.isPersonal →
            req.env = personalEnv subscriptionId
      else
        ∀ row, w.db.findUsableInstallToken (bearerToken authHeader) now = some row →
          row.subscriptionId = subscriptionId
  | delete _ => isTrue trivial

variable {b : Backend} {nodeId subscriptionId : Uuid} {w w' : World}

/-- What the handler can do: nothing, or write the node named in the request, in
an environment that depends on the kind of token. -/
theorem registerPrivateNodeHandler_cases (b : Backend) (authHeader : Option String)
    (req : NodeRequest) (fresh : Uuid) (now : DateTime) (w : World) :
    ((registerPrivateNodeHandler b authHeader req fresh now w).1.db = w.db ∧
      (registerPrivateNodeHandler b authHeader req fresh now w).1.mem = w.mem) ∨
    ∃ env, w.NodeWrites req.uuid env (registerPrivateNodeHandler b authHeader req fresh now w).1 ∧
      if startsWith (bearerToken authHeader) "node_" then
        w.db.findNodeByToken (bearerToken authHeader) = some req.uuid ∧
          refreshEnv ((w.mem.nodes.getById req.uuid).map Node.env) req.env = .ok env
      else
        ∃ row, w.db.findUsableInstallToken (bearerToken authHeader) now = some row ∧
          env = personalEnv row.subscriptionId := by
  unfold registerPrivateNodeHandler
  simp only
  split
  · rcases refreshKnownPrivateNode_writes b (bearerToken authHeader) req now w with
      hsame | ⟨env, hbound, henv, hwrites⟩
    · exact .inl hsame
    · exact .inr ⟨env, hwrites, hbound, henv⟩
  split
  · exact .inl ⟨rfl, rfl⟩
  have hdb := World.dbRead_db (Db.findUsableInstallToken (bearerToken authHeader) now) w
  have hmem := World.dbRead_mem (Db.findUsableInstallToken (bearerToken authHeader) now) w
  split <;> rename_i heq
  · rw [heq] at hdb hmem
    exact .inl ⟨hdb, hmem⟩
  · rw [heq] at hdb hmem
    exact .inl ⟨hdb, hmem⟩
  · rename_i w₁ row
    have hrow : some row = w.db.findUsableInstallToken (bearerToken authHeader) now :=
      World.dbRead_ok (by rw [heq])
    rw [heq] at hdb hmem
    have hread : w.NodeWrites req.uuid (personalEnv row.subscriptionId) w₁ :=
      .of_db hmem (by rw [hdb]; exact .refl _ _ _)
    exact .inr ⟨_, hread.trans (registerWithInstallToken_writes row fresh), row, hrow.symm, rfl⟩

namespace OwnedBy

theorem of_unknown (hrow : w.db.nodes.lookup nodeId = none)
    (hregistry : w.mem.nodes.getById nodeId = none) : OwnedBy nodeId subscriptionId w where
  row row h := by simp [hrow] at h
  registry node hnode huuid := absurd huuid (Nodes.getById_eq_none.mp hregistry node hnode)

theorem of_writes {id : Uuid} {env : Env} (h : OwnedBy nodeId subscriptionId w)
    (hwrites : w.NodeWrites id env w') (henv : id = nodeId → env = personalEnv subscriptionId) :
    OwnedBy nodeId subscriptionId w' where
  row row' hrow' := by
    by_cases hid : id = nodeId
    · subst hid
      rcases hwrites.db.row_env row' hrow' with hnew | ⟨row, hrow, hsame⟩
      · rw [hnew, henv rfl]
      · rw [← hsame, h.row row hrow]
    · rw [hwrites.db.rows_ne nodeId (Ne.symm hid)] at hrow'
      exact h.row row' hrow'
  registry node hnode huuid := by
    rcases hwrites.registry node hnode with hold | ⟨hid, hnew⟩
    · exact h.registry node hold huuid
    · rw [hnew, henv (hid.symm.trans huuid)]

theorem of_same (h : OwnedBy nodeId subscriptionId w) (hdb : w'.db = w.db)
    (hmem : w'.mem = w.mem) : OwnedBy nodeId subscriptionId w' :=
  ⟨hdb ▸ h.row, hmem ▸ h.registry⟩

theorem delete (h : OwnedBy nodeId subscriptionId w) (id : Uuid) :
    OwnedBy nodeId subscriptionId (w.deleteNode id).1 :=
  ⟨fun row hrow => h.row row ((World.deleteNode_spec id w).1 nodeId row hrow),
    fun node hnode => h.registry node ((World.deleteNode_spec id w).2 node hnode)⟩

/-- The environment a refresh chooses: the one in the registry, which the
invariant knows, or the one in the request, which the condition knows. -/
theorem refreshEnv_eq (h : OwnedBy nodeId subscriptionId w) {requested env : Env}
    (hrequested : w.mem.nodes.getById nodeId = none → requested.isPersonal →
      requested = personalEnv subscriptionId)
    (henv : refreshEnv ((w.mem.nodes.getById nodeId).map Node.env) requested = .ok env) :
    env = personalEnv subscriptionId := by
  unfold refreshEnv at henv
  cases hnode : w.mem.nodes.getById nodeId with
  | none =>
    simp only [hnode, Option.map_none] at henv
    split at henv
    · cases henv
    · rename_i hpersonal
      cases henv
      exact hrequested hnode (by simpa using hpersonal)
  | some node =>
    obtain ⟨hmem, huuid⟩ := Nodes.getById_eq_some hnode
    simp only [hnode, Option.map_some] at henv
    split at henv
    · cases henv
    · cases henv
      exact h.registry node hmem huuid

theorem step (op : NodeOp) (h : OwnedBy nodeId subscriptionId w)
    (hop : op.KeepsOwner nodeId subscriptionId w) :
    OwnedBy nodeId subscriptionId (op.step b w) := by
  cases op with
  | delete id => exact h.delete id
  | register authHeader req fresh now =>
    rcases registerPrivateNodeHandler_cases b authHeader req fresh now w with
      ⟨hdb, hmem⟩ | ⟨env, hwrites, henv⟩
    · exact h.of_same hdb hmem
    · refine h.of_writes hwrites fun hid => ?_
      subst hid
      have hkeeps := hop rfl
      split at henv <;> rename_i htoken
      · rw [if_pos htoken] at hkeeps
        exact h.refreshEnv_eq (hkeeps henv.1) henv.2
      · rw [if_neg htoken] at hkeeps
        obtain ⟨row, hrow, rfl⟩ := henv
        rw [hkeeps row hrow]

end OwnedBy

/-- Throughout a run in which a node is registered with install tokens of one
subscription only, and a `node_` token names that subscription's environment
whenever the registry has forgotten the node, the node is in that environment. -/
theorem node_stays_with_first_owner (b : Backend) (nodeId subscriptionId : Uuid) (w : World)
    (ops : List NodeOp) (hrow : w.db.nodes.lookup nodeId = none)
    (hregistry : w.mem.nodes.getById nodeId = none)
    (hops : Run.Along (NodeOp.step b) (NodeOp.KeepsOwner nodeId subscriptionId) w ops) :
    ∀ w' ∈ ops.scanl (NodeOp.step b) w, OwnedBy nodeId subscriptionId w' :=
  Run.invariant_scanl (fun _ op h hop => h.step op hop) (.of_unknown hrow hregistry) hops

/-- The first account registers node 7, refreshes it while it is known, loses it
and brings it back; the environment named by the last refresh is the argument. -/
def registerDeleteRefresh (env : Env) : List NodeOp :=
  let nodeToken := "Bearer " ++ nodeTokenText 7 9
  [.register (some "Bearer inst_a") (plainNodeRequest 7 .dev) 9 0,
    .register (some nodeToken) (plainNodeRequest 7 (personalEnv 2)) 9 1,
    .delete 7,
    .register (some nodeToken) (plainNodeRequest 7 env) 9 2]

/-- A last refresh that names the owner's environment keeps the node there. -/
theorem registerDeleteRefresh_own_env :
    Run.Along (NodeOp.step constantBackend) (NodeOp.KeepsOwner 7 1) twoAccounts
        (registerDeleteRefresh (personalEnv 1)) ∧
      ∀ w' ∈ (registerDeleteRefresh (personalEnv 1)).scanl (NodeOp.step constantBackend)
        twoAccounts, OwnedBy 7 1 w' := by
  have hkeeps : Run.Along (NodeOp.step constantBackend) (NodeOp.KeepsOwner 7 1) twoAccounts
      (registerDeleteRefresh (personalEnv 1)) := by decide +kernel
  exact ⟨hkeeps, node_stays_with_first_owner constantBackend 7 1 twoAccounts _
    (by decide +kernel) (by decide +kernel) hkeeps⟩

/-- A last refresh that names the other account's environment moves the node
there. -/
theorem registerDeleteRefresh_foreign_env :
    let states := (registerDeleteRefresh (personalEnv 2)).scanl (NodeOp.step constantBackend)
      twoAccounts
    states.map (fun w' => (w'.db.nodes.lookup 7).map NodeRow.env) =
      [none, some (personalEnv 1).asStr, some (personalEnv 1).asStr, none,
        some (personalEnv 2).asStr] ∧
    ¬ ∀ w' ∈ states, OwnedBy 7 1 w' := by
  have hrows : ((registerDeleteRefresh (personalEnv 2)).scanl (NodeOp.step constantBackend)
      twoAccounts).map (fun w' => (w'.db.nodes.lookup 7).map NodeRow.env) =
      [none, some (personalEnv 1).asStr, some (personalEnv 1).asStr, none,
        some (personalEnv 2).asStr] := by decide +kernel
  refine ⟨hrows, fun h => ?_⟩
  have hlast : some (personalEnv 2).asStr ∈ ((registerDeleteRefresh (personalEnv 2)).scanl
      (NodeOp.step constantBackend) twoAccounts).map
        (fun w' => (w'.db.nodes.lookup 7).map NodeRow.env) := by
    rw [hrows]
    simp
  obtain ⟨w', hmem, hrow⟩ := List.mem_map.mp hlast
  obtain ⟨row, hlookup, henv⟩ := Option.map_eq_some_iff.mp hrow
  exact asStr_personalEnv_two_ne_one (henv.symm.trans ((h w' hmem).row row hlookup))

end Runs

end Fcore
