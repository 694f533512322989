import Fcore.Http.Reply
import Fcore.Lib.Run
import Fcore.Sync.Node

/-!
# Private nodes

A customer registers their own node with a one-time install token and keeps it
registered with the `node_` token they get in return. The environment of such a
node is the personal environment of the subscription behind the install token.

Registration takes the identifier of the node from the request and upserts by it.
A refresh keeps the environment the registry has for the node, and falls back to
the environment named in the request when the registry has no entry; deleting a
node removes the entry but not its token. The two main results give the exact
conditions under which, all the same, a registration touches no node of another
environment, and a node stays in the environment of its first owner throughout a
run of registrations, refreshes and deletions.

Seeding the first connections of an account and the heartbeat metric, which
follow a successful registration, touch neither nodes nor tokens and are left out.
-/

namespace Fcore

structure NodeRequest where
  env : Env
  hostname : String
  address : Ipv4Addr
  inbounds : Table Tag Inbound
  uuid : Uuid
  label : String
  interface : String
  cores : ℕ
  maxBandwidthBps : ℤ
  country : String
  type : Option NodeType
  cluster : Option String
  nodeIps : Option (List Ipv4Addr)
  pool : Option String
  nodeWeights : Table String ℤ
  poolTranslation : Option (Table String String)

/-- Language codes are trimmed, lowered and `ua` becomes `uk`; blank entries are
dropped, and nothing left is no translation at all. -/
def normalizePoolTranslation (b : Backend) (map : Option (Table String String)) :
    Option (Table String String) :=
  map.bind fun map =>
    let cleaned : Table String String := map.entries.foldl (fun acc e =>
      let lowered := b.toLowercase (Text.trim e.1)
      let key := if lowered = "ua" then "uk" else lowered
      let value := Text.trim e.2
      if key = "" ∨ value = "" then acc else AList.insert key value acc) ∅
    if cleaned.entries.isEmpty then none else some cleaned

namespace NodeRequest

def validate (req : NodeRequest) : Except String Unit :=
  match req.nodeIps with
  | none => .ok ()
  | some [] => .error "node_ips must be non-empty when present"
  | some (primary :: _) =>
    if primary ≠ req.address then .error "node_ips[0] must equal the node address"
    else .ok ()

def asNode (b : Backend) (req : NodeRequest) (now : DateTime) : Node where
  uuid := req.uuid
  env := req.env
  hostname := req.hostname
  address := req.address
  inbounds := req.inbounds
  status := .online
  createdAt := now
  modifiedAt := now
  label := req.label
  interface := req.interface
  cores := req.cores
  maxBandwidthBps := req.maxBandwidthBps
  country := req.country
  type := req.type.getD .node
  cluster := req.cluster
  nodeIps := req.nodeIps
  pool := (req.pool.map Text.trim).filter fun pool => pool ≠ ""
  poolTranslation := normalizePoolTranslation b req.poolTranslation
  nodeWeights := req.nodeWeights.entries.foldl (fun acc e =>
    if 0 < e.2 ∧ (b.parseIpv4 e.1).isSome then AList.insert (Text.trim e.1) e.2 acc else acc) ∅

def asPrivate (req : NodeRequest) (env : Env) : NodeRequest :=
  { req with env := env, type := some .node, cluster := none, pool := none }

end NodeRequest

def personalEnv (subscriptionId : Uuid) : Env := .personalFor subscriptionId

def refreshEnv (existing : Option Env) (requested : Env) : Except String Env :=
  match existing with
  | some env =>
    if !env.isPersonal then .error "refusing shared env for private node" else .ok env
  | none =>
    if !requested.isPersonal then .error "personal env required" else .ok requested

namespace Reply

def unauthorized (message : String) : Reply := ⟨401, message⟩

def limitReached (used limit : ℤ) : Reply :=
  .conflict ("server limit reached (" ++ toString used ++ "/" ++ toString limit ++ ")")

end Reply

/-- The token of an `Authorization` header, empty when there is none. -/
def bearerToken (authHeader : Option String) : String :=
  match authHeader with
  | some header =>
    if startsWith header "Bearer " then String.ofList (header.toList.drop 7) else ""
  | none => ""

def nodeTokenText (nodeId fresh : Uuid) : String :=
  "node_" ++ nodeId.asSimple ++ "_" ++ fresh.asSimple

/-- The end of a refresh: the node is written and reported online. -/
def finishRefresh (known : Uuid) (node : Node) (now : DateTime) (w : World) : World × Reply :=
  match w.addNode known node with
  | (w, .error _) => (w, .internalError "register failed")
  | (w, .ok (.ok _)) | (w, .ok (.alreadyExist _)) | (w, .ok (.notModified _)) =>
    ((w.updateNodeStatus known .online now).1, .success "Ok")
  | (w, .ok _) => (w, .badRequest "operation not supported")

def refreshKnownPrivateNode (b : Backend) (token : String) (req : NodeRequest) (now : DateTime)
    (w : World) : World × Reply :=
  match w.dbRead (Db.findNodeByToken token) with
  | (w, .error _) => (w, .internalError "db error")
  | (w, .ok none) => (w, .unauthorized "invalid node token")
  | (w, .ok (some known)) =>
    if known ≠ req.uuid then (w, .forbidden "node uuid does not match token")
    else
      let existingEnv := (w.mem.nodes.getById known).map Node.env
      if existingEnv.isNone && !req.env.isPersonal then
        (w, .badRequest "personal env required")
      else
        match refreshEnv existingEnv req.env with
        | .error msg => (w, .badRequest msg)
        | .ok env =>
          match req.validate with
          | .error msg => (w, .badRequest msg)
          | .ok () =>
            let node := { (req.asPrivate env) with uuid := known }.asNode b now
            if existingEnv.isNone then
              match w.dbCall (Db.insertPrivateNodeWithLimit env known node) with
              | (w, .error _) => (w, .internalError "register failed")
              | (w, .ok none) => (w, .badRequest "unknown personal scope")
              | (w, .ok (some slot)) =>
                if slot.inserted then finishRefresh known node now w
                else (w, .limitReached slot.used slot.limit)
            else finishRefresh known node now w

/-- The end of a registration whose node is stored: the install token is burned
and an access token issued. -/
def issueNodeToken (token : String) (nodeId id fresh : Uuid) (now : DateTime) (w : World) :
    World × Reply :=
  let w := (w.dbCall fun db => .ok (db.markInstallTokenUsed token now)).1
  match w.dbCall (Db.upsertNodeAccessToken (nodeTokenText id fresh) nodeId) with
  | (w, .error _) => (w, .internalError "failed to issue node token")
  | (w, .ok ()) => ((w.updateNodeStatus nodeId .online now).1, .success "Ok")

def finishRegistration (token : String) (nodeId : Uuid) (node : Node) (fresh : Uuid)
    (now : DateTime) (w : World) : World × Reply :=
  match w.addNode nodeId node with
  | (w, .error _) => (w, .internalError "register failed")
  | (w, .ok (.ok id)) | (w, .ok (.alreadyExist id)) | (w, .ok (.notModified id)) =>
    issueNodeToken token nodeId id fresh now w
  | (w, .ok _) => (w, .badRequest "operation not supported")

/-- A registration whose install token was found usable. -/
def registerWithInstallToken (b : Backend) (token : String) (row : InstallTokenRow)
    (req : NodeRequest) (fresh : Uuid) (now : DateTime) (w : World) : World × Reply :=
  let scopeEnv := Env.ofStored b.toLowercase row.scopeEnv
  let expected := personalEnv row.subscriptionId
  if !scopeEnv.isPersonal || scopeEnv.isFrknShared then
    (w, .badRequest "invalid personal scope")
  else if scopeEnv ≠ expected then (w, .badRequest "scope mismatch")
  else
    match req.validate with
    | .error msg => (w, .badRequest msg)
    | .ok () =>
      let node := (req.asPrivate expected).asNode b now
      if node.env.isFrknShared || !node.env.isPersonal then
        (w, .badRequest "refusing shared env for private node")
      else
        match w.dbCall (Db.insertPrivateNodeWithLimit expected req.uuid node) with
        | (w, .error _) => (w, .internalError "register failed")
        | (w, .ok none) => (w, .internalError "personal account not found")
        | (w, .ok (some slot)) =>
          if slot.inserted then finishRegistration token req.uuid node fresh now w
          else (w, .limitReached slot.used slot.limit)

def registerPrivateNodeHandler (b : Backend) (authHeader : Option String) (req : NodeRequest)
    (fresh : Uuid) (now : DateTime) (w : World) : World × Reply :=
  let token := bearerToken authHeader
  if startsWith token "node_" then refreshKnownPrivateNode b token req now w
  else if token = "" ∨ startsWith token "inst_" = false then
    (w, .unauthorized "install token required")
  else
    match w.dbRead (Db.findUsableInstallToken token now) with
    | (w, .error _) => (w, .internalError "db error")
    | (w, .ok none) => (w, .unauthorized "invalid or expired install token")
    | (w, .ok (some row)) => registerWithInstallToken b token row req fresh now w

variable {env : Env}

section Writes

variable {b : Backend} {token : String} {req : NodeRequest} {now : DateTime} {w : World}

theorem finishRefresh_writes {known : Uuid} {node : Node} (huuid : node.uuid = known)
    (henv : node.env = env) (now : DateTime) (w : World) :
    w.NodeWrites known env (finishRefresh known node now w).1 := by
  have hadd := World.NodeWrites.addNode huuid henv w
  unfold finishRefresh
  split <;> rename_i heq <;> rw [heq] at hadd
  · exact hadd
  · exact hadd.trans (.updateNodeStatus .online now _)
  · exact hadd.trans (.updateNodeStatus .online now _)
  · exact hadd.trans (.updateNodeStatus .online now _)
  · exact hadd

theorem issueNodeToken_writes (token : String) (nodeId id fresh : Uuid) (now : DateTime)
    (w : World) : w.NodeWrites nodeId env (issueNodeToken token nodeId id fresh now w).1 := by
  have hmark : w.NodeWrites nodeId env
      (w.dbCall fun db => .ok (db.markInstallTokenUsed token now)).1 := by
    refine .dbCall fun db a h => ?_
    cases h
    exact .markInstallTokenUsed token now w.db
  have hupsert : w.NodeWrites nodeId env
      ((w.dbCall fun db => .ok (db.markInstallTokenUsed token now)).1.dbCall
        (Db.upsertNodeAccessToken (nodeTokenText id fresh) nodeId)).1 :=
    hmark.trans (.dbCall fun db a h => .upsertNodeAccessToken h)
  unfold issueNodeToken
  simp only
  split <;> rename_i heq <;> rw [heq] at hupsert
  · exact hupsert
  · exact hupsert.trans (.updateNodeStatus .online now _)

theorem finishRegistration_writes {nodeId : Uuid} {node : Node} (huuid : node.uuid = nodeId)
    (henv : node.env = env) (token : String) (fresh : Uuid) (now : DateTime) (w : World) :
    w.NodeWrites nodeId env (finishRegistration token nodeId node fresh now w).1 := by
  have hadd := World.NodeWrites.addNode huuid henv w
  unfold finishRegistration
  split <;> rename_i heq <;> rw [heq] at hadd
  · exact hadd
  · exact hadd.trans (issueNodeToken_writes token nodeId _ fresh now _)
  · exact hadd.trans (issueNodeToken_writes token nodeId _ fresh now _)
  · exact hadd.trans (issueNodeToken_writes token nodeId _ fresh now _)
  · exact hadd

/-- A registration writes its own node, in the personal environment of the
install token's subscription, and nothing else. -/
theorem registerWithInstallToken_writes (row : InstallTokenRow) (fresh : Uuid) :
    w.NodeWrites req.uuid (personalEnv row.subscriptionId)
      (registerWithInstallToken b token row req fresh now w).1 := by
  unfold registerWithInstallToken
  simp only
  split
  · exact .refl _ _ w
  split
  · exact .refl _ _ w
  split
  · exact .refl _ _ w
  split
  · exact .refl _ _ w
  have hinsert : w.NodeWrites req.uuid (personalEnv row.subscriptionId)
      (w.dbCall (Db.insertPrivateNodeWithLimit (personalEnv row.subscriptionId) req.uuid
        ((req.asPrivate (personalEnv row.subscriptionId)).asNode b now))).1 :=
    .dbCall fun db slot h => .insertPrivateNodeWithLimit rfl h
  split <;> rename_i heq <;> rw [heq] at hinsert
  · exact hinsert
  · exact hinsert
  · split
    · refine hinsert.trans (finishRegistration_writes ?_ ?_ token fresh now _) <;> rfl
    · exact hinsert

/-- What a refresh can do: nothing, or write the node its token is bound to, in
the environment `refreshEnv` chooses. -/
theorem refreshKnownPrivateNode_writes (b : Backend) (token : String) (req : NodeRequest)
    (now : DateTime) (w : World) :
    ((refreshKnownPrivateNode b token req now w).1.db = w.db ∧
      (refreshKnownPrivateNode b token req now w).1.mem = w.mem) ∨
    ∃ env, w.db.findNodeByToken token = some req.uuid ∧
      refreshEnv ((w.mem.nodes.getById req.uuid).map Node.env) req.env = .ok env ∧
      w.NodeWrites req.uuid env (refreshKnownPrivateNode b token req now w).1 := by
  have hdb := World.dbRead_db (Db.findNodeByToken token) w
  have hmem := World.dbRead_mem (Db.findNodeByToken token) w
  unfold refreshKnownPrivateNode
  split
  · rename_i heq
    rw [heq] at hdb hmem
    exact .inl ⟨hdb, hmem⟩
  · rename_i heq
    rw [heq] at hdb hmem
    exact .inl ⟨hdb, hmem⟩
  rename_i w₁ known heq
  have hknown : some known = w.db.findNodeByToken token := by
    refine World.dbRead_ok ?_
    rw [heq]
  rw [heq] at hdb hmem
  split
  · exact .inl ⟨hdb, hmem⟩
  rename_i hne
  have hid : known = req.uuid := not_not.mp hne
  subst hid
  simp only
  split
  · exact .inl ⟨hdb, hmem⟩
  split
  · exact .inl ⟨hdb, hmem⟩
  rename_i env henv
  split
  · exact .inl ⟨hdb, hmem⟩
  rw [hmem] at henv
  refine .inr ⟨env, hknown.symm, henv, ?_⟩
  have hread : w.NodeWrites req.uuid env w₁ := .of_db hmem (by rw [hdb]; exact .refl _ _ _)
  split
  · have hinsert : w.NodeWrites req.uuid env (w₁.dbCall (Db.insertPrivateNodeWithLimit env req.uuid
        ({ (req.asPrivate env) with uuid := req.uuid }.asNode b now))).1 :=
      hread.trans (.dbCall fun db slot h => .insertPrivateNodeWithLimit rfl h)
    split <;> rename_i heq' <;> rw [heq'] at hinsert
    · exact hinsert
    · exact hinsert
    · split
      · refine hinsert.trans (finishRefresh_writes ?_ ?_ now _) <;> rfl
      · exact hinsert
  · refine hread.trans (finishRefresh_writes ?_ ?_ now _) <;> rfl

end Writes

end Fcore
