import Fcore.Handlers.PrivateNode.Ownership
import Fcore.Memory.Wire

/-!
# Minting an install token

An install token is bound to the personal environment of its subscription, which
becomes the scope of the subscription if it has none. A scope it has already
stays, whatever it is, and the registration looks for the subscription whose
scope is the personal environment.
-/

namespace Fcore

def INSTALL_TOKEN_TTL_SECS : ℤ := 3600

def MAX_ACTIVE_INSTALL_TOKENS : ℕ := 3

namespace Db

def setPremiumFields (subId : Uuid) (scopeEnv : Option Env) (premiumToken : Option String)
    (now : DateTime) (db : Db) : Except SyncError (Db × Unit) :=
  if (db.subscriptions.lookup subId).isSome then
    .ok ({ db with subscriptions := db.subscriptions.modify subId fun row =>
      { row with
        scopeEnv := scopeEnv.map Env.asStr
        premiumToken := premiumToken
        updatedAt := now } }, ())
  else .error .rowCount

def countActiveInstallTokens (subId : Uuid) (now : DateTime) (db : Db) : ℕ :=
  (db.installTokens.entries.filter fun e =>
    decide (e.2.subscriptionId = subId) && installTokenUsable e.2 now).length

def createInstallToken (token : String) (subId : Uuid) (scopeEnv : Env) (now : DateTime)
    (db : Db) : Except SyncError (Db × InstallTokenRow) :=
  if (db.installTokens.lookup token).isSome then .error .constraint
  else
    let row : InstallTokenRow :=
      { subscriptionId := subId
        scopeEnv := scopeEnv.asStr
        createdAt := now
        expiresAt := now + INSTALL_TOKEN_TTL_SECS * 1000000000
        usedAt := none
        revokedAt := none }
    .ok ({ db with installTokens := AList.insert token row db.installTokens }, row)

end Db

def ensurePersonalScope (subId : Uuid) (now : DateTime) (w : World) : World × Except Reply Env :=
  let personal := personalEnv subId
  match w.mem.subscriptions.lookup subId with
  | none => (w, .error (.notFound "subscription not found"))
  | some sub =>
    if sub.isDeleted then (w, .error (.notFound "subscription not found"))
    else if sub.scopeEnv.isSome then (w, .ok personal)
    else
      match w.dbCall (Db.setPremiumFields subId (some personal) sub.premiumToken now) with
      | (w, .error _) => (w, .error (.internalError "failed to set personal scope"))
      | (w, .ok ()) =>
        (w.writeMem fun mem => { mem with subscriptions := mem.subscriptions.modify subId fun sub =>
          { sub with scopeEnv := some personal } }, .ok personal)

structure InstallTokenResponse where
  token : String
  scopeEnv : String
  expiresAt : DateTime
  installHint : String

/-- The token itself is a fresh identifier. -/
def mintInstallTokenHandler (subId fresh : Uuid) (now : DateTime) (w : World) :
    World × Except Reply InstallTokenResponse :=
  if (w.mem.subscriptions.lookup subId).any fun sub => sub.parentId.isSome then
    (w, .error (.forbidden "a user of a selfhosted account cannot host nodes"))
  else
    match ensurePersonalScope subId now w with
    | (w, .error reply) => (w, .error reply)
    | (w, .ok scopeEnv) =>
      let used : ℤ := ((w.mem.nodes.getByEnv scopeEnv).getD []).length
      match (w.mem.subscriptions.lookup subId).filter fun sub => decide (sub.serverLimit ≤ used) with
      | some sub => (w, .error (.limitReached used sub.serverLimit))
      | none =>
        match w.dbRead (Db.countActiveInstallTokens subId now) with
        | (w, .error _) => (w, .error (.internalError "db error"))
        | (w, .ok active) =>
          if MAX_ACTIVE_INSTALL_TOKENS ≤ active then
            (w, .error (.tooManyRequests ("too many active install tokens (max " ++
              toString MAX_ACTIVE_INSTALL_TOKENS ++ ")")))
          else
            let token := "inst_" ++ fresh.asSimple
            match w.dbCall (Db.createInstallToken token subId scopeEnv now) with
            | (w, .error _) => (w, .error (.internalError "db error"))
            | (w, .ok row) =>
              (w, .ok ⟨token, scopeEnv.asStr, row.expiresAt,
                "curl -fsSL https://frkn.org/install | bash -s -- --token " ++ token⟩)

/-- The registration gets past the insert of its node, with a slot taken. -/
def RegistrationInserts (b : Backend) (token : String) (req : NodeRequest) (env : Env)
    (fresh : Uuid) (now : DateTime) (w : World) : Prop :=
  let node := (req.asPrivate env).asNode b now
  ∃ slot w', (w.dbRead (Db.findUsableInstallToken token now)).1.dbCall
      (Db.insertPrivateNodeWithLimit env req.uuid node) = (w', .ok (some slot)) ∧
    slot.inserted = true ∧
    registerPrivateNodeHandler b (some ("Bearer " ++ token)) req fresh now w =
      finishRegistration token req.uuid node fresh now w'

/-- A live subscription has an environment as its scope. -/
def Db.Scoped (env : Env) (db : Db) (id : Uuid) (row : SubscriptionRow) : Prop :=
  db.subscriptions.lookup id = some row ∧ row.scopeEnv = some env.asStr ∧ row.isDeleted = false

def Db.usedSlots (env : Env) (nodeId : Uuid) (db : Db) : ℤ :=
  (db.nodes.entries.filter fun e => decide (e.2.env = env.asStr) && decide (e.1 ≠ nodeId)).length

/-- A slot is taken exactly if one subscription has the scope and room for the node. -/
theorem inserted_iff {env : Env} {nodeId : Uuid} {node : Node} {db : Db} :
    (∃ db' slot, db.insertPrivateNodeWithLimit env nodeId node = .ok (db', some slot) ∧
        slot.inserted = true) ↔
      ∃ id row, db.Scoped env id row ∧ (∀ id' row', db.Scoped env id' row' → id' = id) ∧
        db.usedSlots env nodeId < row.serverLimit := by
  have hmem : ∀ id row, (⟨id, row⟩ : Σ _ : Uuid, SubscriptionRow) ∈
      (db.subscriptions.entries.filter fun e =>
        decide (e.2.scopeEnv = some env.asStr) && !e.2.isDeleted) ↔ db.Scoped env id row := by
    intro id row
    simp [List.mem_filter, AList.mem_entries_iff, Db.Scoped]
  have hnodup : ((db.subscriptions.entries.filter fun e =>
      decide (e.2.scopeEnv = some env.asStr) && !e.2.isDeleted).map Sigma.fst).Nodup :=
    (List.filter_sublist.map Sigma.fst).nodup db.subscriptions.nodupKeys
  unfold Db.insertPrivateNodeWithLimit
  revert hmem hnodup
  cases (db.subscriptions.entries.filter fun e =>
      decide (e.2.scopeEnv = some env.asStr) && !e.2.isDeleted) with
  | nil =>
    intro hmem _
    refine iff_of_false ?_ ?_
    · rintro ⟨db', slot, h, -⟩
      cases h
    · rintro ⟨id, row, hscoped, -⟩
      cases (hmem id row).mpr hscoped
  | cons owner rest =>
    cases rest with
    | nil =>
      intro hmem _
      have honly : ∀ id row, db.Scoped env id row → owner = ⟨id, row⟩ := fun id row hscoped =>
        (List.mem_singleton.mp ((hmem id row).mpr hscoped)).symm
      by_cases hfull : max owner.2.serverLimit 0 ≤ db.usedSlots env nodeId
      · refine iff_of_false ?_ ?_
        · rintro ⟨db', slot, h, hinserted⟩
          cases (if_pos hfull).symm.trans h
          cases hinserted
        · rintro ⟨id, row, hscoped, -, hroom⟩
          cases honly id row hscoped
          exact absurd ((le_max_left ..).trans hfull) (not_le.mpr hroom)
      · refine iff_of_true ⟨_, _, if_neg hfull, rfl⟩ ⟨owner.1, owner.2,
          (hmem owner.1 owner.2).mp List.mem_cons_self, fun id row hscoped => ?_, ?_⟩
        · rw [honly id row hscoped]
        · have hused : 0 ≤ db.usedSlots env nodeId := Int.natCast_nonneg _
          omega
    | cons other rest =>
      intro hmem hnodup
      refine iff_of_false ?_ ?_
      · rintro ⟨db', slot, h, -⟩
        cases h
      · rintro ⟨id, row, -, honly, -⟩
        have howner := honly _ _ ((hmem owner.1 owner.2).mp List.mem_cons_self)
        have hother := honly _ _
          ((hmem other.1 other.2).mp (List.mem_cons_of_mem owner List.mem_cons_self))
        exact (List.nodup_cons.mp hnodup).1
          (List.mem_cons.mpr (.inl (howner.trans hother.symm)))

section Mint

variable {b : Backend} {subId fresh : Uuid} {now : DateTime} {w w₁ : World} {sub : Subscription}

theorem ensurePersonalScope_ok {env : Env} (hsub : w.mem.subscriptions.lookup subId = some sub)
    (h : ensurePersonalScope subId now w = (w₁, .ok env)) :
    env = personalEnv subId ∧ w₁.dbFails = w.dbFails ∧ w₁.db.nodes = w.db.nodes ∧
      ∀ id, w₁.db.subscriptions.lookup id = (w.db.subscriptions.lookup id).map fun row =>
        if id = subId ∧ sub.scopeEnv = none then
          { row with
            scopeEnv := some (personalEnv subId).asStr
            premiumToken := sub.premiumToken
            updatedAt := now }
        else row := by
  unfold ensurePersonalScope at h
  simp only [hsub] at h
  by_cases hdeleted : sub.isDeleted = true
  · simp [hdeleted] at h
  · rw [if_neg hdeleted] at h
    cases hscope : sub.scopeEnv with
    | some scope =>
      rw [hscope] at h
      cases h
      simp
    | none =>
      rw [hscope] at h
      rcases World.dbCall_eq (Db.setPremiumFields subId (some (personalEnv subId))
        sub.premiumToken now) w with ⟨db, a, hdb, hcall⟩ | ⟨e, hcall⟩
      · rw [hcall] at h
        cases h
        unfold Db.setPremiumFields at hdb
        split at hdb
        · cases hdb
          refine ⟨rfl, rfl, rfl, fun id => ?_⟩
          simp [World.tick, AList.lookup_modify]
        · cases hdb
      · rw [hcall] at h
        cases h

/-- What a minted token leaves behind: the scope is set if there was none, and the token is
bound to the personal environment for the next hour. -/
theorem mintInstallTokenHandler_ok {resp : InstallTokenResponse}
    (hsub : w.mem.subscriptions.lookup subId = some sub)
    (h : mintInstallTokenHandler subId fresh now w = (w₁, .ok resp)) :
    w₁.dbFails = w.dbFails ∧ w₁.db.nodes = w.db.nodes ∧ startsWith resp.token "inst_" = true ∧
      w₁.db.installTokens.lookup resp.token =
        some ⟨subId, (personalEnv subId).asStr, now, resp.expiresAt, none, none⟩ ∧
      ∀ id, w₁.db.subscriptions.lookup id = (w.db.subscriptions.lookup id).map fun row =>
        if id = subId ∧ sub.scopeEnv = none then
          { row with
            scopeEnv := some (personalEnv subId).asStr
            premiumToken := sub.premiumToken
            updatedAt := now }
        else row := by
  unfold mintInstallTokenHandler at h
  split at h
  · cases h
  split at h
  · cases h
  rename_i w₂ env hensure
  obtain ⟨rfl, hfails, hnodes, hrows⟩ := ensurePersonalScope_ok hsub hensure
  dsimp only at h
  split at h
  · cases h
  split at h
  · cases h
  rename_i w₃ active hread
  have hw₃ : w₃ = w₂.tick := by
    rcases World.dbRead_eq (Db.countActiveInstallTokens subId now) w₂ with hok | herror
    · exact congrArg Prod.fst (hread.symm.trans hok)
    · exact congrArg Prod.fst (hread.symm.trans herror)
  subst hw₃
  split at h
  · cases h
  rcases World.dbCall_eq (Db.createInstallToken ("inst_" ++ fresh.asSimple) subId
    (personalEnv subId) now) w₂.tick with ⟨db, row, hdb, hcall⟩ | ⟨e, hcall⟩
  · rw [hcall] at h
    cases h
    unfold Db.createInstallToken at hdb
    split at hdb
    · cases hdb
    · cases hdb
      exact ⟨hfails, hnodes, startsWith_append _ _, AList.lookup_insert _, hrows⟩
  · rw [hcall] at h
    cases h

/-- The live subscriptions that have the personal environment of one as their scope, that one
included if it gets its scope with the token. -/
def Db.MintOwner (subId : Uuid) (sub : Subscription) (db : Db) (id : Uuid)
    (row : SubscriptionRow) : Prop :=
  db.subscriptions.lookup id = some row ∧ row.isDeleted = false ∧
    (row.scopeEnv = some (personalEnv subId).asStr ∨ id = subId ∧ sub.scopeEnv = none)

/-- With a token bound to the personal environment, the insert decides. -/
theorem registrationInserts_iff {table : CaseTable} {token : String} {req : NodeRequest}
    {nodeFresh : Uuid} {created expires : DateTime} (hw : w.DbReliable)
    (hlower : b.toLowercase = table.toLowercase) (hinst : startsWith token "inst_" = true)
    (htoken : w.db.installTokens.lookup token =
      some ⟨subId, (personalEnv subId).asStr, created, expires, none, none⟩)
    (hvalid : req.validate = .ok ()) (hbefore : now < expires) :
    RegistrationInserts b token req (personalEnv subId) nodeFresh now w ↔
      ∃ db' slot, w.db.insertPrivateNodeWithLimit (personalEnv subId) req.uuid
        ((req.asPrivate (personalEnv subId)).asNode b now) = .ok (db', some slot) ∧
        slot.inserted = true := by
  have hfound : w.db.findUsableInstallToken token now =
      some ⟨subId, (personalEnv subId).asStr, created, expires, none, none⟩ := by
    simp [Db.findUsableInstallToken, htoken, Db.installTokenUsable, hbefore]
  have hread := hw.dbRead (Db.findUsableInstallToken token now)
  have hstored : Env.ofStored b.toLowercase (personalEnv subId).asStr = personalEnv subId := by
    rw [hlower, Env.ofStored, personalEnv, Env.fromStr_asStr (.personalFor subId)]
  have hpersonal : (personalEnv subId).isPersonal = true := by
    simp [personalEnv, Env.personalFor, Env.isPersonal, startsWith_append]
  have hshared : (personalEnv subId).isFrknShared = false := rfl
  have hregister : registerPrivateNodeHandler b (some ("Bearer " ++ token)) req nodeFresh now w =
      registerWithInstallToken b token
        ⟨subId, (personalEnv subId).asStr, created, expires, none, none⟩ req nodeFresh now
        w.tick := by
    simp only [registerPrivateNodeHandler, bearerToken_bearer, startsWith_node_of_inst hinst,
      hinst, ne_empty_of_inst hinst, hread, hfound, Bool.false_eq_true, if_false, or_self,
      Bool.true_eq_false]
  have henv : ((req.asPrivate (personalEnv subId)).asNode b now).env = personalEnv subId := rfl
  simp only [registerWithInstallToken, hstored, hpersonal, hshared, hvalid, henv, Bool.not_true,
    Bool.or_self, Bool.false_eq_true, if_false, ne_eq, not_true_eq_false] at hregister
  unfold RegistrationInserts
  rw [hread, hregister]
  constructor
  · rintro ⟨slot, w', hcall, hinserted, -⟩
    rcases World.dbCall_eq (Db.insertPrivateNodeWithLimit (personalEnv subId) req.uuid
      ((req.asPrivate (personalEnv subId)).asNode b now)) w.tick with
      ⟨db', a, hdb, hcall'⟩ | ⟨e, hcall'⟩
    · cases hcall.symm.trans hcall'
      exact ⟨db', slot, hdb, hinserted⟩
    · cases hcall.symm.trans hcall'
  · rintro ⟨db', slot, hdb, hinserted⟩
    have hcall := World.dbCall_of_ok (w := w.tick) (hw _) hdb
    refine ⟨slot, _, hcall, hinserted, ?_⟩
    rw [hcall]
    exact if_pos hinserted

/-- A minted token is good for a registration exactly if the personal environment has one
owner: the subscription itself, or another one with room for the node. -/
theorem minted_token_inserts_iff {table : CaseTable} {req : NodeRequest} {nodeFresh : Uuid}
    {later : DateTime} {resp : InstallTokenResponse} {row : SubscriptionRow}
    (hw : w.DbReliable) (hlower : b.toLowercase = table.toLowercase)
    (hsub : w.mem.subscriptions.lookup subId = some sub)
    (hmint : mintInstallTokenHandler subId fresh now w = (w₁, .ok resp))
    (hrow : w.db.subscriptions.lookup subId = some row)
    (hroom : w.db.usedSlots (personalEnv subId) req.uuid < row.serverLimit)
    (hvalid : req.validate = .ok ()) (hbefore : later < resp.expiresAt) :
    RegistrationInserts b resp.token req (personalEnv subId) nodeFresh later w₁ ↔
      ∃ id owner, w.db.MintOwner subId sub id owner ∧
        (∀ id' owner', w.db.MintOwner subId sub id' owner' → id' = id) ∧
        (id ≠ subId → w.db.usedSlots (personalEnv subId) req.uuid < owner.serverLimit) := by
  obtain ⟨hfails, hnodes, hinst, htoken, hrows⟩ := mintInstallTokenHandler_ok hsub hmint
  have hw₁ : w₁.DbReliable := fun n => hfails ▸ hw n
  have hused : w₁.db.usedSlots (personalEnv subId) req.uuid =
      w.db.usedSlots (personalEnv subId) req.uuid := by
    rw [Db.usedSlots, Db.usedSlots, hnodes]
  have hscoped : ∀ id owner, w.db.MintOwner subId sub id owner → ∃ owner',
      w₁.db.Scoped (personalEnv subId) id owner' ∧ owner'.serverLimit = owner.serverLimit := by
    rintro id owner ⟨hlookup, hlive, hscope⟩
    refine ⟨_, ⟨by rw [hrows, hlookup, Option.map_some], ?_, ?_⟩, ?_⟩
    · split
      · rfl
      · rename_i hkept
        exact hscope.resolve_right hkept
    · split <;> exact hlive
    · split <;> rfl
  have howner : ∀ id owner', w₁.db.Scoped (personalEnv subId) id owner' → ∃ owner,
      w.db.MintOwner subId sub id owner ∧ owner'.serverLimit = owner.serverLimit := by
    rintro id owner' ⟨hlookup, hscope, hlive⟩
    rw [hrows, Option.map_eq_some_iff] at hlookup
    obtain ⟨owner, hlookup, rfl⟩ := hlookup
    refine ⟨owner, ⟨hlookup, ?_, ?_⟩, ?_⟩
    · split at hlive <;> exact hlive
    · split at hscope
      · rename_i hset
        exact .inr hset
      · exact .inl hscope
    · split <;> rfl
  rw [registrationInserts_iff hw₁ hlower hinst htoken hvalid hbefore, inserted_iff, hused]
  constructor
  · rintro ⟨id, owner', hid, honly, hlimit⟩
    obtain ⟨owner, hmintOwner, hsame⟩ := howner id owner' hid
    refine ⟨id, owner, hmintOwner, fun id' row' h' => ?_, fun _ => hsame ▸ hlimit⟩
    obtain ⟨row'', hrow'', -⟩ := hscoped id' row' h'
    exact honly id' row'' hrow''
  · rintro ⟨id, owner, hid, honly, hlimit⟩
    obtain ⟨owner', hid', hsame⟩ := hscoped id owner hid
    refine ⟨id, owner', hid', fun id' row' h' => ?_, ?_⟩
    · obtain ⟨row'', hrow'', -⟩ := howner id' row' h'
      exact honly id' row'' hrow''
    · rw [hsame]
      by_cases hself : id = subId
      · subst hself
        rwa [Option.some.inj (hid.1.symm.trans hrow)]
      · exact hlimit hself

end Mint

/-- An account with a scope, in memory and in the tables. -/
def scopedAccount (scope : Option Env) : World :=
  let w := World.init (fun _ => false) fun _ => false
  let sub := { Subscription.new 7 "" none none 0 with scopeEnv := scope }
  let row := { personalAccount 7 with scopeEnv := scope.map Env.asStr }
  { w with
    mem := { w.mem with subscriptions := AList.insert 7 sub ∅ }
    db := { w.db with subscriptions := AList.insert 7 row ∅ } }

def asciiBackend : Backend := { constantBackend with toLowercase := CaseTable.ascii.toLowercase }

def mintedToken : InstallTokenResponse where
  token := "inst_" ++ Uuid.asSimple 9
  scopeEnv := (personalEnv 7).asStr
  expiresAt := INSTALL_TOKEN_TTL_SECS * 1000000000
  installHint := "curl -fsSL https://frkn.org/install | bash -s -- --token " ++
    ("inst_" ++ Uuid.asSimple 9)

theorem premium_token_not_inserts : ∃ w₁,
    mintInstallTokenHandler 7 9 0 (scopedAccount (some (.custom "premium7"))) =
      (w₁, .ok mintedToken) ∧
    ¬ RegistrationInserts asciiBackend mintedToken.token (plainNodeRequest 1 (personalEnv 7))
      (personalEnv 7) 3 1 w₁ := by
  refine ⟨_, rfl, ?_⟩
  rintro ⟨slot, w', hcall, -⟩
  cases hcall

theorem personal_token_inserts : ∃ w₁,
    mintInstallTokenHandler 7 9 0 (scopedAccount none) = (w₁, .ok mintedToken) ∧
    RegistrationInserts asciiBackend mintedToken.token (plainNodeRequest 1 (personalEnv 7))
      (personalEnv 7) 3 1 w₁ := by
  have hsub : (scopedAccount none).mem.subscriptions.lookup 7 =
      some (Subscription.new 7 "" none none 0) := rfl
  refine ⟨_, rfl, ?_⟩
  refine (minted_token_inserts_iff (fun _ => rfl) rfl hsub rfl rfl ?_ rfl ?_).mpr
    ⟨7, _, ⟨rfl, rfl, .inr ⟨rfl, rfl⟩⟩, ?_, fun h => absurd rfl h⟩
  · decide
  · decide
  · rintro id owner ⟨hlookup, -⟩
    by_contra hne
    rw [scopedAccount, AList.lookup_insert_ne hne] at hlookup
    cases hlookup

end Fcore
