import Mathlib.Algebra.Order.Group.MinMax
import Fcore.Lib.Run
import Fcore.Sync.Subscription

/-!
# Durability of subscription updates

The terms of a subscription are its expiry and its traffic limit. Three operations
change them in the cache and in the table. A top-up takes the new limit from the
table. An update computes the new terms in the cache, but the statement it sends
has no column for the limit. An extension by days writes the cache first, where a
new expiry that is not in the future is dropped, and computes the stored expiry on
its own at a later reading of the clock.

The main result is about runs: as long as an update does not change the limit, and
an extension either succeeds with an expiry in the future or fails without one, the
cached terms follow the stored ones and a failed call leaves them alone. The stored
and the cached expiry then differ by no more than the readings of the clock.
-/

namespace Fcore

namespace World

/-- An extension by days with both of its clock readings: the cache is written at the
first, the table at the second. -/
def addDaysAt (subId : Uuid) (days : ℤ) (now later : DateTime) (w : World) :
    World × Except SyncError Status :=
  match w.mem.subscriptions.lookup subId with
  | none => (w, .ok (.notFound subId))
  | some sub =>
    andThen ((w.writeMem (Cache.extendSub subId days now)).dbCall
      (Db.addDays subId days later)) fun w _ =>
    (w.restoreIfRenewed (!sub.isActive now) subId later, .ok (.updated subId))

end World

/-- The calls that change the terms of a subscription. -/
inductive SubOp where
  | update (subId : Uuid) (req : SubReq) (now : DateTime)
  | addDays (subId : Uuid) (days : ℤ) (now later : DateTime)
  | addLimitBytes (subId : Uuid) (bytes : ℤ) (traceId : Uuid) (now : DateTime)
  deriving DecidableEq, Repr

namespace SubOp

def call (w : World) : SubOp → World × Except SyncError Status
  | update subId req now => w.updateSub subId req now
  | addDays subId days now later => w.addDaysAt subId days now later
  | addLimitBytes subId bytes traceId now => w.addLimitBytes subId bytes traceId now

def step (w : World) (op : SubOp) : World := (op.call w).1

/-- The readings of the clock during a call are at most `gap` apart. -/
def readingsWithin (gap : ℤ) : SubOp → Bool
  | addDays _ _ now later => decide (|now - later| ≤ gap)
  | _ => true

end SubOp

/-- Two expiries at most `gap` apart. -/
def ExpiryWithin (gap : ℤ) : Option DateTime → Option DateTime → Prop
  | none, none => True
  | some cached, some stored => |cached - stored| ≤ gap
  | _, _ => False

instance (gap : ℤ) : ∀ cached stored, Decidable (ExpiryWithin gap cached stored)
  | none, none => isTrue trivial
  | some cached, some stored => inferInstanceAs (Decidable (|cached - stored| ≤ gap))
  | none, some _ => isFalse id
  | some _, none => isFalse id

def Subscription.extendedExpiry (sub : Subscription) (days : ℤ) (now : DateTime) : DateTime :=
  sub.extensionBase now + days * dayNanos

namespace World

/-- A subscription is in both places, with the same limit and the same expiry. -/
def TermsAgree (subId : Uuid) (gap : ℤ) (w : World) : Prop :=
  ∃ sub row, w.mem.subscriptions.lookup subId = some sub ∧
    w.db.subscriptions.lookup subId = some row ∧ sub.limitBytes = row.limitBytes ∧
      ExpiryWithin gap sub.expiresAt row.expiresAt

instance (subId : Uuid) (gap : ℤ) (w : World) : Decidable (w.TermsAgree subId gap) :=
  decidable_of_iff ((w.mem.subscriptions.lookup subId).any fun sub =>
      (w.db.subscriptions.lookup subId).any fun row =>
        decide (sub.limitBytes = row.limitBytes ∧ ExpiryWithin gap sub.expiresAt row.expiresAt))
    (by simp [TermsAgree, Option.any_eq_true])

def cachedTerms (w : World) (subId : Uuid) : Option (Option DateTime × Option ℤ) :=
  (w.mem.subscriptions.lookup subId).map fun sub => (sub.expiresAt, sub.limitBytes)

/-- After a call that succeeds the terms agree; a call that fails leaves the cached
ones as they were. -/
def Durable (subId : Uuid) (gap : ℤ) (w : World) (op : SubOp) : Prop :=
  match (op.call w).2 with
  | .ok _ => (SubOp.step w op).TermsAgree subId gap
  | .error _ => (SubOp.step w op).cachedTerms subId = w.cachedTerms subId

instance (subId : Uuid) (gap : ℤ) (w : World) (op : SubOp) : Decidable (w.Durable subId gap op) :=
  match h : (op.call w).2 with
  | .ok _ => decidable_of_iff ((op.step w).TermsAgree subId gap) (by simp [Durable, h])
  | .error _ =>
    decidable_of_iff ((op.step w).cachedTerms subId = w.cachedTerms subId) (by simp [Durable, h])

/-- A call that keeps the terms of a subscription together. An update names no limit
but the present one, or its statement is not carried out. The statement of an
extension succeeds exactly when the new expiry is in the future, unless the expiry
stays what it is. -/
def keepsTerms (subId : Uuid) (w : World) : SubOp → Bool
  | .update subId' req now =>
    decide (subId' ≠ subId) || (w.mem.subscriptions.lookup subId).all fun sub =>
      req.limitBytes.all (fun limit => decide (sub.limitBytes = some limit)) ||
        w.dbFails w.calls || (sub.withReq req now).expiresAt.isNone ||
          w.db.subRefused subId sub.parentId sub.premiumToken
  | .addDays subId' days now _ =>
    decide (subId' ≠ subId) || (w.mem.subscriptions.lookup subId).all fun sub =>
      decide (sub.expiresAt = some (sub.extendedExpiry days now)) ||
        decide (w.dbFails w.calls = !decide (now < sub.extendedExpiry days now))
  | .addLimitBytes .. => true

variable {db : Db} {now later : DateTime} {op : SubOp} {subId' : Uuid}

section Cases

theorem subscriptions_restoreIfRenewed (renewed : Bool) (subId : Uuid) (now : DateTime)
    (w : World) :
    (w.restoreIfRenewed renewed subId now).mem.subscriptions = w.mem.subscriptions ∧
      (w.restoreIfRenewed renewed subId now).db.subscriptions = w.db.subscriptions := by
  unfold restoreIfRenewed
  split
  · have honly := OnlyConnections.restoreConnectionsBySubscription subId none now w
    constructor
    · rw [honly.mem]
    · rw [honly.db]
  · exact ⟨rfl, rfl⟩

theorem updateSubscriptionRow_ok {subId : Uuid} {f : SubscriptionRow → SubscriptionRow} {db' : Db}
    {row' : SubscriptionRow} (h : db.updateSubscriptionRow subId f = .ok (db', row')) :
    ∃ row, db.subscriptions.lookup subId = some row ∧
      db'.subscriptions = AList.insert subId (f row) db.subscriptions := by
  unfold Db.updateSubscriptionRow at h
  split at h
  · cases h
  · rename_i row hrow
    cases h
    exact ⟨row, hrow, rfl⟩

theorem updateSubscriptionRow_of_lookup {subId : Uuid} {row : SubscriptionRow}
    (h : db.subscriptions.lookup subId = some row) (f : SubscriptionRow → SubscriptionRow) :
    db.updateSubscriptionRow subId f =
      .ok ({ db with subscriptions := AList.insert subId (f row) db.subscriptions }, f row) := by
  rw [Db.updateSubscriptionRow, h]

theorem updateSubscription_ok {subId : Uuid} {expiresAt : DateTime} {referCode : String}
    {parentId : Option Uuid} {scopeEnv : Option Env} {premiumToken : Option String} {db' : Db}
    {row' : SubscriptionRow}
    (h : db.updateSubscription subId expiresAt referCode parentId scopeEnv premiumToken now =
      .ok (db', row')) :
    ∃ row, db.subRefused subId parentId premiumToken = false ∧
      db.subscriptions.lookup subId = some row ∧
      db'.subscriptions = AList.insert subId
        { row with
          expiresAt := some expiresAt
          updatedAt := now
          referCode := referCode
          parentId := parentId
          scopeEnv := scopeEnv.map Env.asStr
          premiumToken := premiumToken } db.subscriptions := by
  unfold Db.updateSubscription at h
  split at h
  · cases h
  · rename_i hrefused
    obtain ⟨row, hrow, hsubs⟩ := updateSubscriptionRow_ok h
    exact ⟨row, Bool.eq_false_iff.mpr hrefused, hrow, hsubs⟩

/-- What an update does to the subscriptions: nothing, and then it failed or did not
find the subscription, or it writes both places. -/
theorem updateSub_cases (subId : Uuid) (req : SubReq) (now : DateTime) (w : World) :
    ((w.updateSub subId req now).1.mem.subscriptions = w.mem.subscriptions ∧
      (w.updateSub subId req now).1.db.subscriptions = w.db.subscriptions) ∨
    ∃ sub row row' expiresAt, w.mem.subscriptions.lookup subId = some sub ∧
      w.db.subscriptions.lookup subId = some row ∧
      (sub.withReq req now).expiresAt = some expiresAt ∧
      w.dbFails w.calls = false ∧
      w.db.subRefused subId (sub.withReq req now).parentId (sub.withReq req now).premiumToken =
        false ∧
      (w.updateSub subId req now).2 = .ok (.updated subId) ∧
      (w.updateSub subId req now).1.mem.subscriptions =
        w.mem.subscriptions.update (sub.withReq req now) ∧
      (w.updateSub subId req now).1.db.subscriptions =
        AList.insert subId row' w.db.subscriptions ∧
      row'.expiresAt = some expiresAt ∧ row'.limitBytes = row.limitBytes := by
  unfold updateSub
  cases hlookup : w.mem.subscriptions.lookup subId with
  | none => exact .inl ⟨rfl, rfl⟩
  | some sub =>
    dsimp only [storeUpdated]
    cases hexpires : (sub.withReq req now).expiresAt with
    | none => exact .inl ⟨rfl, rfl⟩
    | some expiresAt =>
      dsimp only
      generalize hcall : Db.updateSubscription subId expiresAt _ _ _ _ now = call
      rcases dbCall_cases call w with ⟨⟨e, he⟩, hdb⟩ | ⟨db, row', hok, hresult, hdb⟩
      · rw [andThen_error he]
        exact .inl ⟨by simp, by rw [hdb]⟩
      · rw [andThen_ok hresult]
        have hfails := dbFails_eq_false_of_ok hresult
        obtain ⟨hmem', hdb'⟩ := subscriptions_restoreIfRenewed
          (!sub.isActive now && (sub.withReq req now).isActive now) subId now
          ((w.dbCall call).1.writeMem (Cache.updateSub (sub.withReq req now)))
        subst hcall
        obtain ⟨row, hrefused, hrow, hsubs⟩ := updateSubscription_ok hok
        refine .inr ⟨sub, row, _, expiresAt, rfl, hrow, hexpires, hfails, hrefused, rfl, ?_,
          by rw [hdb', writeMem_db, hdb, hsubs], ?_, ?_⟩
        · rw [hmem', writeMem_mem, dbCall_mem]
          rfl
        · rfl
        · rfl

/-- What an extension does to the subscriptions. The cache is written before the
statement runs, so it has changed whatever comes of it. -/
theorem addDaysAt_cases (subId : Uuid) (days : ℤ) (now later : DateTime) (w : World) :
    (w.mem.subscriptions.lookup subId = none ∧
      w.addDaysAt subId days now later = (w, .ok (.notFound subId))) ∨
    (w.addDaysAt subId days now later).1.mem.subscriptions =
        (Cache.extendSub subId days now w.mem).subscriptions ∧
      (((w.addDaysAt subId days now later).1.db.subscriptions = w.db.subscriptions ∧
          (w.dbFails w.calls = true ∨ w.db.subscriptions.lookup subId = none)) ∨
        ∃ row, w.db.subscriptions.lookup subId = some row ∧ w.dbFails w.calls = false ∧
          (w.addDaysAt subId days now later).2 = .ok (.updated subId) ∧
          (w.addDaysAt subId days now later).1.db.subscriptions = AList.insert subId
            { row with
              expiresAt := some (Db.extensionBase row.expiresAt later + days * dayNanos)
              updatedAt := later } w.db.subscriptions) := by
  unfold addDaysAt
  cases hlookup : w.mem.subscriptions.lookup subId with
  | none => exact .inl ⟨rfl, rfl⟩
  | some sub =>
    right
    dsimp only
    cases hfails : w.dbFails w.calls with
    | true =>
      rw [dbCall_of_fails (by exact hfails)]
      exact ⟨rfl, .inl ⟨rfl, .inl rfl⟩⟩
    | false =>
      cases hrow : w.db.subscriptions.lookup subId with
      | none =>
        rw [dbCall_of_error (e := .rowCount) (by exact hfails)
          (by simp [Db.addDays, Db.updateSubscriptionRow, hrow])]
        exact ⟨rfl, .inl ⟨rfl, .inr rfl⟩⟩
      | some row =>
        have hstatement := updateSubscriptionRow_of_lookup hrow fun row =>
          { row with
            expiresAt := some (Db.extensionBase row.expiresAt later + days * dayNanos)
            updatedAt := later }
        rw [dbCall_of_ok (by exact hfails) (by exact hstatement)]
        obtain ⟨hmem, hdb⟩ :=
          subscriptions_restoreIfRenewed (!sub.isActive now) subId later _
        exact ⟨hmem, .inr ⟨row, rfl, rfl, rfl, hdb⟩⟩

/-- What a top-up does to the subscriptions: nothing, or both places get the limit the
table answers with. -/
theorem addLimitBytes_cases (subId : Uuid) (bytes : ℤ) (traceId : Uuid) (now : DateTime)
    (w : World) :
    ((w.addLimitBytes subId bytes traceId now).1.mem.subscriptions = w.mem.subscriptions ∧
      (w.addLimitBytes subId bytes traceId now).1.db.subscriptions = w.db.subscriptions) ∨
    ∃ row limit, w.db.subscriptions.lookup subId = some row ∧
      (w.addLimitBytes subId bytes traceId now).2 = .ok (.updated subId) ∧
      (w.addLimitBytes subId bytes traceId now).1.mem.subscriptions =
        w.mem.subscriptions.modify subId (·.setLimitBytes limit) ∧
      (w.addLimitBytes subId bytes traceId now).1.db.subscriptions =
        AList.insert subId { row with limitBytes := some limit, updatedAt := now }
          w.db.subscriptions := by
  unfold addLimitBytes
  rcases dbCall_cases (Db.addLimitBytes subId traceId bytes now) w with
    ⟨⟨e, he⟩, hdb⟩ | ⟨db, newLimit, hok, hresult, hdb⟩
  · rw [andThen_error he]
    exact .inl ⟨by simp, by rw [hdb]⟩
  · rw [andThen_ok hresult]
    unfold Db.addLimitBytes at hok
    split at hok
    · cases hok
      exact .inl ⟨by simp, by simp [hdb]⟩
    · split at hok
      · cases hok
      · rename_i row hrow
        cases hok
        refine .inr ⟨row, row.limitBytes.getD 0 + bytes, hrow, rfl, ?_, ?_⟩
        · rw [writeMem_mem, dbCall_mem]
          rfl
        · rw [writeMem_db, hdb]

end Cases

section Step

def SubsKeyed (w : World) : Prop :=
  ∀ id sub, w.mem.subscriptions.lookup id = some sub → sub.id = id

/-- What a call leaves of one subscription when it is about another. -/
structure SameSubscription (subId : Uuid) (w w' : World) : Prop where
  mem : w'.mem.subscriptions.lookup subId = w.mem.subscriptions.lookup subId
  db : w'.db.subscriptions.lookup subId = w.db.subscriptions.lookup subId

/-- After a call the terms agree, and a call that failed left the cached ones alone. -/
structure Kept (subId : Uuid) (gap : ℤ) (w : World) (r : World × Except SyncError Status) :
    Prop where
  agree : r.1.TermsAgree subId gap
  error : ∀ e, r.2 = .error e → r.1.cachedTerms subId = w.cachedTerms subId

variable {subId : Uuid} {gap : ℤ} {w : World}

theorem SameSubscription.kept {r : World × Except SyncError Status}
    (h : SameSubscription subId w r.1) (hagree : w.TermsAgree subId gap) :
    Kept subId gap w r where
  agree := by
    unfold TermsAgree
    rw [h.mem, h.db]
    exact hagree
  error := by
    intro e _
    rw [cachedTerms, h.mem, cachedTerms]

theorem Kept.of_ok {r : World × Except SyncError Status} {status : Status} (hok : r.2 = .ok status)
    (hagree : r.1.TermsAgree subId gap) : Kept subId gap w r where
  agree := hagree
  error := by
    intro e he
    rw [hok] at he
    cases he

theorem Kept.durable (h : Kept subId gap w (op.call w)) : w.Durable subId gap op := by
  unfold Durable
  cases hresult : (op.call w).2 with
  | ok status => exact h.agree
  | error e => exact h.error e hresult

theorem withReq_id (sub : Subscription) (req : SubReq) (now : DateTime) :
    (sub.withReq req now).id = sub.id := by
  obtain ⟨days, referCode, limitBytes⟩ := req
  cases days <;> cases referCode <;> cases limitBytes <;> rfl

theorem withReq_owner (sub : Subscription) (req : SubReq) (now : DateTime) :
    (sub.withReq req now).parentId = sub.parentId ∧
      (sub.withReq req now).premiumToken = sub.premiumToken := by
  obtain ⟨days, referCode, limitBytes⟩ := req
  cases days <;> cases referCode <;> cases limitBytes <;> exact ⟨rfl, rfl⟩

theorem withReq_limitBytes (sub : Subscription) (req : SubReq) (now : DateTime) :
    (sub.withReq req now).limitBytes = req.limitBytes.or sub.limitBytes := by
  obtain ⟨days, referCode, limitBytes⟩ := req
  cases days <;> cases referCode <;> cases limitBytes <;> rfl

/-- An extension of a cached subscription: only the expiry moves, and only forward of
the clock. -/
theorem lookup_extendSub_self {mem : Cache} {sub : Subscription}
    (h : mem.subscriptions.lookup subId = some sub) (days : ℤ) (now : DateTime) :
    ∃ sub', (Cache.extendSub subId days now mem).subscriptions.lookup subId = some sub' ∧
      sub'.id = sub.id ∧ sub'.limitBytes = sub.limitBytes ∧
      sub'.expiresAt = if now < sub.extendedExpiry days now
        then some (sub.extendedExpiry days now) else sub.expiresAt := by
  have hbase : sub.extensionBase now + days * dayNanos = sub.extendedExpiry days now := rfl
  rw [Cache.extendSub, AList.lookup_modify_self, h, Option.map_some]
  refine ⟨_, rfl, ?_⟩
  rw [hbase, Subscription.setExpiresAt]
  by_cases hfuture : now < sub.extendedExpiry days now
  · simp [hfuture, not_le.mpr hfuture]
  · simp [hfuture, not_lt.mp hfuture]

theorem extensionBase_within {sub : Subscription} {stored : Option DateTime}
    (h : ExpiryWithin gap sub.expiresAt stored) (hclock : |now - later| ≤ gap) :
    |sub.extensionBase now - Db.extensionBase stored later| ≤ gap := by
  unfold Subscription.extensionBase Db.extensionBase
  cases hcached : sub.expiresAt with
  | none =>
    cases stored with
    | none => exact hclock
    | some exp => simp [ExpiryWithin, hcached] at h
  | some cached =>
    cases stored with
    | none => simp [ExpiryWithin, hcached] at h
    | some exp =>
      rw [hcached] at h
      have hmax := abs_max_sub_max_le_max now cached later exp
      rw [max_def_lt now, max_def_lt later] at hmax
      exact hmax.trans (max_le hclock h)

theorem SameSubscription.updateSub {req : SubReq} (hkeyed : w.SubsKeyed) (hne : subId ≠ subId') :
    SameSubscription subId w (w.updateSub subId' req now).1 := by
  rcases updateSub_cases subId' req now w with
    ⟨hmem, hdb⟩ | ⟨sub, row, row', expiresAt, hsub, -, -, -, -, -, hmem, hdb, -⟩
  · exact ⟨by rw [hmem], by rw [hdb]⟩
  · have hid : (sub.withReq req now).id = subId' := by
      rw [withReq_id, hkeyed subId' sub hsub]
    constructor
    · rw [hmem, Subscriptions.update, hid, AList.lookup_insert_ne hne]
    · rw [hdb, AList.lookup_insert_ne hne]

theorem SameSubscription.addDaysAt {days : ℤ} (hne : subId ≠ subId') :
    SameSubscription subId w (w.addDaysAt subId' days now later).1 := by
  rcases addDaysAt_cases subId' days now later w with ⟨-, heq⟩ | ⟨hmem, hdb⟩
  · rw [heq]
    exact ⟨rfl, rfl⟩
  · constructor
    · rw [hmem, Cache.extendSub, AList.lookup_modify_ne hne]
    · rcases hdb with ⟨hdb, -⟩ | ⟨row, -, -, -, hdb⟩
      · rw [hdb]
      · rw [hdb, AList.lookup_insert_ne hne]

/-- An update of the subscription itself: both places get the new expiry, and the
limit stays what the table has. -/
theorem Kept.updateSub {req : SubReq} (hkeyed : w.SubsKeyed) (hagree : w.TermsAgree subId gap)
    (hgap : 0 ≤ gap) (hkeeps : w.keepsTerms subId (.update subId req now) = true) :
    Kept subId gap w (w.updateSub subId req now) := by
  rcases updateSub_cases subId req now w with
    ⟨hmem, hdb⟩ |
    ⟨sub, row, row', expiresAt, hsub, hrow, hexpires, hfails, hrefused, hok, hmem, hdb, hexpires',
      hlimit'⟩
  · exact SameSubscription.kept ⟨by rw [hmem], by rw [hdb]⟩ hagree
  · apply Kept.of_ok hok
    have hid : (sub.withReq req now).id = subId := by
      rw [withReq_id, hkeyed subId sub hsub]
    obtain ⟨sub₀, row₀, hsub₀, hrow₀, hlimit, -⟩ := hagree
    obtain rfl : sub₀ = sub := Option.some.inj (hsub₀.symm.trans hsub)
    obtain rfl : row₀ = row := Option.some.inj (hrow₀.symm.trans hrow)
    refine ⟨sub₀.withReq req now, row', ?_, ?_, ?_, ?_⟩
    · rw [hmem, Subscriptions.update, hid, AList.lookup_insert]
    · rw [hdb, AList.lookup_insert]
    · obtain ⟨hparent, htoken⟩ := withReq_owner sub₀ req now
      rw [hparent, htoken] at hrefused
      have hreq : req.limitBytes.all (fun limit => decide (sub₀.limitBytes = some limit)) := by
        simpa [keepsTerms, hsub, hfails, hexpires, hrefused] using hkeeps
      rw [withReq_limitBytes, hlimit', ← hlimit]
      cases hlimitReq : req.limitBytes with
      | none => rfl
      | some limit =>
        rw [hlimitReq] at hreq
        exact (of_decide_eq_true hreq).symm
    · rw [hexpires, hexpires']
      simpa [ExpiryWithin] using hgap

theorem Kept.addDaysAt {days : ℤ} (hagree : w.TermsAgree subId gap) (hclock : |now - later| ≤ gap)
    (hkeeps : w.keepsTerms subId (.addDays subId days now later) = true) :
    Kept subId gap w (w.addDaysAt subId days now later) := by
  obtain ⟨sub, row, hsub, hrow, hlimit, hwithin⟩ := hagree
  rcases addDaysAt_cases subId days now later w with ⟨hnone, -⟩ | ⟨hmem, hdb⟩
  · rw [hsub] at hnone
    cases hnone
  · obtain ⟨sub', hsub', -, hlimit', hexpires'⟩ := lookup_extendSub_self hsub days now
    rw [← hmem] at hsub'
    have hkeeps' : sub.expiresAt = some (sub.extendedExpiry days now) ∨
        w.dbFails w.calls = !decide (now < sub.extendedExpiry days now) := by
      simpa [keepsTerms, hsub] using hkeeps
    rcases hdb with ⟨hdb, hfailed⟩ | ⟨row₀, hrow₀, hfails, hok, hdb⟩
    · have hfails : w.dbFails w.calls = true := by
        rcases hfailed with hfails | hnone
        · exact hfails
        · rw [hrow] at hnone
          cases hnone
      have hsame : sub'.expiresAt = sub.expiresAt := by
        rw [hexpires']
        rcases hkeeps' with heq | hfuture
        · rw [heq, ite_self]
        · have hpast : ¬ now < sub.extendedExpiry days now := by simpa [hfails] using hfuture
          rw [if_neg hpast]
      refine ⟨⟨sub', row, hsub', by rw [hdb, hrow], by rw [hlimit', hlimit], ?_⟩, ?_⟩
      · rwa [hsame]
      · intro e _
        rw [cachedTerms, cachedTerms, hsub', hsub, Option.map_some, Option.map_some, hsame, hlimit']
    · apply Kept.of_ok hok
      obtain rfl : row = row₀ := Option.some.inj (hrow.symm.trans hrow₀)
      have hmoved : sub'.expiresAt = some (sub.extendedExpiry days now) := by
        rw [hexpires']
        rcases hkeeps' with heq | hfuture
        · rw [heq, ite_self]
        · have hfuture : now < sub.extendedExpiry days now := by simpa [hfails] using hfuture
          rw [if_pos hfuture]
      refine ⟨sub', _, hsub', by rw [hdb, AList.lookup_insert], by rw [hlimit', hlimit], ?_⟩
      rw [hmoved]
      have hbase := extensionBase_within hwithin hclock
      rwa [← add_sub_add_right_eq_sub _ _ (days * dayNanos)] at hbase

theorem Kept.addLimitBytes {traceId : Uuid} {bytes : ℤ} (hagree : w.TermsAgree subId gap) :
    Kept subId gap w (w.addLimitBytes subId' bytes traceId now) := by
  rcases addLimitBytes_cases subId' bytes traceId now w with
    ⟨hmem, hdb⟩ | ⟨row, limit, hrow, hok, hmem, hdb⟩
  · exact SameSubscription.kept ⟨by rw [hmem], by rw [hdb]⟩ hagree
  · by_cases hid : subId = subId'
    · subst hid
      obtain ⟨sub, row₀, hsub, hrow₀, -, hwithin⟩ := hagree
      obtain rfl : row₀ = row := Option.some.inj (hrow₀.symm.trans hrow)
      apply Kept.of_ok hok
      refine ⟨sub.setLimitBytes limit, { row₀ with limitBytes := some limit, updatedAt := now },
        ?_, ?_, rfl, hwithin⟩
      · rw [hmem, AList.lookup_modify_self, hsub, Option.map_some]
      · rw [hdb, AList.lookup_insert]
    · apply SameSubscription.kept _ hagree
      exact ⟨by rw [hmem, AList.lookup_modify_ne hid], by rw [hdb, AList.lookup_insert_ne hid]⟩

theorem Kept.step (hkeyed : w.SubsKeyed) (hagree : w.TermsAgree subId gap) (hgap : 0 ≤ gap)
    (hclock : op.readingsWithin gap = true) (hkeeps : w.keepsTerms subId op = true) :
    Kept subId gap w (op.call w) := by
  cases op with
  | update subId' req now =>
    by_cases hid : subId = subId'
    · subst hid
      exact .updateSub hkeyed hagree hgap hkeeps
    · exact (SameSubscription.updateSub hkeyed hid).kept hagree
  | addDays subId' days now later =>
    by_cases hid : subId = subId'
    · subst hid
      exact .addDaysAt hagree (of_decide_eq_true hclock) hkeeps
    · exact (SameSubscription.addDaysAt hid).kept hagree
  | addLimitBytes subId' bytes traceId now => exact .addLimitBytes hagree

theorem SubsKeyed.step (hkeyed : w.SubsKeyed) : (op.step w).SubsKeyed := by
  intro id sub' hsub'
  cases op with
  | update subId req now =>
    rcases updateSub_cases subId req now w with
      ⟨hmem, -⟩ | ⟨sub, row, row', expiresAt, hsub, -, -, -, -, -, hmem, -⟩
    · exact hkeyed id sub' (by rwa [← hmem])
    · rw [SubOp.step, SubOp.call, hmem, Subscriptions.update] at hsub'
      rcases AList.lookup_insert_cases hsub' with ⟨rfl, rfl⟩ | hold
      · rfl
      · exact hkeyed id sub' hold
  | addDays subId days now later =>
    rcases addDaysAt_cases subId days now later w with ⟨-, heq⟩ | ⟨hmem, -⟩
    · rw [SubOp.step, SubOp.call, heq] at hsub'
      exact hkeyed id sub' hsub'
    · rw [SubOp.step, SubOp.call, hmem] at hsub'
      by_cases hid : id = subId
      · subst hid
        cases hsub : w.mem.subscriptions.lookup id with
        | none => simp [Cache.extendSub, hsub] at hsub'
        | some sub =>
          obtain ⟨sub₀, hsub₀, hid₀, -⟩ := lookup_extendSub_self hsub days now
          rw [hsub'] at hsub₀
          cases hsub₀
          rw [hid₀, hkeyed id sub hsub]
      · rw [Cache.extendSub, AList.lookup_modify_ne hid] at hsub'
        exact hkeyed id sub' hsub'
  | addLimitBytes subId bytes traceId now =>
    rcases addLimitBytes_cases subId bytes traceId now w with
      ⟨hmem, -⟩ | ⟨row, limit, -, -, hmem, -⟩
    · exact hkeyed id sub' (by rwa [← hmem])
    · rw [SubOp.step, SubOp.call, hmem, AList.lookup_modify] at hsub'
      obtain ⟨sub, hsub, rfl⟩ := Option.map_eq_some_iff.mp hsub'
      have hid := hkeyed id sub hsub
      split
      · exact hid
      · exact hid

end Step

/-- Along every run of calls that keep the terms of a subscription together, each call
is durable for it. -/
theorem subscription_updates_durable {subId : Uuid} {gap : ℤ} {w : World} {sub : Subscription}
    {row : SubscriptionRow} {ops : List SubOp} (hgap : 0 ≤ gap) (hkeyed : w.SubsKeyed)
    (hsub : w.mem.subscriptions.lookup subId = some sub)
    (hrow : w.db.subscriptions.lookup subId = some row)
    (hexpires : sub.expiresAt = row.expiresAt) (hlimit : sub.limitBytes = row.limitBytes)
    (hkeeps : Run.Along SubOp.step
      (fun w op => op.readingsWithin gap = true ∧ w.keepsTerms subId op = true) w ops) :
    Run.Along SubOp.step (fun w op => w.Durable subId gap op) w ops := by
  have hagree : w.TermsAgree subId gap := by
    refine ⟨sub, row, hsub, hrow, hlimit, ?_⟩
    rw [hexpires]
    cases row.expiresAt with
    | none => trivial
    | some expiresAt => simpa [ExpiryWithin] using hgap
  refine Run.along_of_invariant (I := fun w => w.SubsKeyed ∧ w.TermsAgree subId gap) ?_
    ⟨hkeyed, hagree⟩ hkeeps
  rintro w op ⟨hkeyed, hagree⟩ ⟨hclock, hkeeps⟩
  have hkept : Kept subId gap w (op.call w) := .step hkeyed hagree hgap hclock hkeeps
  exact ⟨⟨hkeyed.step, hkept.agree⟩, hkept.durable⟩

section Runs

def limitedWorld (dbFails : ℕ → Bool) : World :=
  ((init dbFails fun _ => false).addSub
    (Subscription.new 1 "" (some dayNanos) (some 100) 0) 0).1

theorem subsKeyed_limitedWorld : (limitedWorld fun _ => false).SubsKeyed := by
  intro id sub hsub
  have hlookup : (AList.insert 1 (Subscription.new 1 "" (some dayNanos) (some 100) 0)
      ∅ : Subscriptions).lookup id = some sub := hsub
  obtain ⟨rfl, rfl⟩ := AList.eq_of_lookup_single hlookup
  rfl

/-- An extension, a top-up and an update of the expiry, ten nanoseconds apart at most. -/
theorem subscription_updates_durable_extend :
    (limitedWorld fun _ => false).SubsKeyed ∧
      Run.Along SubOp.step (fun w op => w.Durable 1 10 op) (limitedWorld fun _ => false)
        [.addDays 1 30 5 15, .addLimitBytes 1 400 7 20, .update 1 ⟨some 30, none, some 500⟩ 30] :=
  ⟨subsKeyed_limitedWorld, subscription_updates_durable (by decide) subsKeyed_limitedWorld
    (by rfl) (by rfl) rfl rfl (by decide +kernel)⟩

/-- An update to a limit of 500 bytes is answered without an error and stored nowhere.
An extension whose statement fails is answered with an error and stays in the cache,
and an extension into the past is stored and not cached. -/
theorem not_subscription_updates_durable :
    (limitedWorld fun _ => false).SubsKeyed ∧
      ¬ Run.Along SubOp.step (fun w op => w.Durable 1 10 op) (limitedWorld fun _ => false)
        [.update 1 ⟨none, none, some 500⟩ 5] ∧
      ¬ Run.Along SubOp.step (fun w op => w.Durable 1 10 op) (limitedWorld fun n => decide (n = 1))
        [.addDays 1 30 5 15] ∧
      ¬ Run.Along SubOp.step (fun w op => w.Durable 1 10 op) (limitedWorld fun _ => false)
        [.addDays 1 (-1) 5 15] := by
  refine ⟨subsKeyed_limitedWorld, ?_, ?_, ?_⟩ <;> decide +kernel

end Runs

end World

end Fcore
