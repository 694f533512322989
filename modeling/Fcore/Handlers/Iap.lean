import Fcore.Handlers.Key
import Fcore.Postgres.Load
import Fcore.Sync.Durability

/-!
# App Store purchases

`POST /v1/subscriptions` binds a verified App Store transaction to a subscription. The
first call for an original transaction creates the subscription, and every call sets its
expiry to the exact date the transaction carries, in the cache and in the table. A date
that is earlier than the present expiry is set all the same, so the paid time after a call
is that of the transaction, whatever days were added in between.

The App Store and the verification of its signatures are parameters. What follows the
binding (the missing connections, the report and the returned configuration) does not
touch the expiry and is left out.
-/

namespace Fcore

/-- A verified transaction, as far as the handler reads it. -/
structure IapTransaction where
  productId : Option String
  revocationDate : Option DateTime
  originalTransactionId : Option String
  expiresDate : Option DateTime
  deriving DecidableEq, Repr

/-- What the App Store answers, what the verifier makes of it, and the configuration. -/
structure AppleIapClient where
  getTransactionInfo : String → Except String (Option String)
  verifyAndDecodeSignedTransaction : String → Except String IapTransaction
  allowedProducts : List String
  environment : String

/-- The product of a verified transaction, checked against the request and the
configuration. An empty list of products allows all. -/
def validateProductId (transactionProduct requestedProduct : Option String)
    (allowed : List String) : Except String String :=
  match transactionProduct.filter fun p => p ≠ "" with
  | none => .error "transaction has no product_id"
  | some product =>
    match requestedProduct.filter fun p => p ≠ product with
    | some requested => .error ("product_id mismatch: request has \"" ++ requested ++
        "\", transaction has \"" ++ product ++ "\"")
    | none =>
      if !allowed.isEmpty && !allowed.contains product then
        .error ("product \"" ++ product ++ "\" is not allowed")
      else .ok product

structure GatewaySubscriptionsRequest where
  transactionId : String
  productId : Option String
  installationUuid : Option Uuid
  deriving DecidableEq, Repr

structure CheckedTransaction where
  originalTransactionId : String
  productId : String
  expiresAt : DateTime
  deriving DecidableEq, Repr

/-- A row of `iap_transactions`. -/
structure IapRow where
  subscriptionId : Uuid
  productId : String
  environment : String
  installationUuid : Option Uuid
  deriving DecidableEq, Repr

structure IapState where
  world : World
  iapTransactions : Table String IapRow

/-- How a reading of the table lowers environment names, and how errors and statuses are
put into words. -/
structure IapTexts where
  lower : String → String
  describe : SyncError → String
  describeStatus : Status → String

namespace Reply

def badGateway (message : String) : Reply := ⟨502, message⟩

def serviceUnavailable (message : String) : Reply := ⟨503, message⟩

end Reply

/-- The checks of a call before anything is written. -/
def checkTransaction (iap : AppleIapClient) (req : GatewaySubscriptionsRequest) (now : DateTime) :
    Except Reply CheckedTransaction := do
  let transactionId := Text.trim req.transactionId
  if transactionId = "" then throw (.badRequest "transaction_id is required")
  let signed ← match iap.getTransactionInfo transactionId with
    | .error e => throw (.badGateway ("App Store API error: " ++ e))
    | .ok signed => pure (signed.getD "")
  if signed = "" then throw (.badGateway "App Store returned an empty signedTransactionInfo")
  let tx ← match iap.verifyAndDecodeSignedTransaction signed with
    | .error e => throw (.badRequest ("Transaction verification failed: " ++ e))
    | .ok tx => pure tx
  let productId ← match validateProductId tx.productId req.productId iap.allowedProducts with
    | .error e => throw (.badRequest e)
    | .ok productId => pure productId
  if tx.revocationDate.isSome then throw (.badRequest "Transaction was revoked/refunded")
  let originalTransactionId ← match tx.originalTransactionId.filter fun id => id ≠ "" with
    | none => throw (.badRequest "Transaction has no original_transaction_id")
    | some id => pure id
  let expiresAt ← match tx.expiresDate with
    | none => throw (.badRequest "Transaction has no expires_date")
    | some expiresAt => pure expiresAt
  if expiresAt ≤ now then throw (.badRequest "Subscription already expired")
  return ⟨originalTransactionId, productId, expiresAt⟩

namespace World

/-- Make sure that the bound subscription exists; the result says whether this call
created it. -/
def ensureSubscription (texts : IapTexts) (subId : Uuid) (expiresAt now : DateTime) (w : World) :
    World × Except Reply Bool :=
  if (w.mem.subscriptions.lookup subId).isSome then (w, .ok false)
  else
    match w.dbRead (Db.findSubscription subId) with
    | (w, .error e) =>
      (w, .error (.internalError ("Failed to load subscription: " ++ texts.describe e)))
    | (w, .ok (some row)) =>
      (w.writeMem (Cache.addSub (row.toSubscription texts.lower subId)), .ok false)
    | (w, .ok none) =>
      let sub := Subscription.new subId (getUuidLastOctetSimple subId) (some expiresAt) none now
      match w.addSub sub now with
      | (w, .ok (.ok _)) | (w, .ok (.updated _)) | (w, .ok (.alreadyExist _)) => (w, .ok true)
      | (w, .ok other) => (w, .error (.internalError
          ("Failed to create subscription: " ++ texts.describeStatus other)))
      | (w, .error e) =>
        if (w.mem.subscriptions.lookup subId).isSome then (w, .ok false)
        else (w, .error (.internalError
          ("Failed to create subscription: " ++ texts.describe e)))

/-- Set the exact expiry, first in the cache and then in the table. -/
def setSubscriptionExpiration (texts : IapTexts) (subId : Uuid) (expiresAt now : DateTime)
    (w : World) : World × Except Reply Unit :=
  match w.mem.subscriptions.lookup subId with
  | none => (w, .error (.notFound "Subscription not found"))
  | some sub =>
    match sub.setExpiresAt expiresAt now with
    | .error e => (w, .error (.badRequest ("Cannot extend: " ++ e)))
    | .ok updated =>
      let w := w.writeMem fun mem =>
        { mem with subscriptions := mem.subscriptions.modify subId fun _ => updated }
      match w.dbCall (Db.updateSubscription subId expiresAt (Text.trim updated.referCode)
          updated.parentId updated.scopeEnv updated.premiumToken now) with
      | (w, .error e) =>
        (w, .error (.internalError ("Failed to update subscription: " ++ texts.describe e)))
      | (w, .ok _) => (w.restoreIfRenewed (!sub.isActive now) subId now, .ok ())

end World

namespace IapState

/-- Bind an original transaction, or find what it is bound to. -/
def bindOrGet (originalTransactionId : String) (row : IapRow) (s : IapState) :
    IapState × Except SyncError Uuid :=
  if s.world.dbFails s.world.calls then ({ s with world := s.world.tick }, .error .database)
  else
    match s.iapTransactions.lookup originalTransactionId with
    | none =>
      (⟨s.world.tick, AList.insert originalTransactionId row s.iapTransactions⟩,
        .ok row.subscriptionId)
    | some bound =>
      if s.world.dbFails (s.world.calls + 1) then
        ({ s with world := s.world.tick.tick }, .error .database)
      else ({ s with world := s.world.tick.tick }, .ok bound.subscriptionId)

/-- A call up to the expiry that it sets: the subscription it was set for, or the error
reply. `newSubId` is the identifier drawn for a new subscription. -/
def gatewaySubscriptionsHandler (texts : IapTexts) (iap : Option AppleIapClient)
    (req : GatewaySubscriptionsRequest) (newSubId : Uuid) (now : DateTime) (s : IapState) :
    IapState × Except Reply Uuid :=
  match iap with
  | none => (s, .error (.serviceUnavailable "App Store IAP is not configured"))
  | some iap =>
    match checkTransaction iap req now with
    | .error reply => (s, .error reply)
    | .ok tx =>
      match s.bindOrGet tx.originalTransactionId
          ⟨newSubId, tx.productId, iap.environment, req.installationUuid⟩ with
      | (s, .error e) =>
        (s, .error (.internalError ("Failed to bind transaction: " ++ texts.describe e)))
      | (s, .ok subId) =>
        match s.world.ensureSubscription texts subId tx.expiresAt now with
        | (w, .error reply) => (⟨w, s.iapTransactions⟩, .error reply)
        | (w, .ok _) =>
          match w.setSubscriptionExpiration texts subId tx.expiresAt now with
          | (w, .error reply) => (⟨w, s.iapTransactions⟩, .error reply)
          | (w, .ok ()) => (⟨w, s.iapTransactions⟩, .ok subId)

end IapState

namespace World

/-- The expiry of a subscription is the same in the cache and in the table. -/
def ExpiresAt (w : World) (subId : Uuid) (expiresAt : DateTime) : Prop :=
  (∃ sub, w.mem.subscriptions.lookup subId = some sub ∧ sub.expiresAt = some expiresAt) ∧
    ∃ row, w.db.subscriptions.lookup subId = some row ∧ row.expiresAt = some expiresAt

variable {texts : IapTexts} {subId : Uuid} {expiresAt now : DateTime} {w : World}

theorem ExpiresAt.eq {expiresAt' : DateTime} (h : w.ExpiresAt subId expiresAt)
    (h' : w.ExpiresAt subId expiresAt') : expiresAt = expiresAt' := by
  obtain ⟨⟨sub, hsub, hexpires⟩, -⟩ := h
  obtain ⟨⟨sub', hsub', hexpires'⟩, -⟩ := h'
  rw [hsub] at hsub'
  cases hsub'
  rw [hexpires] at hexpires'
  exact Option.some.inj hexpires'

theorem expiresAt_setSubscriptionExpiration
    (h : (w.setSubscriptionExpiration texts subId expiresAt now).2 = .ok ()) :
    (w.setSubscriptionExpiration texts subId expiresAt now).1.ExpiresAt subId expiresAt := by
  unfold setSubscriptionExpiration at h ⊢
  cases hlookup : w.mem.subscriptions.lookup subId with
  | none =>
    rw [hlookup] at h
    cases h
  | some sub =>
    rw [hlookup] at h
    by_cases hpast : expiresAt ≤ now
    · simp only [Subscription.setExpiresAt, hpast, if_true] at h
      cases h
    · simp only [Subscription.setExpiresAt, hpast, if_false] at h ⊢
      generalize hcached : w.writeMem _ = v at h ⊢
      have hmem : v.mem.subscriptions.lookup subId =
          some { sub with expiresAt := some expiresAt, updatedAt := now } := by
        rw [← hcached, writeMem_mem, AList.lookup_modify_self, hlookup, Option.map_some]
      split at h <;> rename_i hcall
      · cases h
      · rename_i v' _
        obtain ⟨hsubs, hrows⟩ := subscriptions_restoreIfRenewed (!sub.isActive now) subId now v'
        rcases dbCall_cases (Db.updateSubscription subId expiresAt (Text.trim sub.referCode)
            sub.parentId sub.scopeEnv sub.premiumToken now) v with
          ⟨⟨e, he⟩, -⟩ | ⟨db, row, hupdate, -, hdb⟩
        · rw [hcall] at he
          cases he
        · rw [hcall] at hdb
          obtain ⟨row, -, -, htable⟩ := updateSubscription_ok hupdate
          have hv' : v'.mem = v.mem := by
            rw [← dbCall_mem _ v, hcall]
          rw [ExpiresAt, hsubs, hv', hmem, hrows, hdb, htable, AList.lookup_insert]
          exact ⟨⟨_, rfl, rfl⟩, _, rfl, rfl⟩

end World

/-- The calls that set or move the expiry of a subscription. What the App Store answers
can be different at every call. -/
inductive IapEvent where
  | gateway (iap : Option AppleIapClient) (req : GatewaySubscriptionsRequest) (newSubId : Uuid)
      (now : DateTime)
  | addDays (subId : Uuid) (days : ℤ) (now : DateTime)

namespace IapState

def step (texts : IapTexts) (s : IapState) : IapEvent → IapState
  | .gateway iap req newSubId now => (s.gatewaySubscriptionsHandler texts iap req newSubId now).1
  | .addDays subId days now => { s with world := (s.world.addDays subId days now).1 }

/-- A call binds a transaction with some expiry to a subscription and sets the expiry. -/
def Binds (texts : IapTexts) (s : IapState) (event : IapEvent) (subId : Uuid)
    (expiresAt : DateTime) : Prop :=
  ∃ iap req newSubId now tx, event = .gateway (some iap) req newSubId now ∧
    checkTransaction iap req now = .ok tx ∧ tx.expiresAt = expiresAt ∧
    (s.gatewaySubscriptionsHandler texts (some iap) req newSubId now).2 = .ok subId

/-- A binding keeps the paid time: of the expiry before and that of the transaction, it
leaves at least the later. -/
def KeepsPaidTime (texts : IapTexts) (s : IapState) (event : IapEvent) : Prop :=
  ∀ subId expiresAt, s.Binds texts event subId expiresAt →
    ∀ paid, s.world.ExpiresAt subId paid → ∃ expiresAt',
      (s.step texts event).world.ExpiresAt subId expiresAt' ∧ max paid expiresAt ≤ expiresAt'

theorem Binds.expiresAt_step {texts : IapTexts} {s : IapState} {event : IapEvent} {subId : Uuid}
    {expiresAt : DateTime} (h : s.Binds texts event subId expiresAt) :
    (s.step texts event).world.ExpiresAt subId expiresAt := by
  obtain ⟨iap, req, newSubId, now, tx, rfl, htx, rfl, hok⟩ := h
  rw [step]
  unfold gatewaySubscriptionsHandler at hok ⊢
  dsimp only at hok ⊢
  rw [htx] at hok ⊢
  dsimp only at hok ⊢
  split at hok
  · cases hok
  · split at hok
    · cases hok
    · split at hok
      · cases hok
      · rename_i hset
        cases hok
        have hexpires := World.expiresAt_setSubscriptionExpiration (congrArg Prod.snd hset)
        rwa [hset] at hexpires

/-- In every run of bindings and extensions a binding leaves exactly the expiry of its
transaction, in the cache and in the table. So it keeps the paid time exactly when that
does not end later. -/
theorem bindings_set_exact_expiry (texts : IapTexts) (s₀ : IapState) (events : List IapEvent) :
    Run.Along (step texts) (fun s event =>
      (∀ subId expiresAt, s.Binds texts event subId expiresAt →
        (s.step texts event).world.ExpiresAt subId expiresAt) ∧
      (s.KeepsPaidTime texts event ↔ ∀ subId expiresAt paid, s.Binds texts event subId expiresAt →
        s.world.ExpiresAt subId paid → paid ≤ expiresAt)) s₀ events := by
  refine Run.along_of_forall (fun event _ s => ⟨fun _ _ h => h.expiresAt_step, ?_⟩) s₀
  constructor
  · intro hkeeps subId expiresAt paid hbinds hpaid
    obtain ⟨expiresAt', hafter, hle⟩ := hkeeps subId expiresAt hbinds paid hpaid
    rw [hbinds.expiresAt_step.eq hafter]
    exact (le_max_left paid expiresAt).trans hle
  · intro h subId expiresAt hbinds paid hpaid
    exact ⟨expiresAt, hbinds.expiresAt_step, max_le (h subId expiresAt paid hbinds hpaid) le_rfl⟩

/-- The App Store knows one transaction, of five days. -/
def fiveDayStore : AppleIapClient where
  getTransactionInfo _ := .ok (some "signed")
  verifyAndDecodeSignedTransaction _ := .ok ⟨some "month", none, some "1", some (5 * dayNanos)⟩
  allowedProducts := []
  environment := "Production"

def fiveDayCall : IapEvent := .gateway (some fiveDayStore) ⟨"1", none, none⟩ 7 0

/-- Thirty days are added to the subscription of the purchase, and the purchase is
restored: the thirty days are gone. -/
theorem not_bindings_keep_paid_time :
    let texts : IapTexts := ⟨id, fun _ => "", fun _ => ""⟩
    ¬ Run.Along (step texts) (KeepsPaidTime texts)
      ⟨World.init (fun _ => false) fun _ => false, ∅⟩
      [fiveDayCall, .addDays 7 30 0, fiveDayCall] := by
  intro texts h
  obtain ⟨-, -, hlast, -⟩ := h
  generalize hs : step texts (step texts _ fiveDayCall) (.addDays 7 30 0) = s at hlast
  have hok : (s.gatewaySubscriptionsHandler texts (some fiveDayStore) ⟨"1", none, none⟩ 7 0).2 =
      .ok 7 := by
    rw [← hs]
    rfl
  have hpaid : s.world.ExpiresAt 7 (35 * dayNanos) := by
    rw [← hs]
    exact ⟨⟨_, rfl, rfl⟩, _, rfl, rfl⟩
  have hbinds : s.Binds texts fiveDayCall 7 (5 * dayNanos) :=
    ⟨fiveDayStore, ⟨"1", none, none⟩, 7, 0, ⟨"1", "month", 5 * dayNanos⟩, rfl, rfl, rfl, hok⟩
  obtain ⟨expiresAt, hafter, hle⟩ := hlast 7 _ hbinds _ hpaid
  rw [← hbinds.expiresAt_step.eq hafter] at hle
  revert hle
  decide

end IapState

end Fcore
