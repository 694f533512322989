import Fcore.Entitlements
import Fcore.Http.Reply
import Fcore.Lib.Interleave
import Fcore.Postgres.Key
import Fcore.Sync.Subscription

/-!
# Key activation

An activation request reads the key, grants what the key is worth to a subscription,
and marks the key at the end. Each of these waits for the database or for a lock, so
other requests run in between. The handler is a machine that stops at every such
point; `activate` takes it from one to the next. A restoration of connections has
many of them and is one step here, since it writes neither keys nor subscriptions.

Next to the state the machine keeps a list of what was granted, entered together with
the write that grants it.
-/

namespace Fcore

structure ActivateKeyReq where
  code : String
  subscriptionId : Option Uuid
  limitBytes : Option ℤ
  /-- The identifier drawn for a new subscription. -/
  newId : Uuid
  deriving DecidableEq, Repr

def Key.value (key : Key) : ℤ :=
  match key.kind with
  | .standard => key.days
  | .lite => key.trafficBytes.getD 0

def KeyKind.planKind : KeyKind → PlanKind
  | .standard => .standard
  | .lite => .lite

/-- The subscription an activation creates. Days are not set here: they are added to
it afterwards, as to any other. -/
def ActivateKeyReq.newSubscription (req : ActivateKeyReq) (key : Key) (now : DateTime) :
    Subscription :=
  match key.kind with
  | .lite => .newLite req.newId (getUuidLastOctetSimple req.newId) (key.trafficBytes.getD 0) now
  | .standard => (Subscription.new req.newId (getUuidLastOctetSimple req.newId) none
      req.limitBytes now).withProduct key.product

inductive Store where
  | cache
  | table
  deriving DecidableEq, Repr

structure Grant where
  store : Store
  subscriptionId : Uuid
  amount : ℤ
  deriving DecidableEq, Repr

/-- Where a request waits, with what it holds in its local variables. -/
inductive Stage where
  /-- for the key -/
  | start
  /-- for the subscription it names, to compare the products -/
  | loaded (key : Key) (existing : Uuid)
  /-- for the row of a new subscription -/
  | creating (key : Key)
  /-- for the lock, to enter the new subscription into the cache -/
  | created (key : Key) (sub : Subscription)
  /-- for the top-up of a lite key, or for the lock, to look at the subscription -/
  | ready (key : Key) (subId : Uuid)
  /-- for the lock, to extend the cached subscription -/
  | extending (key : Key) (subId : Uuid) (wasInactive : Bool)
  /-- for the row to be extended -/
  | extended (key : Key) (subId : Uuid) (wasInactive : Bool)
  /-- for the lock, to enter the new limit into the cache -/
  | topped (key : Key) (subId : Uuid) (limit : ℤ)
  /-- for the connections of the renewed subscription -/
  | restoring (key : Key) (subId : Uuid)
  /-- for the key to be marked -/
  | marking (key : Key) (subId : Uuid)
  | done (reply : Reply)
  deriving DecidableEq

structure KeyService where
  resolver : ConnResolver
  describe : SyncError → String

namespace KeyService

variable (service : KeyService)

/-- After the key was read. -/
def afterKey (req : ActivateKeyReq) (key : Option Key) : Stage :=
  match key with
  | none => .done (.notFound "Key not found")
  | some key =>
    if key.activated then .done (.badRequest "Key already activated")
    else
      match service.resolver.resolve key.kind.planKind key.product with
      | .error e => .done (.internalError ("Activation is not configured: " ++ e.toText))
      | .ok _ =>
        match req.subscriptionId with
        | some existing => .loaded key existing
        | none => .creating key

/-- After the subscription was looked up: one of another product is refused. -/
def checkProduct (key : Key) (existing : Uuid) (found : Option SubscriptionRow) : Stage :=
  match found with
  | some row =>
    if row.product ≠ key.product then
      .done (.conflict ("Key product '" ++ key.product.asStr ++
        "' does not match subscription product '" ++ row.product.asStr ++
        "'. Renew only with the same product, or activate the key as a new subscription."))
    else .ready key existing
  | none => .ready key existing

/-- From one point of suspension to the next. -/
def activate (now : DateTime) (req : ActivateKeyReq) (stage : Stage) (w : World) :
    World × Stage × List Grant :=
  match stage with
  | .start =>
    match w.dbRead (Db.getKey req.code) with
    | (w, .error _) => (w, service.afterKey req none, [])
    | (w, .ok key) => (w, service.afterKey req key, [])
  | .loaded key existing =>
    match w.dbRead (Db.findSubscription existing) with
    | (w, .error _) => (w, .done (.internalError "Failed to load subscription"), [])
    | (w, .ok found) => (w, checkProduct key existing found, [])
  | .creating key =>
    let sub := req.newSubscription key now
    match w.dbCall (Db.createSubscription sub now) with
    | (w, .error e) =>
      (w, .done (.badRequest ("Failed to create subscription: " ++ service.describe e)), [])
    | (w, .ok ()) => (w, .created key sub,
        if key.kind = .lite then [⟨.table, sub.id, key.trafficBytes.getD 0⟩] else [])
  | .created key sub =>
    let w := w.writeMem (Cache.addSub sub)
    match key.kind with
    | .lite => (w, .marking key sub.id, [⟨.cache, sub.id, key.trafficBytes.getD 0⟩])
    | .standard => (w, .ready key sub.id, [])
  | .ready key subId =>
    match key.kind with
    | .lite =>
      match w.dbCall (Db.addLimitBytes subId key.id (key.trafficBytes.getD 0) now) with
      | (w, .error e) =>
        (w, .done (.badRequest ("Failed to add days: " ++ service.describe e)), [])
      | (w, .ok none) => (w, .done (.notModified ""), [])
      | (w, .ok (some limit)) =>
        (w, .topped key subId limit, [⟨.table, subId, key.trafficBytes.getD 0⟩])
    | .standard => (w, .extending key subId
        ((w.mem.subscriptions.lookup subId).any fun sub => !sub.isActive now), [])
  | .extending key subId wasInactive =>
    match w.mem.subscriptions.lookup subId with
    | none => (w, .done (.notFound "Subscription not found"), [])
    | some _ => (w.writeMem (Cache.extendSub subId key.days now),
        .extended key subId wasInactive, [⟨.cache, subId, key.days⟩])
  | .extended key subId wasInactive =>
    match w.dbCall (Db.addDays subId key.days now) with
    | (w, .error e) =>
      (w, .done (.badRequest ("Failed to add days: " ++ service.describe e)), [])
    | (w, .ok _) => (w, if wasInactive then .restoring key subId else .marking key subId,
        [⟨.table, subId, key.days⟩])
  | .topped key subId limit => (w.writeMem (Cache.setLimitBytes subId limit), .marking key subId,
      if (w.mem.subscriptions.lookup subId).isSome then
        [⟨.cache, subId, key.trafficBytes.getD 0⟩] else [])
  | .restoring key subId =>
    ((w.restoreConnectionsBySubscription subId none now).1, .marking key subId, [])
  | .marking key subId =>
    match w.dbExec (Db.activateKey key.id subId now) with
    | (w, .error e) =>
      (w, .done (.badRequest ("Key activation failed: " ++ service.describe e)), [])
    | (w, .ok ()) => (w, .done (.success ("Key " ++ key.id.toText ++ " activated")), [])
  | .done reply => (w, .done reply, [])

end KeyService

end Fcore
