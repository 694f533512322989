import Fcore.Postgres.Subscription
import Fcore.Sync.Life

/-!
# Subscription operations of the api

An update writes the table before the cache, an extension by days writes the cache
before the table, and a top-up asks the table for the new limit. An operation that
turns an inactive subscription active revives its connections afterwards; whether
that worked does not show in the answer.
-/

namespace Fcore

structure SubReq where
  days : Option ℤ
  referCode : Option String
  limitBytes : Option ℤ
  deriving DecidableEq, Repr

/-- A subscription with the requested changes. -/
def Subscription.withReq (sub : Subscription) (req : SubReq) (now : DateTime) : Subscription :=
  let sub := match req.days with
    | some days => sub.extend days now
    | none => sub
  let sub := match req.referCode with
    | some code => { sub with referCode := code }
    | none => sub
  match req.limitBytes with
  | some limit => sub.setLimitBytes limit
  | none => sub

namespace Cache

def addSub (sub : Subscription) (mem : Cache) : Cache :=
  { mem with subscriptions := (mem.subscriptions.add sub).1 }

def updateSub (sub : Subscription) (mem : Cache) : Cache :=
  { mem with subscriptions := mem.subscriptions.update sub }

/-- The cached expiry moved by some days; a new expiry that does not lie in the
future is dropped. -/
def extendSub (subId : Uuid) (days : ℤ) (now : DateTime) (mem : Cache) : Cache :=
  { mem with subscriptions := mem.subscriptions.modify subId fun sub =>
      match sub.setExpiresAt (sub.extensionBase now + days * dayNanos) now with
      | .ok sub => sub
      | .error _ => sub }

def setLimitBytes (subId : Uuid) (limit : ℤ) (mem : Cache) : Cache :=
  { mem with subscriptions := mem.subscriptions.modify subId fun sub => sub.setLimitBytes limit }

end Cache

namespace World

def addSub (sub : Subscription) (now : DateTime) (w : World) : World × Except SyncError Status :=
  andThen (w.dbCall (Db.createSubscription sub now)) fun w _ =>
  (w.writeMem (Cache.addSub sub), .ok (w.mem.subscriptions.add sub).2)

/-- The restoration after a renewal. A failure is logged only. -/
def restoreIfRenewed (renewed : Bool) (subId : Uuid) (now : DateTime) (w : World) : World :=
  if renewed then (w.restoreConnectionsBySubscription subId none now).1 else w

/-- The part of an update that follows the computation of the new subscription. -/
def storeUpdated (subId : Uuid) (sub updated : Subscription) (now : DateTime) (w : World) :
    World × Except SyncError Status :=
  match updated.expiresAt with
  | none => (w, .error .inconsistentState)
  | some expiresAt =>
    andThen (w.dbCall (Db.updateSubscription subId expiresAt (Text.trim updated.referCode)
      updated.parentId updated.scopeEnv updated.premiumToken now)) fun w _ =>
    ((w.writeMem (Cache.updateSub updated)).restoreIfRenewed
      (!sub.isActive now && updated.isActive now) subId now, .ok (.updated subId))

def updateSub (subId : Uuid) (req : SubReq) (now : DateTime) (w : World) :
    World × Except SyncError Status :=
  match w.mem.subscriptions.lookup subId with
  | none => (w, .ok (.notFound subId))
  | some sub =>
    w.storeUpdated subId sub (sub.withReq req now) now

def addDays (subId : Uuid) (days : ℤ) (now : DateTime) (w : World) :
    World × Except SyncError Status :=
  match w.mem.subscriptions.lookup subId with
  | none => (w, .ok (.notFound subId))
  | some sub =>
    andThen ((w.writeMem (Cache.extendSub subId days now)).dbCall
      (Db.addDays subId days now)) fun w _ =>
    (w.restoreIfRenewed (!sub.isActive now) subId now, .ok (.updated subId))

def addLimitBytes (subId : Uuid) (bytes : ℤ) (traceId : Uuid) (now : DateTime) (w : World) :
    World × Except SyncError Status :=
  andThen (w.dbCall (Db.addLimitBytes subId traceId bytes now)) fun w newLimit =>
  match newLimit with
  | none => (w, .ok (.alreadyExist subId))
  | some limit => (w.writeMem (Cache.setLimitBytes subId limit), .ok (.updated subId))

section Lives

theorem LivesFollow.restoreIfRenewed (renewed : Bool) (subId : Uuid) (now : DateTime) (w : World) :
    LivesFollow w (w.restoreIfRenewed renewed subId now) := by
  unfold World.restoreIfRenewed
  split
  · exact .restoreConnectionsBySubscription subId none now w
  · exact .refl w

theorem LivesFollow.addSub (sub : Subscription) (now : DateTime) (w : World) :
    LivesFollow w (w.addSub sub now).1 :=
  .andThen (.dbCall fun _ _ h => (Db.createSubscription_only h).connections) fun _ => .writeMem rfl

theorem LivesFollow.updateSub (subId : Uuid) (req : SubReq) (now : DateTime) (w : World) :
    LivesFollow w (w.updateSub subId req now).1 := by
  unfold World.updateSub
  split
  · exact .refl w
  · unfold World.storeUpdated
    split
    · exact .refl w
    · refine .andThen (.dbCall fun _ _ h => (Db.updateSubscription_only h).connections) fun _ => ?_
      exact (LivesFollow.writeMem rfl).trans (.restoreIfRenewed _ subId now _)

theorem LivesFollow.addDays (subId : Uuid) (days : ℤ) (now : DateTime) (w : World) :
    LivesFollow w (w.addDays subId days now).1 := by
  unfold World.addDays
  split
  · exact .refl w
  · refine .andThen ?_ fun _ => .restoreIfRenewed _ subId now _
    exact (LivesFollow.writeMem rfl).trans
      (.dbCall fun _ _ h => (Db.updateSubscriptionRow_only h).connections)

theorem LivesFollow.addLimitBytes (subId : Uuid) (bytes : ℤ) (traceId : Uuid) (now : DateTime)
    (w : World) : LivesFollow w (w.addLimitBytes subId bytes traceId now).1 := by
  refine .andThen (.dbCall fun _ _ h => (Db.addLimitBytes_only h).connections) fun newLimit => ?_
  cases newLimit with
  | none => exact .refl _
  | some limit => exact .writeMem rfl

end Lives

end World

end Fcore
