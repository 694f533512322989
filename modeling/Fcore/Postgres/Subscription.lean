import Fcore.Postgres.Db

/-!
# The subscription table

Extending a subscription reads the stored expiry and writes the new one under one
hold of the client. A top-up records its trace identifier and raises the limit in
one transaction, so a repeated top-up changes nothing.
-/

namespace Fcore

/-- The row of a new subscription; the times are those of the insertion. -/
def Subscription.toRow (sub : Subscription) (now : DateTime) : SubscriptionRow where
  expiresAt := sub.expiresAt
  referCode := sub.referCode
  createdAt := now
  updatedAt := now
  isDeleted := false
  parentId := sub.parentId
  scopeEnv := sub.scopeEnv.map Env.asStr
  premiumToken := sub.premiumToken
  premiumUntil := none
  planKind := sub.planKind
  serverLimit := sub.serverLimit
  userLimit := sub.userLimit
  limitBytes := sub.limitBytes
  product := sub.product

namespace Db

/-- Whether the unique premium token or the reference to a parent refuses a row. -/
def subRefused (subId : Uuid) (parentId : Option Uuid) (premiumToken : Option String) (db : Db) :
    Bool :=
  parentId.any (fun parent => decide (parent ≠ subId) && (db.subscriptions.lookup parent).isNone) ||
    (premiumToken.isSome && db.subscriptions.entries.any fun e =>
      decide (e.1 ≠ subId) && decide (e.2.premiumToken = premiumToken))

def createSubscription (sub : Subscription) (now : DateTime) (db : Db) :
    Except SyncError (Db × Unit) :=
  if (db.subscriptions.lookup sub.id).isSome then .error .constraint
  else if db.subRefused sub.id sub.parentId sub.premiumToken then .error .constraint
  else .ok ({ db with subscriptions := AList.insert sub.id (sub.toRow now) db.subscriptions }, ())

def findSubscription (subId : Uuid) (db : Db) : Option SubscriptionRow :=
  (db.subscriptions.lookup subId).filter fun row => !row.isDeleted

/-- One `UPDATE ... RETURNING` of a row that has to exist. -/
def updateSubscriptionRow (subId : Uuid) (f : SubscriptionRow → SubscriptionRow) (db : Db) :
    Except SyncError (Db × SubscriptionRow) :=
  match db.subscriptions.lookup subId with
  | none => .error .rowCount
  | some row =>
    .ok ({ db with subscriptions := AList.insert subId (f row) db.subscriptions }, f row)

def updateSubscription (subId : Uuid) (expiresAt : DateTime) (referCode : String)
    (parentId : Option Uuid) (scopeEnv : Option Env) (premiumToken : Option String)
    (now : DateTime) (db : Db) : Except SyncError (Db × SubscriptionRow) :=
  if db.subRefused subId parentId premiumToken then .error .constraint
  else db.updateSubscriptionRow subId fun row =>
    { row with
      expiresAt := some expiresAt
      updatedAt := now
      referCode := referCode
      parentId := parentId
      scopeEnv := scopeEnv.map Env.asStr
      premiumToken := premiumToken }

def extensionBase (expiresAt : Option DateTime) (now : DateTime) : DateTime :=
  match expiresAt with
  | some exp => if now < exp then exp else now
  | none => now

def addDays (subId : Uuid) (days : ℤ) (now : DateTime) (db : Db) :
    Except SyncError (Db × SubscriptionRow) :=
  db.updateSubscriptionRow subId fun row =>
    { row with
      expiresAt := some (extensionBase row.expiresAt now + days * dayNanos)
      updatedAt := now }

def deleteSubscription (subId : Uuid) (now : DateTime) (db : Db) :
    Except SyncError (Db × SubscriptionRow) :=
  db.updateSubscriptionRow subId fun row => { row with isDeleted := true, updatedAt := now }

/-- The new limit, or nothing when the trace identifier was used before. -/
def addLimitBytes (subId traceId : Uuid) (bytes : ℤ) (now : DateTime) (db : Db) :
    Except SyncError (Db × Option ℤ) :=
  if (db.trafficTopups.lookup traceId).isSome then .ok (db, none)
  else
    match db.subscriptions.lookup subId with
    | none => .error .rowCount
    | some row =>
      let limit := row.limitBytes.getD 0 + bytes
      let topped := { row with limitBytes := some limit, updatedAt := now }
      .ok ({ db with
        trafficTopups := AList.insert traceId ⟨subId, bytes⟩ db.trafficTopups
        subscriptions := AList.insert subId topped db.subscriptions }, some limit)

def OnlySubscriptions (db db' : Db) : Prop :=
  db' = { db with subscriptions := db'.subscriptions, trafficTopups := db'.trafficTopups }

theorem OnlySubscriptions.connections {db db' : Db} (h : OnlySubscriptions db db') :
    db'.connections = db.connections := by
  rw [h]

theorem OnlySubscriptions.keys {db db' : Db} (h : OnlySubscriptions db db') :
    db'.keys = db.keys := by
  rw [h]

variable {subId : Uuid} {now : DateTime} {db db' : Db}

variable {sub : Subscription} {u : Unit}

theorem createSubscription_ok (h : db.createSubscription sub now = .ok (db', u)) :
    db' = { db with subscriptions := AList.insert sub.id (sub.toRow now) db.subscriptions } := by
  unfold createSubscription at h
  split at h
  · cases h
  · split at h
    · cases h
    · cases h
      rfl

theorem createSubscription_only (h : db.createSubscription sub now = .ok (db', u)) :
    OnlySubscriptions db db' := by
  rw [createSubscription_ok h]
  rfl

theorem updateSubscriptionRow_only {f : SubscriptionRow → SubscriptionRow} {row : SubscriptionRow}
    (h : db.updateSubscriptionRow subId f = .ok (db', row)) : OnlySubscriptions db db' := by
  unfold updateSubscriptionRow at h
  split at h
  · cases h
  · cases h
    rfl

theorem updateSubscription_only {expiresAt : DateTime} {referCode : String}
    {parentId : Option Uuid} {scopeEnv : Option Env} {premiumToken : Option String}
    {row : SubscriptionRow}
    (h : db.updateSubscription subId expiresAt referCode parentId scopeEnv premiumToken now =
      .ok (db', row)) : OnlySubscriptions db db' := by
  unfold updateSubscription at h
  split at h
  · cases h
  · exact updateSubscriptionRow_only h

theorem addLimitBytes_only {traceId : Uuid} {bytes : ℤ} {limit : Option ℤ}
    (h : db.addLimitBytes subId traceId bytes now = .ok (db', limit)) :
    OnlySubscriptions db db' := by
  unfold addLimitBytes at h
  split at h
  · cases h
    rfl
  · split at h
    · cases h
    · cases h
      rfl

end Db

end Fcore
