import Fcore.Postgres.Connection
import Fcore.Postgres.Traffic
import Fcore.Sync.World

/-!
# Connection operations of the api

A deletion writes the table, publishes, and then marks the cached connection; it
does nothing to a connection the cache has as deleted already. A restoration of a
subscription's connections looks at the cached ones that are deleted, asks the
table for the reasons, and revives those whose reason allows it.

The tasks of a restoration run concurrently in the code; here they run one after
the other. They write different connections.
-/

namespace Fcore

namespace DeleteReason

def expired : String := "expired"

def manual : String := "manual"

def trafficExhausted : String := "traffic_exhausted"

def deviceKick : String := "device_kick"

end DeleteReason

/-- Whether a deleted connection may be revived. -/
def connectionRestorable (deletedReason : Option String) (usedBytes : ℤ)
    (limitBytes : Option ℤ) : Bool :=
  match deletedReason with
  | none => true
  | some reason =>
    if reason = DeleteReason.expired then true
    else if reason = DeleteReason.trafficExhausted then
      (limitBytes.map fun limit => decide (usedBytes < limit)).getD false
    else false

/-- The topic of messages about a connection. -/
def connTopic (conn : Conn) (pin : Option Uuid) : Topic :=
  if conn.proto.token.isSome then .auth
  else if !conn.proto.isMtproto then
    match pin with
    | some pin => .init pin
    | none => .updates conn.env
  else .updates conn.env

namespace Cache

/-- The cache after a connection was inserted. -/
def addConn (connId : Uuid) (conn : Conn) (label : Option String) (nodeId : Option Uuid)
    (includeInMain : Bool) (mem : Cache) : Cache :=
  { mem with
    connLabels := match label with
      | some label => AList.insert connId label mem.connLabels
      | none => mem.connLabels
    connNodes := match nodeId with
      | some nodeId => AList.insert connId nodeId mem.connNodes
      | none => mem.connNodes
    mainFeedExcludedConns :=
      if includeInMain then mem.mainFeedExcludedConns.filter fun id => id ≠ connId
      else mem.mainFeedExcludedConns.insert connId
    connections := match mem.connections.lookup connId with
      | some _ => mem.connections
      | none => AList.insert connId conn mem.connections }

/-- The cache after a connection was deleted; its label, pin and share mark go. -/
def markDeleted (connId : Uuid) (now : DateTime) (mem : Cache) : Cache :=
  { mem with
    connections := mem.connections.modify connId fun conn =>
      { conn with isDeleted := true, modifiedAt := now }
    connLabels := AList.erase connId mem.connLabels
    connNodes := AList.erase connId mem.connNodes
    shareConns := mem.shareConns.filter fun id => id ≠ connId }

def markRestored (connId : Uuid) (now : DateTime) (mem : Cache) : Cache :=
  { mem with connections := mem.connections.modify connId fun conn =>
      { conn with isDeleted := false, modifiedAt := now } }

def deletedConns (subId : Uuid) (mem : Cache) : List (Uuid × Conn × Option Uuid) :=
  (((mem.connections.getBySubscriptionId subId).getD []).filter fun c => c.2.isDeleted).map
    fun c => (c.1, c.2, mem.connNodes.lookup c.1)

def limitBytes (subId : Uuid) (mem : Cache) : Option ℤ :=
  (mem.subscriptions.lookup subId).bind Subscription.limitBytes

end Cache

namespace World

def addConn (connId : Uuid) (conn : Conn) (label : Option String) (nodeId : Option Uuid)
    (issuedVia : Option String) (includeInMain : Bool) (w : World) :
    World × Except SyncError Status :=
  let row := { ConnRow.ofConn conn with
    label := label
    nodeId := nodeId
    issuedVia := issuedVia
    includeInMain := includeInMain }
  andThen (w.dbCall (Db.insertConnection connId row)) fun w _ =>
  (w.writeMem (Cache.addConn connId conn label nodeId includeInMain), .ok (.ok connId))

/-- The row an insertion of a connection writes. -/
def newRow (conn : Conn) (label : Option String) (nodeId : Option Uuid) (issuedVia : Option String)
    (includeInMain : Bool) : ConnRow :=
  { ConnRow.ofConn conn with
    label := label
    nodeId := nodeId
    issuedVia := issuedVia
    includeInMain := includeInMain }

def publishConnDelete (connId : Uuid) (conn : Conn) (w : World) : World × Except SyncError Unit :=
  w.publish (connTopic conn (w.mem.connNodes.lookup connId)) (conn.asDeleteMessage connId)

def deleteConnection (connId : Uuid) (conn : Conn) (reason : Option String) (now : DateTime)
    (w : World) : World × Except SyncError Status :=
  match w.mem.connections.lookup connId with
  | none => (w, .ok (.notFound connId))
  | some existing =>
    if existing.isDeleted then (w, .ok (.notModified connId))
    else
      andThen (w.dbExec (Db.deleteConnection connId reason)) fun w _ =>
      andThen (w.publishConnDelete connId conn) fun w _ =>
      (w.writeMem (Cache.markDeleted connId now), .ok (.ok connId))

def restoreConnection (connId : Uuid) (now : DateTime) (w : World) :
    World × Except SyncError Status :=
  match w.mem.connections.lookup connId with
  | none => (w, .ok (.notFound connId))
  | some _ =>
    andThen (w.dbCall (Db.restoreConnection connId)) fun w _ =>
    (w.writeMem (Cache.markRestored connId now), .ok (.ok connId))

/-- One of the tasks of a restoration: nodes are told first, and a connection
nodes could not be told about is left alone. -/
def restoreOne (now : DateTime) (item : Uuid × Conn × Option Uuid) (w : World) :
    World × Option Uuid :=
  match w.publish (connTopic item.2.1 item.2.2) (item.2.1.asUpdateMessage item.1) with
  | (w, .error _) => (w, none)
  | (w, .ok ()) =>
    match w.restoreConnection item.1 now with
    | (w, .ok (.ok _)) | (w, .ok (.updated _)) => (w, some item.1)
    | (w, _) => (w, none)

/-- The tasks one after the other. -/
def restoreAll (now : DateTime) : List (Uuid × Conn × Option Uuid) → World → World × List Uuid
  | [], w => (w, [])
  | item :: items, w =>
    let one := w.restoreOne now item
    let rest := restoreAll now items one.1
    (rest.1, one.2.toList ++ rest.2)

def reasonIn (reasons : Table Uuid (Option String)) (connId : Uuid) : Option String :=
  (reasons.lookup connId).bind id

/-- The traffic of a subscription, asked for only when a reason depends on it. -/
def usedBytes (subId : Uuid) (needed : Bool) (w : World) : World × Except SyncError ℤ :=
  if needed then
    w.dbRead fun db => (db.totalForSubscription subId).1 + (db.totalForSubscription subId).2
  else (w, .ok 0)

/-- The connections a restoration picks out of the deleted ones. -/
def toRestore (reasons : Table Uuid (Option String)) (used : ℤ) (limit : Option ℤ)
    (meteredConns : Option (List String)) (deleted : List (Uuid × Conn × Option Uuid)) :
    List (Uuid × Conn × Option Uuid) :=
  deleted.filter fun item => connectionRestorable (reasonIn reasons item.1) used limit &&
    meteredConns.all fun metered => item.2.1.proto.proto.isMetered metered

theorem insertConnection_cases {connId : Uuid} {row : ConnRow} {db db' : Db}
    (h : db.insertConnection connId row = .ok (db', ())) :
    db.connections.lookup connId = none ∧
      db' = { db with connections := AList.insert connId row db.connections } := by
  unfold Db.insertConnection at h
  split_ifs at h with hstored
  cases h
  exact ⟨by simpa using hstored, rfl⟩

theorem connections_restoreConnection {connId : Uuid} {db db' : Db}
    (h : db.restoreConnection connId = .ok (db', ())) :
    db' = { db with connections := db.connections.modify connId Db.markConnRestored } := by
  unfold Db.restoreConnection at h
  split_ifs at h
  cases h
  rfl

section Outcomes

variable (connId : Uuid) (conn : Conn) (reason : Option String) (now : DateTime) (w : World)

/-- Storing and caching a new connection fails, or does both. -/
theorem addConn_eq (label : Option String) (nodeId : Option Uuid) (issuedVia : Option String)
    (includeInMain : Bool) :
    (∃ e, w.addConn connId conn label nodeId issuedVia includeInMain = (w.tick, .error e)) ∨
      ∃ db, w.db.insertConnection connId (newRow conn label nodeId issuedVia includeInMain) =
          .ok (db, ()) ∧
        w.addConn connId conn label nodeId issuedVia includeInMain =
          ({ w.tick with
            mem := w.mem.addConn connId conn label nodeId includeInMain
            db := db }, .ok (.ok connId)) := by
  unfold addConn
  dsimp only
  rw [← newRow]
  rcases dbCall_eq (Db.insertConnection connId
    (newRow conn label nodeId issuedVia includeInMain)) w with ⟨db, ⟨⟩, hinsert, h⟩ | ⟨e, h⟩
  · rw [h]
    exact .inr ⟨db, hinsert, rfl⟩
  · rw [h]
    exact .inl ⟨e, rfl⟩

/-- A deletion does nothing to a connection the cache does not have as live. Otherwise it
fails, stops after the table was written, or finishes. -/
theorem deleteConnection_eq :
    ((¬ ∃ existing, w.mem.connections.lookup connId = some existing ∧
        existing.isDeleted = false) ∧
      ∃ status, status ≠ .ok connId ∧
        w.deleteConnection connId conn reason now = (w, .ok status)) ∨
    (∃ existing, w.mem.connections.lookup connId = some existing ∧
        existing.isDeleted = false) ∧
      ((∃ e, w.deleteConnection connId conn reason now = (w.tick, .error e)) ∨
        (∃ e, w.deleteConnection connId conn reason now =
          ({ w.tick.tick with db := w.db.deleteConnection connId reason }, .error e)) ∨
        w.deleteConnection connId conn reason now =
          ({ w.tick.tick with
            mem := w.mem.markDeleted connId now
            db := w.db.deleteConnection connId reason
            bus := w.bus ++ [(connTopic conn (w.mem.connNodes.lookup connId),
              conn.asDeleteMessage connId)] }, .ok (.ok connId))) := by
  unfold deleteConnection
  cases hlookup : w.mem.connections.lookup connId with
  | none => exact .inl ⟨by simp, _, by simp, rfl⟩
  | some existing =>
    dsimp only
    cases hdeleted : existing.isDeleted with
    | true => exact .inl ⟨by simp [hdeleted], _, by simp, rfl⟩
    | false =>
      refine .inr ⟨⟨existing, rfl, hdeleted⟩, ?_⟩
      rw [if_neg (by simp), dbExec]
      rcases dbCall_eq (fun db => .ok (Db.deleteConnection connId reason db, ())) w with
        ⟨db, ⟨⟩, hdb, h⟩ | ⟨e, h⟩
      · cases hdb
        rw [h, andThen, publishConnDelete, publish]
        split_ifs
        · exact .inr (.inl ⟨.publish, rfl⟩)
        · exact .inr (.inr rfl)
      · rw [h]
        exact .inl ⟨e, rfl⟩

/-- A restoration finds no cached connection, fails, or marks the connection in both
places. -/
theorem restoreConnection_eq :
    (w.mem.connections.lookup connId = none ∧
      w.restoreConnection connId now = (w, .ok (.notFound connId))) ∨
    (∃ e, w.restoreConnection connId now = (w.tick, .error e)) ∨
    (∃ existing, w.mem.connections.lookup connId = some existing) ∧
      w.restoreConnection connId now =
        ({ w.tick with
          mem := w.mem.markRestored connId now
          db := { w.db with connections := w.db.connections.modify connId Db.markConnRestored } },
          .ok (.ok connId)) := by
  unfold restoreConnection
  cases hlookup : w.mem.connections.lookup connId with
  | none => exact .inl ⟨rfl, rfl⟩
  | some existing =>
    rcases dbCall_eq (Db.restoreConnection connId) w with ⟨db, ⟨⟩, hrestore, h⟩ | ⟨e, h⟩
    · cases connections_restoreConnection hrestore
      rw [h]
      exact .inr (.inr ⟨⟨existing, rfl⟩, rfl⟩)
    · rw [h]
      exact .inr (.inl ⟨e, rfl⟩)

end Outcomes

def restoreConnectionsBySubscription (subId : Uuid) (meteredConns : Option (List String))
    (now : DateTime) (w : World) : World × Except SyncError (List Uuid) :=
  let deleted := w.mem.deletedConns subId
  if deleted.isEmpty then (w, .ok [])
  else
    andThen (w.dbRead (Db.deletedReasonsForSubscription subId)) fun w reasons =>
    let needed := deleted.any fun item =>
      decide (reasonIn reasons item.1 = some DeleteReason.trafficExhausted)
    andThen (w.usedBytes subId needed) fun w used =>
    let restored := restoreAll now
      (toRestore reasons used (w.mem.limitBytes subId) meteredConns deleted) w
    (restored.1, .ok restored.2)

end World

end Fcore
