import Fcore.Postgres.Db

/-!
# The connection table

Rows are never removed: deleting a connection sets a flag and a reason, restoring
it clears both. Three partial unique indexes range over the rows that are not
deleted, so an insertion and a restoration can be refused, and a deletion never
is.
-/

namespace Fcore

namespace ConnRow

/-- The row a connection is stored as; the label, the origin, the pin and the feed
flag are not part of the connection. -/
def ofConn (conn : Conn) : ConnRow where
  env := conn.env.asStr
  proto := conn.proto
  subscriptionId := conn.subscriptionId
  createdAt := conn.createdAt
  modifiedAt := conn.modifiedAt
  expiresAt := conn.expiresAt
  isDeleted := conn.isDeleted
  deletedReason := none
  label := none
  issuedVia := none
  nodeId := none
  includeInMain := true
  uplink := 0
  downlink := 0
  lastTrafficPersistAt := none

def isWireguardFamily (tag : Tag) : Bool :=
  tag = .wireguard || tag = .amneziaWg || tag = .amneziaWgMobile

/-- The rows the index `connections_single_proto_idx` ranges over. -/
def inSingleProtoIdx (row : ConnRow) : Bool :=
  !row.isDeleted && !isWireguardFamily row.proto.proto &&
    decide (row.issuedVia ≠ some "share") && decide (row.issuedVia ≠ some "shared_sub")

/-- The rows the index `connections_plan_single_proto_idx` ranges over. -/
def inPlanIdx (row : ConnRow) : Bool :=
  !row.isDeleted && decide (row.issuedVia = some "plan")

def sameSlot (row row' : ConnRow) : Bool :=
  row.subscriptionId.isSome && decide (row.subscriptionId = row'.subscriptionId) &&
    decide (row.env = row'.env) && decide (row.proto.proto = row'.proto.proto)

def sameToken (row row' : ConnRow) : Bool :=
  !row.isDeleted && !row'.isDeleted && row.proto.token.isSome &&
    decide (row.proto.token = row'.proto.token)

def conflicts (row row' : ConnRow) : Bool :=
  (row.inSingleProtoIdx && row'.inSingleProtoIdx && row.sameSlot row') ||
    (row.inPlanIdx && row'.inPlanIdx && row.sameSlot row') || row.sameToken row'

end ConnRow

namespace Db

def connRefused (connId : Uuid) (row : ConnRow) (db : Db) : Bool :=
  db.connections.entries.any fun e => decide (e.1 ≠ connId) && row.conflicts e.2

def insertConnection (connId : Uuid) (row : ConnRow) (db : Db) : Except SyncError (Db × Unit) :=
  if (db.connections.lookup connId).isSome then .error .constraint
  else if row.subscriptionId.any fun id => (db.subscriptions.lookup id).isNone then
    .error .constraint
  else if db.connRefused connId row then .error .constraint
  else .ok ({ db with connections := AList.insert connId row db.connections }, ())

def markConnDeleted (reason : Option String) (row : ConnRow) : ConnRow :=
  { row with isDeleted := true, deletedReason := reason }

def markConnRestored (row : ConnRow) : ConnRow :=
  { row with isDeleted := false, deletedReason := none }

def deleteConnection (connId : Uuid) (reason : Option String) (db : Db) : Db :=
  { db with connections := db.connections.modify connId (markConnDeleted reason) }

def restoreConnection (connId : Uuid) (db : Db) : Except SyncError (Db × Unit) :=
  if (db.connections.lookup connId).any fun row => db.connRefused connId (markConnRestored row) then
    .error .constraint
  else .ok ({ db with connections := db.connections.modify connId markConnRestored }, ())

def deletedReasonsForSubscription (subscriptionId : Uuid) (db : Db) :
    Table Uuid (Option String) :=
  (db.connections.filterRows fun _ row =>
    decide (row.subscriptionId = some subscriptionId) && row.isDeleted).mapRows
      fun _ row => row.deletedReason

end Db

end Fcore
