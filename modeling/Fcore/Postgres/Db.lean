import Fcore.Memory.Subscription

/-!
# The database

PostgreSQL is a record of keyed tables. A statement is a function on the record;
a transaction is one function, because each call of the storage layer holds the
single client for its whole length. A statement that violates a constraint
returns an error and leaves the record as it was.

Columns that hold a JSON or text encoding of a typed value are kept as that
value, with two exceptions: the environment column stays text, since queries
compare it as text, and an inbound is kept column by column, since its settings
share some of them.
-/

namespace Fcore

inductive Period where
  | day
  | month
  deriving DecidableEq, Repr

structure ConnRow where
  env : String
  proto : Proto
  subscriptionId : Option Uuid
  createdAt : DateTime
  modifiedAt : DateTime
  expiresAt : Option DateTime
  isDeleted : Bool
  deletedReason : Option String
  label : Option String
  issuedVia : Option String
  nodeId : Option Uuid
  includeInMain : Bool
  uplink : ℤ
  downlink : ℤ
  lastTrafficPersistAt : Option DateTime
  deriving DecidableEq

structure TrafficKey where
  connectionId : Uuid
  period : Period
  bucket : DateTime
  deriving DecidableEq

structure TrafficRow where
  subscriptionId : Uuid
  env : String
  uplinkBytes : ℤ
  downlinkBytes : ℤ
  deriving DecidableEq

structure SubscriptionRow where
  expiresAt : Option DateTime
  referCode : String
  createdAt : DateTime
  updatedAt : DateTime
  isDeleted : Bool
  parentId : Option Uuid
  scopeEnv : Option String
  premiumToken : Option String
  premiumUntil : Option DateTime
  planKind : PlanKind
  serverLimit : ℤ
  userLimit : ℤ
  limitBytes : Option ℤ
  product : Product
  deriving DecidableEq

structure NodeRow where
  env : String
  hostname : String
  address : Ipv4Addr
  status : NodeStatus
  createdAt : DateTime
  modifiedAt : DateTime
  label : String
  interface : String
  cores : ℕ
  maxBandwidthBps : ℤ
  country : String
  nodeType : NodeType
  cluster : Option String
  nodeIps : Option (List Ipv4Addr)
  pool : Option String
  poolTranslation : Option (Table String String)
  nodeWeights : Table String ℤ
  deriving DecidableEq

/-- The columns of an inbound beside its key. An address is what its text reads as. -/
structure InboundRow where
  port : Int32
  streamSettings : Option StreamSettings
  wgPrivkey : Option String
  wgInterface : Option String
  wgAddress : Option IpAddrMask
  dns : Option (List IpAddr)
  h2 : Option H2Settings
  mtprotoSecret : Option String
  awgPrivkey : Option String
  awgInterface : Option String
  awgAddress : Option IpAddrMask
  awgDns : Option (List IpAddr)
  awgMtu : Option Int16
  awgObfuscation : Option AwgObfuscationParams
  keepalive : Option Int32
  deriving DecidableEq

structure InstallTokenRow where
  subscriptionId : Uuid
  scopeEnv : String
  createdAt : DateTime
  expiresAt : DateTime
  usedAt : Option DateTime
  revokedAt : Option DateTime
  deriving DecidableEq

structure ShareTokenRow where
  subscriptionId : Uuid
  connectionId : Uuid
  nodeId : Option Uuid
  sourceConnectionId : Option Uuid
  kind : String
  label : String
  createdAt : DateTime
  lastUsedAt : Option DateTime
  revokedAt : Option DateTime
  deriving DecidableEq

structure TopupRow where
  subscriptionId : Uuid
  bytes : ℤ
  deriving DecidableEq

/-- The tables. A node's row carries its identifier twice, as `id` and as
`uuid`, and every caller writes the same value to both, so one key stands for
the two columns. Access tokens are keyed by the node, whose column is unique. -/
structure Db where
  connections : Table Uuid ConnRow
  connectionTraffic : Table TrafficKey TrafficRow
  subscriptions : Table Uuid SubscriptionRow
  trafficTopups : Table Uuid TopupRow
  keys : Table Uuid Key
  nodes : Table Uuid NodeRow
  inbounds : Table (Uuid × Tag) InboundRow
  installTokens : Table String InstallTokenRow
  nodeAccessTokens : Table Uuid String
  shareTokens : Table String ShareTokenRow
  privateNodeFeed : List Uuid

namespace Db

def empty : Db where
  connections := ∅
  connectionTraffic := ∅
  subscriptions := ∅
  trafficTopups := ∅
  keys := ∅
  nodes := ∅
  inbounds := ∅
  installTokens := ∅
  nodeAccessTokens := ∅
  shareTokens := ∅
  privateNodeFeed := []

end Db

/-- Why a call failed: the database could not be reached, a constraint refused
the statement, a row a statement needs is not there, a message was not published,
or a cached record lacks what the operation needs. -/
inductive SyncError where
  | database
  | constraint
  | rowCount
  | publish
  | inconsistentState
  deriving DecidableEq, Repr

end Fcore
