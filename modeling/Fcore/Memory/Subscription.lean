import Fcore.Memory.Node

/-!
# Subscriptions and keys

A subscription pays for connections either with time (`expiresAt`) or with
traffic (`limitBytes`). Every method that asks for the time of day receives it
as the argument `now`.
-/

namespace Fcore

def dayNanos : ℤ := 86400 * 1000000000

inductive PlanKind where
  | standard
  | lite
  | premium
  | selfhosted
  deriving DecidableEq, Repr

inductive Product where
  | standard
  | gaming
  | bsPrem
  | standardGaming
  | standardBsPrem
  | full
  deriving DecidableEq, Repr

namespace Product

def asStr : Product → String
  | standard => "standard"
  | gaming => "gaming"
  | bsPrem => "bs-prem"
  | standardGaming => "standard-gaming"
  | standardBsPrem => "standard-bs-prem"
  | full => "full"

def includesStandard : Product → Bool
  | standard | standardGaming | standardBsPrem | full => true
  | gaming | bsPrem => false

def extraEnvs : Product → List Env
  | standard => []
  | gaming => [.gaming]
  | bsPrem => [.bsPrem]
  | standardGaming => [.gaming]
  | standardBsPrem => [.bsPrem]
  | full => [.gaming, .bsPrem]

end Product

structure Subscription where
  id : Uuid
  expiresAt : Option DateTime
  referCode : String
  createdAt : DateTime
  updatedAt : DateTime
  isDeleted : Bool
  parentId : Option Uuid
  scopeEnv : Option Env
  premiumToken : Option String
  premiumUntil : Option DateTime
  planKind : PlanKind
  serverLimit : ℤ
  userLimit : ℤ
  limitBytes : Option ℤ
  product : Product
  deriving DecidableEq, Repr

namespace Subscription

def defaultServerLimit : ℤ := 3

def defaultUserLimit : ℤ := 20

def new (id : Uuid) (refCode : String) (expAt : Option DateTime)
    (limitBytes : Option ℤ) (now : DateTime) : Subscription where
  id := id
  expiresAt := expAt
  referCode := refCode
  createdAt := now
  updatedAt := now
  isDeleted := false
  parentId := none
  scopeEnv := none
  premiumToken := none
  premiumUntil := none
  planKind := .standard
  serverLimit := defaultServerLimit
  userLimit := defaultUserLimit
  limitBytes := limitBytes
  product := .standard

def newLite (id : Uuid) (refCode : String) (limitBytes : ℤ) (now : DateTime) :
    Subscription :=
  { new id refCode none (some limitBytes) now with planKind := .lite }

/-- A user of a selfhosted account; it hosts nothing and has no users of its own. -/
def newUserChild (id : Uuid) (refCode : String) (parentId : Uuid) (now : DateTime) :
    Subscription :=
  { new id refCode none none now with
    parentId := some parentId
    planKind := .selfhosted
    serverLimit := 0
    userLimit := 0 }

def withProduct (sub : Subscription) (product : Product) : Subscription :=
  { sub with product := product }

def isActive (sub : Subscription) (now : DateTime) : Bool :=
  !sub.isDeleted && sub.expiresAt.all fun expiresAt => decide (now < expiresAt)

def timeExpired (sub : Subscription) (now : DateTime) : Bool :=
  sub.expiresAt.any fun expiresAt => decide (expiresAt ≤ now)

def remainingBytes (sub : Subscription) (usedBytes : ℤ) : Option ℤ :=
  sub.limitBytes.map fun limit => limit - usedBytes

/-- The paid time is over and bytes are left; never while the mode is off. -/
def trafficMode (sub : Subscription) (trafficModeEnabled : Bool) (usedBytes : ℤ)
    (now : DateTime) : Bool :=
  trafficModeEnabled && sub.timeExpired now &&
    (sub.remainingBytes usedBytes).any fun remaining => decide (0 < remaining)

/-- Activity that counts bytes as well as time. -/
def isActiveWithTraffic (sub : Subscription) (trafficModeEnabled : Bool) (usedBytes : ℤ)
    (now : DateTime) : Bool :=
  if !trafficModeEnabled then sub.isActive now
  else if sub.isDeleted then false
  else if sub.expiresAt.any fun expiresAt => decide (now < expiresAt) then true
  else
    match sub.remainingBytes usedBytes with
    | some remaining => decide (0 < remaining)
    | none => sub.expiresAt.isNone

/-- Where an extension starts: at the present expiry while it lies in the
future, otherwise now. -/
def extensionBase (sub : Subscription) (now : DateTime) : DateTime :=
  match sub.expiresAt with
  | some exp => if now < exp then exp else now
  | none => now

def extend (sub : Subscription) (days : ℤ) (now : DateTime) : Subscription :=
  { sub with
    expiresAt := some (sub.extensionBase now + days * dayNanos)
    updatedAt := now }

/-- An expiry that is not in the future is refused. -/
def setExpiresAt (sub : Subscription) (expiresAt now : DateTime) :
    Except String Subscription :=
  if expiresAt ≤ now then
    .error "Expiration date must be in the future"
  else
    .ok { sub with expiresAt := some expiresAt, updatedAt := now }

def setLimitBytes (sub : Subscription) (bytes : ℤ) : Subscription :=
  { sub with limitBytes := some bytes }

end Subscription

abbrev Subscriptions := Table Uuid Subscription

namespace Subscriptions

def add (subs : Subscriptions) (newSub : Subscription) : Subscriptions × Status :=
  match subs.lookup newSub.id with
  | some existing =>
    if existing = newSub then (subs, .alreadyExist newSub.id)
    else (subs.modify newSub.id fun _ => newSub, .updated newSub.id)
  | none => (AList.insert newSub.id newSub subs, .ok newSub.id)

def update (subs : Subscriptions) (sub : Subscription) : Subscriptions :=
  AList.insert sub.id sub subs

end Subscriptions

inductive KeyKind where
  | standard
  | lite
  deriving DecidableEq, Repr

structure Key where
  id : Uuid
  code : String
  days : ℤ
  activated : Bool
  subscriptionId : Option Uuid
  modifiedAt : DateTime
  kind : KeyKind
  trafficBytes : Option ℤ
  product : Product
  deriving DecidableEq, Repr

/-- The state every request reads and writes under one lock. -/
structure Cache where
  connections : Connections
  subscriptions : Subscriptions
  nodes : Nodes
  connLabels : Table Uuid String
  shareConns : List Uuid
  connNodes : Table Uuid Uuid
  mainFeedNodes : List Uuid
  mainFeedExcludedConns : List Uuid

namespace Cache

def empty : Cache where
  connections := ∅
  subscriptions := ∅
  nodes := ∅
  connLabels := ∅
  shareConns := []
  connNodes := ∅
  mainFeedNodes := []
  mainFeedExcludedConns := []

end Cache

end Fcore
