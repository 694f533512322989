import Fcore.Lib.Table
import Fcore.Memory.Env

/-!
# Connections

A connection is one credential of a client: a protocol with its key material,
the environment whose nodes accept it, and the subscription that pays for it. A
connection is never removed from the cache; it is marked deleted and may be
revived later, so `isDeleted` is the field all life-cycle results speak about.

Nodes learn about connections from messages. The three message builders of the
source differ in the action only.
-/

namespace Fcore

inductive Tag where
  | vlessTcpReality
  | vlessGrpcReality
  | vlessXhttpReality
  | vlessXhttpCdn
  | vmess
  | shadowsocks
  | wireguard
  | amneziaWg
  | hysteria2
  | mtproto
  | amneziaWgMobile
  deriving DecidableEq, Repr

namespace Tag

def toText : Tag → String
  | vlessTcpReality => "VlessTcpReality"
  | vlessGrpcReality => "VlessGrpcReality"
  | vlessXhttpReality => "VlessXhttpReality"
  | vlessXhttpCdn => "VlessXhttpCdn"
  | vmess => "Vmess"
  | shadowsocks => "Shadowsocks"
  | wireguard => "Wireguard"
  | amneziaWg => "AmneziaWg"
  | hysteria2 => "Hysteria2"
  | mtproto => "Mtproto"
  | amneziaWgMobile => "AmneziaWgMobile"

theorem toText_injective : Function.Injective toText := by
  intro tag tag' h
  cases tag <;> cases tag' <;> first | rfl | exact absurd h (by decide)

/-- Whether the protocol may be used while a subscription runs on its traffic
balance. The configuration lists such protocols by name. -/
def isMetered (tag : Tag) (meteredConns : List String) : Bool :=
  meteredConns.any fun name => name = tag.toText

end Tag

inductive IpAddr where
  | v4 (bits : BitVec 32)
  | v6 (bits : BitVec 128)
  deriving DecidableEq, Repr

structure IpAddrMask where
  address : IpAddr
  cidr : UInt8
  deriving DecidableEq, Repr

structure Keys where
  privkey : String
  deriving DecidableEq, Repr

structure WgParam where
  keys : Keys
  address : IpAddrMask
  deriving DecidableEq, Repr

inductive Proto where
  | wireguard (param : WgParam)
  | amneziaWg (param : WgParam)
  | shadowsocks (password : String)
  | xray (tag : Tag)
  | hysteria2 (token : Uuid)
  | mtproto (secret : String)
  | amneziaWgMobile (param : WgParam)
  deriving DecidableEq, Repr

namespace Proto

def proto : Proto → Tag
  | wireguard _ => .wireguard
  | amneziaWg _ => .amneziaWg
  | amneziaWgMobile _ => .amneziaWgMobile
  | shadowsocks _ => .shadowsocks
  | hysteria2 _ => .hysteria2
  | xray tag => tag
  | mtproto _ => .mtproto

/-- Not the tag of that name: a stored connection is read back as `xray`. -/
def isMtproto : Proto → Bool
  | mtproto _ => true
  | _ => false

def token : Proto → Option Uuid
  | hysteria2 token => some token
  | _ => none

def password : Proto → Option String
  | shadowsocks password => some password
  | _ => none

def wg : Proto → Option WgParam
  | wireguard param => some param
  | amneziaWg param => some param
  | amneziaWgMobile param => some param
  | _ => none

end Proto

structure Conn where
  env : Env
  proto : Proto
  subscriptionId : Option Uuid
  createdAt : DateTime
  modifiedAt : DateTime
  expiresAt : Option DateTime
  isDeleted : Bool
  deriving DecidableEq, Repr

inductive Action where
  | create
  | update
  | delete
  | resetStat
  deriving DecidableEq, Repr

structure Message where
  connId : Uuid
  action : Action
  tag : Tag
  wg : Option WgParam
  password : Option String
  token : Option Uuid
  expiresAt : Option DateTime
  subscriptionId : Option Uuid
  deriving DecidableEq, Repr

namespace Conn

def new (env : Env) (subscriptionId : Option Uuid) (proto : Proto)
    (expiresAt : Option DateTime) (now : DateTime) : Conn where
  env := env
  createdAt := now
  modifiedAt := now
  expiresAt := expiresAt
  proto := proto
  subscriptionId := subscriptionId
  isDeleted := false

def getWireguard (conn : Conn) : Option WgParam :=
  match conn.proto with
  | .wireguard param => some param
  | _ => none

def getAmneziawg (conn : Conn) : Option WgParam :=
  match conn.proto with
  | .amneziaWg param => some param
  | .amneziaWgMobile param => some param
  | _ => none

/-- What nodes are told about a connection. -/
def asMessage (action : Action) (conn : Conn) (connId : Uuid) : Message where
  connId := connId
  subscriptionId := conn.subscriptionId
  action := action
  password := conn.proto.password
  token := conn.proto.token
  tag := conn.proto.proto
  wg := conn.proto.wg
  expiresAt := conn.expiresAt

def asCreateMessage (conn : Conn) (connId : Uuid) : Message :=
  conn.asMessage .create connId

def asUpdateMessage (conn : Conn) (connId : Uuid) : Message :=
  conn.asMessage .update connId

def asDeleteMessage (conn : Conn) (connId : Uuid) : Message :=
  conn.asMessage .delete connId

end Conn

abbrev Connections := Table Uuid Conn

namespace Connections

/-- The connections of a subscription, in the order of a scan. An empty result
is `none`. -/
def getBySubscriptionId (connections : Connections) (subscriptionId : Uuid) :
    Option (List (Uuid × Conn)) :=
  let conns := (connections.entries.filter fun e =>
    decide (e.2.subscriptionId = some subscriptionId)).map fun e => (e.1, e.2)
  if conns.isEmpty then none else some conns

theorem getBySubscriptionId_getD (connections : Connections) (subscriptionId : Uuid) :
    (connections.getBySubscriptionId subscriptionId).getD [] =
      (connections.entries.filter fun e =>
        decide (e.2.subscriptionId = some subscriptionId)).map fun e => (e.1, e.2) := by
  unfold getBySubscriptionId
  dsimp only
  split
  · rename_i hempty
    exact (List.isEmpty_iff.mp hempty).symm
  · rfl

theorem mem_getBySubscriptionId {connections : Connections} {subscriptionId : Uuid}
    {item : Uuid × Conn} : item ∈ (connections.getBySubscriptionId subscriptionId).getD [] ↔
      connections.lookup item.1 = some item.2 ∧ item.2.subscriptionId = some subscriptionId := by
  rw [getBySubscriptionId_getD, List.mem_map, ← AList.mem_entries_iff]
  simp only [List.mem_filter, decide_eq_true_eq]
  constructor
  · rintro ⟨e, h, rfl⟩
    exact h
  · intro h
    exact ⟨⟨item.1, item.2⟩, h, rfl⟩

end Connections

inductive Topic where
  | auth
  | metrics
  | entries
  | updates (env : Env)
  | init (id : Uuid)
  deriving DecidableEq, Repr

end Fcore
