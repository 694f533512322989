import Fcore.Lib.Run
import Fcore.Lib.Table
import Fcore.Memory.Connection

/-!
# What a node does with a message

A node holds its connections in memory and serves them through backends: one interface
per protocol of the WireGuard family, and Xray for the others. A message about a
connection concerns one `Cell`: the connection in memory, its peer on the interface, its
user in Xray and its counters. Its handler reads and writes that cell only.

Handlers run side by side, so a handler is taken apart where it waits: for the answer of
Xray, and for the memory, which several handlers write. Between two such points it runs
alone. Netlink calls are synchronous. Every backend call may fail, and `Backend` says which
calls do and with which text. The public key of a connection is derived from its private
key; the derivation is a parameter, and what it yields is taken to decode.
-/

namespace Fcore

namespace NodeTasks

/-- The interfaces of the WireGuard family, `wg0`, `awg0` and `awg1`. -/
inductive Iface where
  | wg
  | awg
  | awgMobile
  deriving DecidableEq, Repr

def iface : Tag → Option Iface
  | .wireguard => some .wg
  | .amneziaWg => some .awg
  | .amneziaWgMobile => some .awgMobile
  | _ => none

/-- A connection as a node stores it. -/
structure Base where
  createdAt : DateTime
  modifiedAt : DateTime
  expiresAt : Option DateTime
  proto : Proto
  subscriptionId : Option Uuid
  isDeleted : Bool
  deriving DecidableEq, Repr

def Base.new (proto : Proto) (expiresAt : Option DateTime) (subscriptionId : Option Uuid)
    (now : DateTime) : Base where
  createdAt := now
  modifiedAt := now
  expiresAt := expiresAt
  proto := proto
  subscriptionId := subscriptionId
  isDeleted := false

inductive NodeError where
  | custom (msg : String)
  | grpc (status : String)
  deriving DecidableEq, Repr

structure Counters where
  downlink : ℕ
  uplink : ℕ
  online : ℕ
  deriving DecidableEq, Repr

structure State where
  memory : Table Uuid Base
  peers : Table (Iface × String) IpAddrMask
  users : Table (Tag × Uuid) (Option String)
  counters : Uuid → Counters

structure Setup where
  clients : Iface → Bool
  handlerClient : Bool
  pubkey : Keys → Except String String

/-- How the backend calls of a handler end: the text of the error, if any. -/
structure Backend where
  read : Option String
  add : Option String
  remove : Option String
  call : Option String
  statFails : Bool × Bool × Bool
  now : DateTime
  deriving DecidableEq, Repr

structure Cell where
  conn : Option Base
  peer : Option IpAddrMask
  user : Option (Option String)
  counters : Counters
  deriving DecidableEq, Repr

def Cell.addConn (conn : Base) (c : Cell) : Cell := { c with conn := c.conn.or (some conn) }

def Cell.removeConn (c : Cell) : Cell := { c with conn := none }

/-! ### Handlers -/

/-- A handler and where it waits: before its first step, for the memory after it has
removed a peer, for the answer of Xray, for the memory after the answer. -/
inductive Handler where
  | start (msg : Message)
  | removed (msg : Message)
  | called (msg : Message)
  | replied (msg : Message)
  | done (msg : Message) (result : Except NodeError Unit)
  deriving DecidableEq

namespace Handler

def msg : Handler → Message
  | start msg => msg
  | removed msg => msg
  | called msg => msg
  | replied msg => msg
  | done msg _ => msg

def isDone : Handler → Bool
  | done _ _ => true
  | _ => false

end Handler

section Steps

variable (setup : Setup) (b : Backend)

def createWireguard (msg : Message) (c : Cell) : Except NodeError Unit × Cell :=
  match msg.wg with
  | none => (.error (.custom "Missing WireGuard keys"), c)
  | some wg =>
    let c := c.addConn (.new (.wireguard wg) msg.expiresAt msg.subscriptionId b.now)
    if setup.clients .wg then
      match setup.pubkey wg.keys with
      | .error _ => (.ok (), c)
      | .ok _ =>
        -- an interface that cannot be read counts as one without the peer
        if b.read.isNone && c.peer.isSome then (.error (.custom "WG User already exist"), c)
        else
          match b.add with
          | some e => (.error (.custom ("Failed to create WireGuard peer: " ++ e)), c)
          | none => (.ok (), { c with peer := some wg.address })
    else (.error (.custom "WireGuard API is unavailable"), c)

def createAmnezia (msg : Message) (c : Cell) : Except NodeError Unit × Cell :=
  match msg.wg with
  | none => (.error (.custom "Missing Amnezia WireGuard keys"), c)
  | some wg =>
    let mobile := decide (msg.tag = .amneziaWgMobile)
    let proto := if mobile then .amneziaWgMobile wg else .amneziaWg wg
    let c := c.addConn (.new proto msg.expiresAt msg.subscriptionId b.now)
    if setup.clients (if mobile then .awgMobile else .awg) then
      match setup.pubkey wg.keys with
      | .error e => (.error (.custom ("Invalid AWG pubkey: " ++ e)), c)
      | .ok _ =>
        match b.read with
        | some e => (.error (.custom ("Failed to read AWG device: " ++ e)), c)
        | none =>
          if c.peer.isSome then (.error (.custom "AWG user already exists"), c)
          else
            match b.add with
            | some e =>
              (.error (.custom ("Failed to create AmneziaWG peer via netlink: " ++ e)), c)
            | none => (.ok (), { c with peer := some wg.address })
    else (.error (.custom "Amnezia WireGuard API is unavailable"), c)

/-- Take the peer of a connection off its interface. -/
def removePeer (unavailable missing failed : String) (client : Bool) (msg : Message) (c : Cell) :
    Except NodeError Unit × Cell :=
  if client then
    match msg.wg with
    | none => (.error (.custom missing), c)
    | some wg =>
      match setup.pubkey wg.keys with
      | .error e => (.error (.custom e), c)
      | .ok _ =>
        match b.remove with
        | some e => (.error (.custom (failed ++ e)), c)
        | none => (.ok (), { c with peer := none })
  else (.error (.custom unavailable), c)

def removeWireguardPeer (msg : Message) (c : Cell) : Except NodeError Unit × Cell :=
  removePeer setup b "WireGuard API is unavailable" "Missing WireGuard keys in message"
    "Failed to delete WireGuard peer: " (setup.clients .wg) msg c

def removeAmneziaPeer (msg : Message) (c : Cell) : Except NodeError Unit × Cell :=
  removePeer setup b "AWG API is unavailable" "Missing AWG keys in message"
    "Failed to remove AWG peer: "
    (setup.clients (if msg.tag = .amneziaWgMobile then .awgMobile else .awg)) msg c

def unsupported : NodeError := .custom "Is not supported, or built without support the proto"

def callXray (msg : Message) : Handler :=
  if setup.handlerClient then .called msg
  else .done msg (.error (.grpc "Xray handler unavailable"))

def startCreate (msg : Message) (c : Cell) : Handler × Cell :=
  match msg.tag with
  | .amneziaWg | .amneziaWgMobile =>
    let r := createAmnezia setup b msg c
    (.done msg r.1, r.2)
  | .wireguard =>
    let r := createWireguard setup b msg c
    (.done msg r.1, r.2)
  | .vlessTcpReality | .vlessGrpcReality | .vlessXhttpReality | .vlessXhttpCdn | .vmess =>
    (callXray setup msg, c)
  | .shadowsocks =>
    match msg.password with
    | some _ => (callXray setup msg, c)
    | none => (.done msg (.error (.custom "Password not provided for Shadowsocks user")), c)
  | .hysteria2 | .mtproto => (.done msg (.error unsupported), c)

def afterRemove (msg : Message) (r : Except NodeError Unit × Cell) : Handler × Cell :=
  match r.1 with
  | .ok _ => (.removed msg, r.2)
  | .error e => (.done msg (.error e), r.2)

def startDelete (msg : Message) (c : Cell) : Handler × Cell :=
  match msg.tag with
  | .amneziaWg | .amneziaWgMobile => afterRemove msg (removeAmneziaPeer setup b msg c)
  | .wireguard => afterRemove msg (removeWireguardPeer setup b msg c)
  | .vlessTcpReality | .vlessGrpcReality | .vlessXhttpReality | .vlessXhttpCdn | .vmess
  | .shadowsocks => (callXray setup msg, c)
  | .hysteria2 | .mtproto => (.done msg (.error unsupported), c)

/-- A counter after a query that resets it, unless the query fails. -/
def resetCounter (fails : Bool) (n : ℕ) : ℕ := if fails then n else 0

def Counters.reset (fails : Bool × Bool × Bool) (counters : Counters) : Counters where
  downlink := resetCounter fails.1 counters.downlink
  uplink := resetCounter fails.2.1 counters.uplink
  online := resetCounter fails.2.2 counters.online

/-- Xray answers. The three queries of a reset run side by side; their errors are
dropped. -/
def answered (msg : Message) (c : Cell) : Handler × Cell :=
  match msg.action with
  | .resetStat => (.done msg (.ok ()), { c with counters := c.counters.reset b.statFails })
  | .create | .update =>
    match b.call with
    | some e =>
      (.done msg (.error (.custom
        ("Failed to create conn " ++ msg.connId.toText ++ ": " ++ e))), c)
    | none =>
      let password := if msg.tag = .shadowsocks then msg.password else none
      (.replied msg, { c with user := some password })
  | .delete =>
    match b.call with
    | some e => (.done msg (.error (.custom ("Couldn't remove connection from Xray: " ++ e))), c)
    | none => (.replied msg, { c with user := none })

def xrayProto (msg : Message) : Proto :=
  match msg.tag, msg.password with
  | .shadowsocks, some password => .shadowsocks password
  | tag, _ => .xray tag

def Handler.step : Handler → Cell → Handler × Cell
  | .start msg, c =>
    match msg.action with
    | .create | .update => startCreate setup b msg c
    | .delete => startDelete setup b msg c
    | .resetStat => (.called msg, c)
  | .removed msg, c => (.done msg (.ok ()), c.removeConn)
  | .called msg, c => answered b msg c
  | .replied msg, c =>
    match msg.action with
    | .delete => (.done msg (.ok ()), c.removeConn)
    | _ =>
      let conn := Base.new (xrayProto msg) msg.expiresAt msg.subscriptionId b.now
      (.done msg (.ok ()), c.addConn conn)
  | .done msg r, c => (.done msg r, c)

end Steps

/-! ### Handlers on the state of a node -/

variable {r : Handler × State}

section State

variable (setup : Setup)

def peerKey (msg : Message) : Option (Iface × String) :=
  match iface msg.tag, msg.wg with
  | some i, some wg =>
    match setup.pubkey wg.keys with
    | .ok key => some (i, key)
    | .error _ => none
  | _, _ => none

namespace State

def cell (msg : Message) (s : State) : Cell where
  conn := s.memory.lookup msg.connId
  peer := (peerKey setup msg).bind fun key => s.peers.lookup key
  user := s.users.lookup (msg.tag, msg.connId)
  counters := s.counters msg.connId

def write (msg : Message) (c : Cell) (s : State) : State where
  memory := s.memory.assign msg.connId c.conn
  peers :=
    match peerKey setup msg with
    | some key => s.peers.assign key c.peer
    | none => s.peers
  users := s.users.assign (msg.tag, msg.connId) c.user
  counters := Function.update s.counters msg.connId c.counters

end State

def advance (b : Backend) (h : Handler) (s : State) : Handler × State :=
  if h.isDone then (h, s)
  else
    let r := h.step setup b (s.cell setup h.msg)
    (r.1, s.write setup h.msg r.2)

def advances (b : Backend) : ℕ → Handler × State → Handler × State
  | 0, r => r
  | n + 1, r => advances b n (advance setup b r.1 r.2)

def handleMessage (b : Backend) (msg : Message) (s : State) : Handler × State :=
  advances setup b 3 (.start msg, s)

/-- A connection as a creation stores it. -/
structure Stored (msg : Message) (conn : Base) : Prop where
  tag : conn.proto.proto = msg.tag
  wg : iface msg.tag ≠ none → conn.proto.wg = msg.wg

/-- What a step of a handler can do: where it waits next, and what becomes of the cell. -/
inductive Moves : Handler → Cell → Handler × Cell → Prop
  | refuse {msg c} (e : NodeError) : Moves (.start msg) c (.done msg (.error e), c)
  | call {msg c} (h : msg.action = .resetStat ∨ iface msg.tag = none) :
      Moves (.start msg) c (.called msg, c)
  | store {msg c conn result} (haction : msg.action = .create ∨ msg.action = .update)
      (hstored : Stored msg conn) (hok : result = .ok () → peerKey setup msg = none) :
      Moves (.start msg) c (.done msg result, c.addConn conn)
  | put {msg c conn} (haction : msg.action = .create ∨ msg.action = .update)
      (hstored : Stored msg conn) (hkey : peerKey setup msg ≠ none) (address : IpAddrMask) :
      Moves (.start msg) c (.done msg (.ok ()), { c.addConn conn with peer := some address })
  | remove {msg c} (haction : msg.action = .delete) (hkey : peerKey setup msg ≠ none) :
      Moves (.start msg) c (.removed msg, { c with peer := none })
  | removed {msg c} : Moves (.removed msg) c (.done msg (.ok ()), c.removeConn)
  | fail {msg c} (e : NodeError) : Moves (.called msg) c (.done msg (.error e), c)
  | reset {msg c} (haction : msg.action = .resetStat) (counters : Counters) :
      Moves (.called msg) c (.done msg (.ok ()), { c with counters := counters })
  | reply {msg c} (haction : msg.action ≠ .resetStat) (user : Option (Option String)) :
      Moves (.called msg) c (.replied msg, { c with user := user })
  | forget {msg c} (haction : msg.action = .delete) :
      Moves (.replied msg) c (.done msg (.ok ()), c.removeConn)
  | keep {msg c conn} (haction : msg.action ≠ .delete) (htag : conn.proto.proto = msg.tag) :
      Moves (.replied msg) c (.done msg (.ok ()), c.addConn conn)
  | done {msg r c} : Moves (.done msg r) c (.done msg r, c)

variable {setup} {msg msg' : Message} {s s' : State} {b : Backend} {h : Handler} {c : Cell}

@[simp] theorem conn_cell (msg : Message) (s : State) :
    (s.cell setup msg).conn = s.memory.lookup msg.connId := rfl

theorem cell_write_self (hpeer : peerKey setup msg = none → c.peer = none) :
    (s.write setup msg c).cell setup msg = c := by
  cases hkey : peerKey setup msg with
  | none =>
    have hc : { c with peer := none } = c := by rw [← hpeer hkey]
    simpa [State.cell, State.write, hkey] using hc
  | some key => simp [State.cell, State.write, hkey]

section Moves

variable {wg : WgParam} {key : String} {i : Iface}

theorem peerKey_ne_none (hi : iface msg.tag = some i) (hwg : msg.wg = some wg)
    (hkey : setup.pubkey wg.keys = .ok key) : peerKey setup msg ≠ none := by
  simp [peerKey, hi, hwg, hkey]

theorem moves_createWireguard (haction : msg.action = .create ∨ msg.action = .update)
    (htag : msg.tag = .wireguard) (c : Cell) :
    Moves setup (.start msg) c
      (.done msg (createWireguard setup b msg c).1, (createWireguard setup b msg c).2) := by
  cases hwg : msg.wg with
  | none =>
    simp only [createWireguard, hwg]
    exact .refuse _
  | some wg =>
    have hstored : Stored msg (.new (.wireguard wg) msg.expiresAt msg.subscriptionId b.now) :=
      ⟨htag.symm, fun _ => hwg.symm⟩
    simp only [createWireguard, hwg]
    split
    · split
      · rename_i e hkey
        exact .store haction hstored fun _ => by simp [peerKey, htag, iface, hwg, hkey]
      · rename_i key hkey
        split
        · exact .store haction hstored nofun
        · split
          · exact .store haction hstored nofun
          · exact .put haction hstored (peerKey_ne_none (by rw [htag]; rfl) hwg hkey) _
    · exact .store haction hstored nofun

theorem moves_createAmnezia (haction : msg.action = .create ∨ msg.action = .update)
    (htag : msg.tag = .amneziaWg ∨ msg.tag = .amneziaWgMobile) (c : Cell) :
    Moves setup (.start msg) c
      (.done msg (createAmnezia setup b msg c).1, (createAmnezia setup b msg c).2) := by
  cases hwg : msg.wg with
  | none =>
    simp only [createAmnezia, hwg]
    exact .refuse _
  | some wg =>
    have hstored : Stored msg (.new (if decide (msg.tag = .amneziaWgMobile) then
        .amneziaWgMobile wg else .amneziaWg wg) msg.expiresAt msg.subscriptionId b.now) := by
      obtain htag | htag := htag <;> constructor <;>
        simp [htag, hwg, Base.new, Proto.proto, Proto.wg]
    obtain ⟨i, hi⟩ : ∃ i, iface msg.tag = some i := by
      obtain htag | htag := htag <;> exact ⟨_, by rw [htag]; rfl⟩
    simp only [createAmnezia, hwg]
    generalize Base.new (if decide (msg.tag = .amneziaWgMobile) then .amneziaWgMobile wg else
      .amneziaWg wg) msg.expiresAt msg.subscriptionId b.now = conn at hstored ⊢
    generalize setup.clients (if decide (msg.tag = .amneziaWgMobile) then .awgMobile else
      .awg) = client
    split
    · split
      · exact .store haction hstored nofun
      · rename_i key hkey
        split
        · exact .store haction hstored nofun
        · split
          · exact .store haction hstored nofun
          · split
            · exact .store haction hstored nofun
            · exact .put haction hstored (peerKey_ne_none hi hwg hkey) _
    · exact .store haction hstored nofun

theorem moves_removePeer (haction : msg.action = .delete) (hi : iface msg.tag = some i)
    (unavailable missing failed : String) (client : Bool) (c : Cell) : Moves setup (.start msg) c
      (afterRemove msg (removePeer setup b unavailable missing failed client msg c)) := by
  unfold removePeer
  split
  · split
    · exact .refuse _
    · rename_i wg hwg
      split
      · exact .refuse _
      · rename_i key hkey
        split
        · exact .refuse _
        · exact .remove haction (peerKey_ne_none hi hwg hkey)
  · exact .refuse _

theorem moves_callXray (h : iface msg.tag = none) (c : Cell) :
    Moves setup (.start msg) c (callXray setup msg, c) := by
  unfold callXray
  split
  · exact .call (.inr h)
  · exact .refuse _

theorem moves_startCreate (haction : msg.action = .create ∨ msg.action = .update) (c : Cell) :
    Moves setup (.start msg) c (startCreate setup b msg c) := by
  unfold startCreate
  split
  case h_10 | h_11 => exact .refuse _
  case h_9 htag =>
    split
    · exact moves_callXray (by rw [htag]; rfl) c
    · exact .refuse _
  case h_1 htag => exact moves_createAmnezia haction (.inl htag) c
  case h_2 htag => exact moves_createAmnezia haction (.inr htag) c
  case h_3 htag => exact moves_createWireguard haction htag c
  all_goals
    rename_i htag
    exact moves_callXray (by rw [htag]; rfl) c

theorem moves_startDelete (haction : msg.action = .delete) (c : Cell) :
    Moves setup (.start msg) c (startDelete setup b msg c) := by
  unfold startDelete
  split
  case h_10 | h_11 => exact .refuse _
  case h_1 htag => exact moves_removePeer haction (by rw [htag]; rfl) ..
  case h_2 htag => exact moves_removePeer haction (by rw [htag]; rfl) ..
  case h_3 htag => exact moves_removePeer haction (by rw [htag]; rfl) ..
  all_goals
    rename_i htag
    exact moves_callXray (by rw [htag]; rfl) c

theorem proto_xrayProto (msg : Message) : (xrayProto msg).proto = msg.tag := by
  unfold xrayProto
  split
  · rename_i htag _
    exact htag.symm
  · rfl

theorem moves_step (h : Handler) (c : Cell) : Moves setup h c (h.step setup b c) := by
  cases h with
  | start msg =>
    cases haction : msg.action with
    | create | update =>
      simp only [Handler.step, haction]
      exact moves_startCreate (by simp [haction]) c
    | delete =>
      simp only [Handler.step, haction]
      exact moves_startDelete haction c
    | resetStat =>
      simp only [Handler.step, haction]
      exact .call (.inl haction)
  | removed msg => exact .removed
  | called msg =>
    cases haction : msg.action with
    | resetStat =>
      simp only [Handler.step, answered, haction]
      exact .reset haction _
    | create | update | delete =>
      simp only [Handler.step, answered, haction]
      split
      · exact .fail _
      · exact .reply (by simp [haction]) _
  | replied msg =>
    cases haction : msg.action with
    | delete =>
      simp only [Handler.step, haction]
      exact .forget haction
    | create | update | resetStat =>
      simp only [Handler.step, haction]
      exact .keep (by simp [haction]) (proto_xrayProto msg)
  | done msg r => exact .done

theorem Moves.msg_eq {r : Handler × Cell} (hm : Moves setup h c r) : r.1.msg = h.msg := by
  cases hm <;> rfl

@[simp] theorem msg_step (h : Handler) (c : Cell) : (h.step setup b c).1.msg = h.msg :=
  (moves_step h c).msg_eq

/-- A message without a key leaves the interfaces alone. -/
theorem Moves.peer {r : Handler × Cell} (hm : Moves setup h c r)
    (hkey : peerKey setup h.msg = none) : r.2.peer = c.peer := by
  cases hm with
  | put _ _ hsome | remove _ hsome => exact absurd hkey hsome
  | _ => rfl

end Moves

/-! What the functions do for a connection of the WireGuard family whose key is known. -/

/-- Whether a creation puts the peer on its interface. WireGuard goes on when the interface
cannot be read. -/
def putsPeer (setup : Setup) (b : Backend) (i : Iface) (peer : Option IpAddrMask) : Bool :=
  setup.clients i && b.add.isNone &&
    match i with
    | .wg => b.read.isSome || peer.isNone
    | _ => b.read.isNone && peer.isNone

def Cell.created (setup : Setup) (b : Backend) (i : Iface) (wg : WgParam) (conn : Base)
    (c : Cell) : Cell :=
  { c.addConn conn with peer := if putsPeer setup b i c.peer then some wg.address else c.peer }

variable {wg : WgParam} {key : String} {i : Iface}

theorem createWireguard_eq (hwg : msg.wg = some wg) (hkey : setup.pubkey wg.keys = .ok key)
    (c : Cell) :
    (createWireguard setup b msg c).2 = c.created setup b .wg wg
        (.new (.wireguard wg) msg.expiresAt msg.subscriptionId b.now) ∧
      ((createWireguard setup b msg c).1 = .ok () ↔ putsPeer setup b .wg c.peer = true) := by
  cases hclient : setup.clients .wg <;> cases hadd : b.add <;> cases hread : b.read <;>
    cases hpeer : c.peer <;>
    simp [createWireguard, Cell.created, Cell.addConn, putsPeer, hwg, hkey, hclient, hadd, hread,
      hpeer]

theorem createAmnezia_eq (hi : i = if msg.tag = .amneziaWgMobile then .awgMobile else .awg)
    (hwg : msg.wg = some wg) (hkey : setup.pubkey wg.keys = .ok key) (c : Cell) :
    (createAmnezia setup b msg c).2 = c.created setup b i wg
        (.new (if msg.tag = .amneziaWgMobile then .amneziaWgMobile wg else .amneziaWg wg)
          msg.expiresAt msg.subscriptionId b.now) ∧
      ((createAmnezia setup b msg c).1 = .ok () ↔ putsPeer setup b i c.peer = true) := by
  have hputs : ∀ peer, putsPeer setup b i peer =
      (setup.clients i && b.add.isNone && (b.read.isNone && peer.isNone)) := by
    intro peer
    rw [hi]
    split
    · rfl
    · rfl
  cases hclient : setup.clients i <;> cases hadd : b.add <;> cases hread : b.read <;>
    cases hpeer : c.peer <;>
    simp [createAmnezia, Cell.created, Cell.addConn, hputs, hwg, hkey, hclient, ← hi, hadd, hread,
      hpeer]

/-- The creation of a connection of the WireGuard family ends at once, with the connection
in memory. -/
theorem startCreate_eq (hi : iface msg.tag = some i) (hwg : msg.wg = some wg)
    (hkey : setup.pubkey wg.keys = .ok key) (c : Cell) :
    ∃ conn result, startCreate setup b msg c = (.done msg result, c.created setup b i wg conn) ∧
      conn.proto.proto = msg.tag ∧ conn.proto.wg = some wg ∧
      (result = .ok () ↔ putsPeer setup b i c.peer = true) := by
  cases htag : msg.tag with
  | wireguard =>
    obtain rfl : Iface.wg = i := by simpa [htag, iface] using hi
    obtain ⟨hcell, hok⟩ := createWireguard_eq (b := b) hwg hkey c
    have hstart : startCreate setup b msg c =
        (.done msg (createWireguard setup b msg c).1, (createWireguard setup b msg c).2) := by
      simp only [startCreate, htag]
    rw [hcell] at hstart
    exact ⟨_, _, hstart, rfl, rfl, hok⟩
  | amneziaWg | amneziaWgMobile =>
    have hi' : i = if msg.tag = .amneziaWgMobile then .awgMobile else .awg := by
      simpa [htag, iface, eq_comm] using hi
    obtain ⟨hcell, hok⟩ := createAmnezia_eq (b := b) hi' hwg hkey c
    have hstart : startCreate setup b msg c =
        (.done msg (createAmnezia setup b msg c).1, (createAmnezia setup b msg c).2) := by
      simp only [startCreate, htag]
    rw [hcell] at hstart
    exact ⟨_, _, hstart, by simp [htag, Base.new, Proto.proto],
      by simp [htag, Base.new, Proto.wg], hok⟩
  | _ => simp [htag, iface] at hi

theorem startDelete_eq (hi : iface msg.tag = some i) (hwg : msg.wg = some wg)
    (hkey : setup.pubkey wg.keys = .ok key) (c : Cell) :
    if setup.clients i = true ∧ b.remove = none then
      startDelete setup b msg c = (.removed msg, { c with peer := none })
    else ∃ e, startDelete setup b msg c = (.done msg (.error e), c) := by
  have hremove : ∀ unavailable missing failed,
      if setup.clients i = true ∧ b.remove = none then
        afterRemove msg (removePeer setup b unavailable missing failed (setup.clients i) msg c) =
          (.removed msg, { c with peer := none })
      else ∃ e, afterRemove msg
        (removePeer setup b unavailable missing failed (setup.clients i) msg c) =
          (.done msg (.error e), c) := by
    intro unavailable missing failed
    cases hclient : setup.clients i with
    | false =>
      exact ⟨_, rfl⟩
    | true =>
      cases hfail : b.remove with
      | none => simp [removePeer, afterRemove, hwg, hkey, hfail]
      | some e => simp [removePeer, afterRemove, hwg, hkey, hfail]
  cases htag : msg.tag with
  | wireguard =>
    obtain rfl : Iface.wg = i := by simpa [htag, iface] using hi
    simpa only [startDelete, htag, removeWireguardPeer] using hremove _ _ _
  | amneziaWg =>
    obtain rfl : Iface.awg = i := by simpa [htag, iface] using hi
    simpa only [startDelete, htag, removeAmneziaPeer, reduceCtorEq, if_false, if_true] using
      hremove _ _ _
  | amneziaWgMobile =>
    obtain rfl : Iface.awgMobile = i := by simpa [htag, iface] using hi
    simpa only [startDelete, htag, removeAmneziaPeer, reduceCtorEq, if_false, if_true] using
      hremove _ _ _
  | _ => simp [htag, iface] at hi

/-! A step of a handler changes the cell of its message and nothing else. -/

theorem msg_advance (h : Handler) (s : State) : (advance setup b h s).1.msg = h.msg := by
  unfold advance
  split
  · rfl
  · exact msg_step h _

theorem advance_fst (h : Handler) (s : State) :
    (advance setup b h s).1 = (h.step setup b (s.cell setup h.msg)).1 := by
  unfold advance
  split
  · rename_i hdone
    cases h with
    | done msg r => rfl
    | _ => cases hdone
  · rfl

theorem cell_advance_self (h : Handler) (s : State) :
    (advance setup b h s).2.cell setup h.msg = (h.step setup b (s.cell setup h.msg)).2 := by
  unfold advance
  split
  · rename_i hdone
    cases h with
    | done msg r => rfl
    | _ => cases hdone
  · apply cell_write_self
    intro hkey
    rw [(moves_step h _).peer hkey]
    simp [State.cell, hkey]

theorem memory_advance_ne {x : Uuid} (hx : x ≠ h.msg.connId) :
    (advance setup b h s).2.memory.lookup x = s.memory.lookup x := by
  unfold advance
  split
  · rfl
  · simp [State.write, hx]

theorem peers_advance_ne {key : Iface × String} (hkey : peerKey setup h.msg ≠ some key) :
    (advance setup b h s).2.peers.lookup key = s.peers.lookup key := by
  unfold advance
  split
  · rfl
  · cases hmsg : peerKey setup h.msg with
    | none => simp [State.write, hmsg]
    | some key' =>
      have hne : key ≠ key' := by
        rintro rfl
        exact hkey hmsg
      simp [State.write, hmsg, hne]

def Handler.steps (setup : Setup) (b : Backend) : ℕ → Handler × Cell → Handler × Cell
  | 0, r => r
  | n + 1, r => Handler.steps setup b n (r.1.step setup b r.2)

theorem advances_eq (n : ℕ) (hmsg : r.1.msg = msg) :
    (advances setup b n r).1 = (Handler.steps setup b n (r.1, r.2.cell setup msg)).1 ∧
      (advances setup b n r).2.cell setup msg =
        (Handler.steps setup b n (r.1, r.2.cell setup msg)).2 := by
  subst hmsg
  induction n generalizing r with
  | zero => exact ⟨rfl, rfl⟩
  | succ n ih =>
    have hnext := ih (r := advance setup b r.1 r.2)
    rw [msg_advance, advance_fst, cell_advance_self] at hnext
    exact hnext

variable (setup b) in
theorem handleMessage_eq (msg : Message) (s : State) :
    (handleMessage setup b msg s).1 =
        (Handler.steps setup b 3 (.start msg, s.cell setup msg)).1 ∧
      (handleMessage setup b msg s).2.cell setup msg =
        (Handler.steps setup b 3 (.start msg, s.cell setup msg)).2 :=
  advances_eq 3 (r := (.start msg, s)) rfl

theorem memory_advances_ne {x : Uuid} (n : ℕ) (hx : x ≠ r.1.msg.connId) :
    (advances setup b n r).2.memory.lookup x = r.2.memory.lookup x := by
  induction n generalizing r with
  | zero => rfl
  | succ n ih =>
    rw [advances, ih, memory_advance_ne hx]
    rwa [msg_advance]

theorem peers_advances_ne {key : Iface × String} (n : ℕ) (hkey : peerKey setup r.1.msg ≠ some key) :
    (advances setup b n r).2.peers.lookup key = r.2.peers.lookup key := by
  induction n generalizing r with
  | zero => rfl
  | succ n ih =>
    rw [advances, ih, peers_advance_ne hkey]
    rwa [msg_advance]

/-- A creation in the WireGuard family. -/
theorem steps_create (haction : msg.action = .create ∨ msg.action = .update)
    (hi : iface msg.tag = some i) (hwg : msg.wg = some wg)
    (hkey : setup.pubkey wg.keys = .ok key) (c : Cell) :
    ∃ conn result, Handler.steps setup b 3 (.start msg, c) =
        (.done msg result, c.created setup b i wg conn) ∧
      conn.proto.proto = msg.tag ∧ conn.proto.wg = some wg ∧
      (result = .ok () ↔ putsPeer setup b i c.peer = true) := by
  obtain ⟨conn, result, hstart, hproto, hparam, hok⟩ := startCreate_eq (b := b) hi hwg hkey c
  have hfirst : (Handler.start msg).step setup b c = startCreate setup b msg c := by
    rcases haction with h | h <;> simp only [Handler.step, h]
  refine ⟨conn, result, ?_, hproto, hparam, hok⟩
  change Handler.steps setup b 2 ((Handler.start msg).step setup b c) = _
  rw [hfirst, hstart]
  rfl

/-- A deletion in the WireGuard family removes the peer and the connection, or fails and
changes nothing. -/
theorem steps_delete (haction : msg.action = .delete) (hi : iface msg.tag = some i)
    (hwg : msg.wg = some wg) (hkey : setup.pubkey wg.keys = .ok key) (c : Cell) :
    if setup.clients i = true ∧ b.remove = none then
      Handler.steps setup b 3 (.start msg, c) =
        (.done msg (.ok ()), { c with peer := none, conn := none })
    else ∃ e, Handler.steps setup b 3 (.start msg, c) = (.done msg (.error e), c) := by
  have hfirst : Handler.steps setup b 3 (.start msg, c) =
      Handler.steps setup b 2 (startDelete setup b msg c) := by
    change Handler.steps setup b 2 ((Handler.start msg).step setup b c) = _
    simp only [Handler.step, haction]
  have hstart := startDelete_eq (b := b) hi hwg hkey c
  rw [hfirst]
  split at hstart
  · rename_i hthrough
    rw [if_pos hthrough, hstart]
    rfl
  · rename_i hthrough
    obtain ⟨e, hstart⟩ := hstart
    rw [if_neg hthrough, hstart]
    exact ⟨e, rfl⟩

end State

end NodeTasks

end Fcore
