import Fcore.Auth.Service
import Fcore.Postgres.ConnColumns

/-!
# Connections in storage and on the wire

The api keeps a connection as columns of a table and sends it as a message, whose fields are
optional and whose instant is split into seconds and nanoseconds. A node and the auth service
build a connection of their own from the message. The result is `conn_survives`: neither way
loses anything of a connection of a protocol that new connections are given.

A node keeps what it builds at once in the WireGuard family, and for Xray once the call has
gone through, `NodeTasks.builds`. It never replaces a connection it has.
-/

namespace Fcore

structure RkyvDateTime where
  timestamp : ℤ
  nanos : ℕ
  deriving DecidableEq, Repr

namespace RkyvDateTime

def ofDateTime (t : DateTime) : RkyvDateTime where
  timestamp := t / 1000000000
  nanos := (t % 1000000000).toNat

def toDateTime (t : RkyvDateTime) : DateTime := t.timestamp * 1000000000 + t.nanos

theorem toDateTime_ofDateTime (t : DateTime) : (ofDateTime t).toDateTime = t := by
  change t / 1000000000 * 1000000000 + ((t % 1000000000).toNat : ℤ) = t
  have hnanos : 0 ≤ t % 1000000000 := Int.emod_nonneg t (by decide)
  rw [Int.toNat_of_nonneg hnanos, mul_comm]
  exact Int.mul_ediv_add_emod t 1000000000

end RkyvDateTime

def Message.received (msg : Message) : Message :=
  { msg with expiresAt := msg.expiresAt.map fun t => (RkyvDateTime.ofDateTime t).toDateTime }

theorem Message.received_eq (msg : Message) : msg.received = msg := by
  have hexpires : (msg.expiresAt.map fun t => (RkyvDateTime.ofDateTime t).toDateTime) =
      msg.expiresAt := by
    cases msg.expiresAt with
    | none => rfl
    | some t => exact congrArg some (RkyvDateTime.toDateTime_ofDateTime t)
  rw [received, hexpires]

namespace NodeTasks

def builds (setup : Setup) (b : Backend) (tag : Tag) : Bool :=
  (iface tag).isSome || (setup.handlerClient && b.call.isNone)

variable {setup : Setup} {b : Backend} {msg : Message} {wg : WgParam} {c : Cell}

theorem conn_createWireguard (hwg : msg.wg = some wg) :
    (createWireguard setup b msg c).2.conn =
      c.conn.or (some (.new (.wireguard wg) msg.expiresAt msg.subscriptionId b.now)) := by
  unfold createWireguard
  rw [hwg]
  dsimp only
  -- the connection is in memory before the client is looked for
  split
  · split
    · rfl
    · split
      · rfl
      · split
        · rfl
        · rfl
  · rfl

theorem conn_createAmnezia (hwg : msg.wg = some wg) :
    (createAmnezia setup b msg c).2.conn =
      c.conn.or (some (.new
        (if msg.tag = .amneziaWgMobile then .amneziaWgMobile wg else .amneziaWg wg)
        msg.expiresAt msg.subscriptionId b.now)) := by
  unfold createAmnezia
  rw [hwg]
  simp only [decide_eq_true_eq]
  generalize (if msg.tag = .amneziaWgMobile then Iface.awgMobile else .awg) = i
  generalize (if msg.tag = .amneziaWgMobile then Proto.amneziaWgMobile wg else .amneziaWg wg) =
    proto
  split
  · split
    · rfl
    · split
      · rfl
      · split
        · rfl
        · split
          · rfl
          · rfl
  · rfl

theorem conn_steps_called (haction : msg.action = .create) :
    (Handler.steps setup b 2 (.called msg, c)).2.conn =
      if b.call.isNone then
        c.conn.or (some (.new (xrayProto msg) msg.expiresAt msg.subscriptionId b.now))
      else c.conn := by
  cases hcall : b.call with
  | none => simp [Handler.steps, Handler.step, answered, haction, hcall, Cell.addConn]
  | some e => simp [Handler.steps, Handler.step, answered, haction, hcall]

theorem conn_steps_callXray (haction : msg.action = .create) :
    (Handler.steps setup b 2 (callXray setup msg, c)).2.conn =
      if setup.handlerClient && b.call.isNone then
        c.conn.or (some (.new (xrayProto msg) msg.expiresAt msg.subscriptionId b.now))
      else c.conn := by
  unfold callXray
  cases hclient : setup.handlerClient with
  | true =>
    rw [if_pos rfl, conn_steps_called haction, Bool.true_and]
  | false => rfl

end NodeTasks

section Received

variable {texts : AddrText} {conn : Conn} {connId : Uuid}

open NodeTasks in
theorem conn_steps_asCreateMessage (setup : Setup) (b : NodeTasks.Backend)
    (h : conn.proto.Built texts) (htag : conn.proto.proto ≠ .hysteria2) (c : Cell) :
    (Handler.steps setup b 3 (.start (conn.asCreateMessage connId), c)).2.conn =
      if builds setup b conn.proto.proto then
        c.conn.or (some (.new conn.proto conn.expiresAt conn.subscriptionId b.now))
      else c.conn := by
  have hfirst : Handler.steps setup b 3 (.start (conn.asCreateMessage connId), c) =
      Handler.steps setup b 2 (startCreate setup b (conn.asCreateMessage connId) c) := rfl
  rw [hfirst]
  obtain ⟨env, proto, subscriptionId, createdAt, modifiedAt, expiresAt, isDeleted⟩ := conn
  cases proto with
  | wireguard param => exact conn_createWireguard rfl
  | amneziaWg param => exact conn_createAmnezia rfl
  | amneziaWgMobile param => exact conn_createAmnezia rfl
  | shadowsocks password => exact conn_steps_callXray rfl
  | hysteria2 token => exact absurd rfl htag
  | mtproto secret => exact absurd rfl (h.not_mtproto secret)
  | xray tag =>
    have hmem := h.xray tag rfl
    cases tag <;> first
      | exact conn_steps_callXray rfl
      | exact absurd hmem (by decide)

/-- What becomes of a connection in the database, on a node and at the auth service. -/
structure Conn.Survives (texts : PgTexts) (lower : String → String) (connId : Uuid)
    (conn : Conn) : Prop where
  stored : ∀ extras, ∃ conn', PgConn.load texts lower connId extras conn = .ok conn' ∧
    conn.StoredAs conn'
  node : conn.proto.proto ≠ .hysteria2 → ∀ setup b s,
    (NodeTasks.handleMessage setup b (conn.asCreateMessage connId).received s).2.memory.lookup
        connId =
      if NodeTasks.builds setup b conn.proto.proto then
        (s.memory.lookup connId).or
          (some (.new conn.proto conn.expiresAt conn.subscriptionId b.now))
      else s.memory.lookup connId
  auth : conn.proto.proto = .hysteria2 → ∀ now mem,
    (Auth.handleMessage now mem (conn.asCreateMessage connId).received).lookup connId =
      (mem.lookup connId).or (some (.new conn.proto conn.expiresAt conn.subscriptionId now))

theorem lookup_handleMessage_node (h : conn.proto.Built texts)
    (htag : conn.proto.proto ≠ .hysteria2) (setup : NodeTasks.Setup) (b : NodeTasks.Backend)
    (s : NodeTasks.State) :
    (NodeTasks.handleMessage setup b (conn.asCreateMessage connId).received s).2.memory.lookup
        connId =
      if NodeTasks.builds setup b conn.proto.proto then
        (s.memory.lookup connId).or
          (some (.new conn.proto conn.expiresAt conn.subscriptionId b.now))
      else s.memory.lookup connId := by
  rw [Message.received_eq]
  have hcell := (NodeTasks.handleMessage_eq setup b (conn.asCreateMessage connId) s).2
  have hconn := congrArg NodeTasks.Cell.conn hcell
  rw [conn_steps_asCreateMessage setup b h htag] at hconn
  exact hconn

theorem lookup_handleMessage_auth (htag : conn.proto.proto = .hysteria2)
    (h : conn.proto.Built texts) (now : DateTime) (mem : Auth.Memory) :
    (Auth.handleMessage now mem (conn.asCreateMessage connId).received).lookup connId =
      (mem.lookup connId).or (some (.new conn.proto conn.expiresAt conn.subscriptionId now)) := by
  rw [Message.received_eq]
  obtain ⟨env, proto, subscriptionId, createdAt, modifiedAt, expiresAt, isDeleted⟩ := conn
  cases proto with
  | hysteria2 token =>
    change (Auth.add connId _ mem).lookup connId = _
    unfold Auth.add
    split
    · rename_i old hold
      rw [hold]
      rfl
    · rename_i hnone
      rw [hnone, AList.lookup_insert]
      rfl
  | xray tag =>
    obtain rfl : tag = .hysteria2 := htag
    exact absurd (h.xray .hysteria2 rfl) (by decide)
  | _ => cases htag

/-- A connection of a protocol that new connections are given survives storage and wire. -/
theorem conn_survives (texts : PgTexts) (table : CaseTable) (connId : Uuid) {conn : Conn}
    (henv : Env.Obtained table.toLowercase conn.env)
    (hproto : conn.proto.Built texts.toAddrText) :
    conn.Survives texts table.toLowercase connId where
  stored _ := PgConn.storedAs_load henv hproto
  node htag := lookup_handleMessage_node hproto htag
  auth htag := lookup_handleMessage_auth htag hproto

/-! Texts that keep the contract, and a connection that was given its address by them. -/

/-- Addresses are written as numbers, an instant is rounded down. -/
def numberTexts : PgTexts where
  toAddrText := numberAddrText
  micros t := t / 1000
  micros_close t := by
    rw [abs_lt]
    constructor
    · omega
    · omega

/-- A connection of AmneziaWG in the environment `custom_lab`. -/
def labConn : Conn where
  env := .custom "_lab"
  proto := .amneziaWg ⟨⟨"key"⟩, ⟨.v4 0x0A080034#32, 32⟩⟩
  subscriptionId := some 3
  createdAt := 1700000000123456789
  modifiedAt := 1700000000123456789
  expiresAt := some 1800000000123456789
  isDeleted := false

theorem conn_survives_lab :
    Env.fromStr CaseTable.ascii.toLowercase "Custom_Lab" = .ok labConn.env ∧
      IpAddrMask.fromStr numberTexts.toAddrText "4.168296500/32" =
        some ⟨.v4 0x0A080034#32, 32⟩ ∧
      labConn.Survives numberTexts CaseTable.ascii.toLowercase 7 := by
  have henv : Env.fromStr CaseTable.ascii.toLowercase "Custom_Lab" = .ok labConn.env := by decide
  have hread : IpAddrMask.fromStr numberTexts.toAddrText "4.168296500/32" =
      some ⟨.v4 0x0A080034#32, 32⟩ := by decide
  refine ⟨henv, hread, conn_survives numberTexts .ascii 7 (.fromStr henv) ?_⟩
  exact
    { address := by
        rintro wg ⟨⟩
        exact ⟨_, hread⟩
      xray := fun _ => nofun
      not_mtproto := fun _ => nofun }

end Received

end Fcore
