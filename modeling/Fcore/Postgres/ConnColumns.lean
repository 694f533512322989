import Fcore.Handlers.Connection
import Fcore.Memory.AddressText
import Fcore.Memory.Wire
import Fcore.Postgres.Load

/-!
# The columns of a connection

A connection is written to the database as columns: its tag, and the key material of
whichever protocol it has, spread over a password, a token, and the private key and address
of the WireGuard family. The address and the environment are text, and instants are whole
microseconds. `PgConn.ConnRow` is the record between a connection and its columns; that of a
row of the table is `ofRow`, and both load as the same connection.

A column that does not parse is read as missing. For a connection of a protocol that new
connections are given, with an address that was read, this never happens, and the connection
that is loaded is the one that was stored, `storedAs_load`. With a mask that does not fit its
address the columns no longer load, `load_error_of_wide`.
-/

namespace Fcore

/-- How the driver writes what a column has no type for: addresses as text, and an instant
as a number of microseconds that is less than one away from it. -/
structure PgTexts extends AddrText where
  micros : DateTime → ℤ
  micros_close : ∀ t, |1000 * micros t - t| < 1000

namespace PgTexts

variable (texts : PgTexts)

def stored (t : DateTime) : DateTime := 1000 * texts.micros t

end PgTexts

namespace PgConn

structure ConnRow where
  connId : Uuid
  password : Option String
  env : String
  createdAt : DateTime
  modifiedAt : DateTime
  expiresAt : Option DateTime
  subscriptionId : Option Uuid
  wg : Option WgParam
  proto : Tag
  token : Option Uuid
  isDeleted : Bool
  label : Option String
  issuedVia : Option String
  nodeId : Option Uuid
  includeInMain : Bool
  deriving DecidableEq

/-- Instants in microseconds. -/
structure Columns where
  id : Uuid
  password : Option String
  token : Option Uuid
  env : String
  createdAt : ℤ
  modifiedAt : ℤ
  expiresAt : Option ℤ
  subscriptionId : Option Uuid
  proto : Tag
  wgPrivkey : Option String
  wgAddress : Option String
  isDeleted : Bool
  label : Option String
  issuedVia : Option String
  nodeId : Option Uuid
  includeInMain : Bool
  deriving DecidableEq

structure Extras where
  label : Option String
  issuedVia : Option String
  nodeId : Option Uuid
  includeInMain : Bool
  deriving DecidableEq

namespace ConnRow

def ofConn (connId : Uuid) (conn : Conn) : ConnRow where
  connId := connId
  password := conn.proto.password
  env := conn.env.asStr
  createdAt := conn.createdAt
  modifiedAt := conn.modifiedAt
  expiresAt := conn.expiresAt
  subscriptionId := conn.subscriptionId
  wg := conn.getWireguard.or conn.getAmneziawg
  proto := conn.proto.proto
  token := conn.proto.token
  isDeleted := conn.isDeleted
  label := none
  issuedVia := none
  nodeId := none
  includeInMain := true

def withExtras (extras : Extras) (row : ConnRow) : ConnRow :=
  { row with
    label := extras.label
    issuedVia := extras.issuedVia
    nodeId := extras.nodeId
    includeInMain := extras.includeInMain }

def insert (texts : PgTexts) (row : ConnRow) : Columns where
  id := row.connId
  password := row.password
  env := row.env
  createdAt := texts.micros row.createdAt
  modifiedAt := texts.micros row.modifiedAt
  expiresAt := row.expiresAt.map texts.micros
  subscriptionId := row.subscriptionId
  proto := row.proto
  isDeleted := row.isDeleted
  wgPrivkey := row.wg.map fun wg => wg.keys.privkey
  wgAddress := row.wg.map fun wg => wg.address.toText texts.toAddrText
  token := row.token
  label := row.label
  issuedVia := row.issuedVia
  nodeId := row.nodeId
  includeInMain := row.includeInMain

end ConnRow

/-- The parameters of the WireGuard family, if both columns are there and the address
parses. -/
def Columns.wg (texts : AddrText) (columns : Columns) : Option WgParam :=
  match columns.wgPrivkey, columns.wgAddress with
  | some privkey, some address =>
    (IpAddrMask.fromStr texts address).map fun mask => ⟨⟨privkey⟩, mask⟩
  | _, _ => none

def Columns.mapRow (texts : AddrText) (columns : Columns) : ConnRow where
  connId := columns.id
  password := columns.password
  token := columns.token
  env := columns.env
  createdAt := 1000 * columns.createdAt
  modifiedAt := 1000 * columns.modifiedAt
  expiresAt := columns.expiresAt.map fun t => 1000 * t
  subscriptionId := columns.subscriptionId
  proto := columns.proto
  wg := columns.wg texts
  isDeleted := columns.isDeleted
  label := columns.label
  issuedVia := columns.issuedVia
  nodeId := columns.nodeId
  includeInMain := columns.includeInMain

namespace ConnRow

def loadProto (row : ConnRow) : Except String Proto :=
  Proto.ofColumns row.proto row.wg row.password row.token

def toConn (lower : String → String) (row : ConnRow) : Except String Conn :=
  row.loadProto.map fun proto =>
    { env := Env.ofStored lower row.env
      proto := proto
      subscriptionId := row.subscriptionId
      createdAt := row.createdAt
      modifiedAt := row.modifiedAt
      expiresAt := row.expiresAt
      isDeleted := row.isDeleted }

/-- The record of a row of the table. -/
def ofRow (connId : Uuid) (row : Fcore.ConnRow) : ConnRow where
  connId := connId
  password := row.proto.password
  env := row.env
  createdAt := row.createdAt
  modifiedAt := row.modifiedAt
  expiresAt := row.expiresAt
  subscriptionId := row.subscriptionId
  wg := row.proto.wg
  proto := row.proto.proto
  token := row.proto.token
  isDeleted := row.isDeleted
  label := row.label
  issuedVia := row.issuedVia
  nodeId := row.nodeId
  includeInMain := row.includeInMain

theorem toConn_ofRow (lower : String → String) (connId : Uuid) (row : Fcore.ConnRow) :
    (ofRow connId row).toConn lower = row.toConn lower := rfl

/-- The row that a new connection is inserted as has the record of that connection. -/
theorem ofRow_newRow (connId : Uuid) (conn : Conn) (extras : Extras) :
    ofRow connId (World.newRow conn extras.label extras.nodeId extras.issuedVia
      extras.includeInMain) = (ofConn connId conn).withExtras extras := by
  obtain ⟨env, proto⟩ := conn
  cases proto <;> rfl

end ConnRow

/-- A connection as it is loaded after it was inserted. -/
def load (texts : PgTexts) (lower : String → String) (connId : Uuid) (extras : Extras)
    (conn : Conn) : Except String Conn :=
  ((((ConnRow.ofConn connId conn).withExtras extras).insert texts).mapRow texts.toAddrText).toConn
    lower

end PgConn

def xrayTags : List Tag :=
  [.vlessTcpReality, .vlessGrpcReality, .vlessXhttpReality, .vlessXhttpCdn, .vmess]

/-- A protocol that a new connection is given, of any tag but `Mtproto`. -/
structure Proto.Built (texts : AddrText) (proto : Proto) : Prop where
  address : ∀ wg, proto.wg = some wg → ∃ s, IpAddrMask.fromStr texts s = some wg.address
  xray : ∀ tag, proto = .xray tag → tag ∈ xrayTags
  not_mtproto : ∀ secret, proto ≠ .mtproto secret

theorem Proto.built_of_newProto {texts : AddrText} {networks : WgNetworks}
    {connections : Connections} {tag : Tag} {generated : Generated} {proto : Proto}
    (h : newProto networks connections tag generated = .ok proto) (htag : tag ≠ .mtproto) :
    proto.Built texts where
  address wg hwg := by
    obtain ⟨next, rfl, -⟩ := newWgParam_ok ((newProto_inv h).2 wg hwg)
    refine ⟨IpAddrMask.toText texts ⟨.v4 next, 32⟩, ?_⟩
    rw [IpAddrMask.fromStr_toText]
    exact IpAddrMask.reread_eq_some_iff.mpr ⟨UInt8.le_refl 32, rfl⟩
  xray tag' hproto := by
    subst hproto
    have hfamily : ∀ mk : WgParam → Proto, (∀ wg, mk wg ≠ .xray tag') →
        (newWgParam networks connections tag generated).map mk ≠ .ok (.xray tag') := by
      intro mk hmk heq
      cases hparam : newWgParam networks connections tag generated with
      | error msg =>
        rw [hparam] at heq
        cases heq
      | ok wg =>
        rw [hparam] at heq
        exact hmk wg (Except.ok.inj heq)
    cases tag with
    | wireguard => exact absurd h (hfamily .wireguard fun _ => nofun)
    | amneziaWg => exact absurd h (hfamily .amneziaWg fun _ => nofun)
    | amneziaWgMobile => exact absurd h (hfamily .amneziaWgMobile fun _ => nofun)
    | _ =>
      cases h
      all_goals decide
  not_mtproto secret hproto := by
    subst hproto
    exact htag (newProto_inv h).1.symm

def SameToMicros (t t' : DateTime) : Prop := |t' - t| < 1000

/-- A connection and what it is after it was stored. -/
structure Conn.StoredAs (conn conn' : Conn) : Prop where
  env : conn'.env = conn.env
  proto : conn'.proto = conn.proto
  subscriptionId : conn'.subscriptionId = conn.subscriptionId
  isDeleted : conn'.isDeleted = conn.isDeleted
  expiresAt : Option.Rel SameToMicros conn.expiresAt conn'.expiresAt
  createdAt : SameToMicros conn.createdAt conn'.createdAt
  modifiedAt : SameToMicros conn.modifiedAt conn'.modifiedAt

namespace PgConn

variable {texts : PgTexts} {connId : Uuid} {extras : Extras} {conn : Conn}

theorem wg_ofConn (connId : Uuid) (conn : Conn) :
    (ConnRow.ofConn connId conn).wg = conn.proto.wg := by
  cases conn with
  | mk env proto => cases proto <;> rfl

theorem wg_mapRow_insert (row : ConnRow) :
    ((row.insert texts).mapRow texts.toAddrText).wg =
      row.wg.bind fun wg => wg.address.reread.map fun mask => ⟨wg.keys, mask⟩ := by
  cases hwg : row.wg with
  | none => simp [ConnRow.insert, Columns.mapRow, Columns.wg, hwg]
  | some wg =>
    simp [ConnRow.insert, Columns.mapRow, Columns.wg, hwg, IpAddrMask.fromStr_toText]

theorem loadProto_of_built {row : ConnRow} {proto : Proto} (h : proto.Built texts.toAddrText)
    (htag : row.proto = proto.proto) (hwg : row.wg = proto.wg)
    (hpassword : row.password = proto.password) (htoken : row.token = proto.token) :
    row.loadProto = .ok proto := by
  rw [ConnRow.loadProto, htag, hwg, hpassword, htoken]
  cases proto with
  | xray tag =>
    have hmem := h.xray tag rfl
    cases tag <;> first
      | rfl
      | exact absurd hmem (by decide)
  | mtproto secret => exact absurd rfl (h.not_mtproto secret)
  | _ => rfl

theorem mapRow_insert_ofConn (h : conn.proto.Built texts.toAddrText) :
    (((ConnRow.ofConn connId conn).withExtras extras).insert texts).mapRow texts.toAddrText =
      { (ConnRow.ofConn connId conn).withExtras extras with
        createdAt := texts.stored conn.createdAt
        modifiedAt := texts.stored conn.modifiedAt
        expiresAt := conn.expiresAt.map texts.stored } := by
  have hwg : ((((ConnRow.ofConn connId conn).withExtras extras).insert texts).mapRow
      texts.toAddrText).wg = (ConnRow.ofConn connId conn).wg := by
    rw [wg_mapRow_insert]
    change (ConnRow.ofConn connId conn).wg.bind _ = _
    rw [wg_ofConn]
    cases hparam : conn.proto.wg with
    | none => rfl
    | some wg =>
      obtain ⟨s, hs⟩ := h.address wg hparam
      have hfits := IpAddrMask.reread_eq_some_iff.mpr
        ⟨IpAddrMask.cidr_le_of_fromStr hs, rfl⟩
      rw [Option.bind_some, hfits]
      rfl
  have hexpires : (conn.expiresAt.map texts.micros).map (fun t => 1000 * t) =
      conn.expiresAt.map texts.stored := Option.map_map ..
  rw [ConnRow.mk.injEq]
  exact ⟨rfl, rfl, rfl, rfl, rfl, hexpires, rfl, hwg, rfl, rfl, rfl, rfl, rfl, rfl, rfl⟩

theorem storedAs_load {table : CaseTable} (henv : Env.Obtained table.toLowercase conn.env)
    (h : conn.proto.Built texts.toAddrText) :
    ∃ conn', load texts table.toLowercase connId extras conn = .ok conn' ∧
      conn.StoredAs conn' := by
  have hproto : ((((ConnRow.ofConn connId conn).withExtras extras).insert texts).mapRow
      texts.toAddrText).loadProto = .ok conn.proto := by
    rw [mapRow_insert_ofConn h]
    exact loadProto_of_built h rfl (wg_ofConn connId conn) rfl rfl
  have hload : load texts table.toLowercase connId extras conn =
      .ok { conn with
        env := Env.ofStored table.toLowercase conn.env.asStr
        createdAt := texts.stored conn.createdAt
        modifiedAt := texts.stored conn.modifiedAt
        expiresAt := conn.expiresAt.map texts.stored } := by
    rw [load, ConnRow.toConn, hproto, mapRow_insert_ofConn h]
    rfl
  refine ⟨_, hload, ?_⟩
  exact
    { env := by rw [Env.ofStored, Env.fromStr_asStr henv]
      proto := rfl
      subscriptionId := rfl
      isDeleted := rfl
      expiresAt := by
        cases conn.expiresAt with
        | none => exact .none
        | some t => exact .some (texts.micros_close t)
      createdAt := texts.micros_close conn.createdAt
      modifiedAt := texts.micros_close conn.modifiedAt }

/-- A mask that does not fit its address is written and not read: the connection does not
load. -/
theorem load_error_of_wide (lower : String → String) {wg : WgParam} (hwg : conn.proto.wg = some wg)
    (hwide : IpAddrMask.maxCidr wg.address.address < wg.address.cidr) :
    load texts lower connId extras conn = .error "Missing Wireguard param" := by
  have hread : ((((ConnRow.ofConn connId conn).withExtras extras).insert texts).mapRow
      texts.toAddrText).wg = none := by
    rw [wg_mapRow_insert]
    change (ConnRow.ofConn connId conn).wg.bind _ = _
    rw [wg_ofConn, hwg, Option.bind_some, IpAddrMask.reread, if_pos hwide]
    rfl
  have htag : ((((ConnRow.ofConn connId conn).withExtras extras).insert texts).mapRow
      texts.toAddrText).proto = conn.proto.proto := rfl
  rw [load, ConnRow.toConn, ConnRow.loadProto, hread, htag]
  cases hproto : conn.proto with
  | wireguard param | amneziaWg param | amneziaWgMobile param => rfl
  | _ =>
    rw [hproto] at hwg
    cases hwg

end PgConn

end Fcore
