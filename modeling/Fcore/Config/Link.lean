import Fcore.Config.Inbound

/-!
# Client configurations of the WireGuard family

The configuration a client imports is an INI text assembled from the inbound, the
connection and a label. The label is free text and stands in a comment at the
end. The results below say where it stands: behind a comment mark that begins a
line, with a fixed text after it (`LabelComment`). Everything else about the text
is left to the rendering functions.
-/

namespace Fcore

namespace Inbound

def ipMaskText (b : Backend) (mask : IpAddrMask) : String :=
  b.ipText mask.address ++ "/" ++ toString mask.cidr.toNat

def dnsText (b : Backend) (dns : List Ipv4Addr) : String :=
  ",".intercalate (dns.map fun ip => b.ipText (.v4 ip))

/-- One `key = value` line. -/
def configLine (key value : String) : String := key ++ " = " ++ value ++ "\n"

/-- A line that is written only when the value is set. -/
def optionalLine (key : String) : Option String → String
  | some value => configLine key value
  | none => ""

/-- A flag that is written only when it is on. -/
def flagLine (key : String) (flag : Option Bool) : String :=
  if flag = some true then configLine key "on" else ""

def obfuscationText (obf : AwgObfuscationParams) : String :=
  "\n" ++ configLine "Jc" (toString obf.jc.toNat)
    ++ configLine "Jmin" (toString obf.jmin.toNat)
    ++ configLine "Jmax" (toString obf.jmax.toNat)
    ++ configLine "S1" (toString obf.s1.toNat)
    ++ configLine "S2" (toString obf.s2.toNat)
    ++ configLine "S3" (toString obf.s3.toNat)
    ++ configLine "S4" (toString obf.s4.toNat)
    ++ configLine "H1" obf.h1
    ++ configLine "H2" obf.h2
    ++ configLine "H3" obf.h3
    ++ configLine "H4" obf.h4
    ++ configLine "I1" obf.i1
    ++ configLine "I2" obf.i2
    ++ configLine "I3" obf.i3
    ++ configLine "I4" obf.i4
    ++ configLine "I5" obf.i5
    ++ flagLine "RandomTrailers" obf.randomTrailers
    ++ flagLine "DisableCookies" obf.disableCookies
    ++ optionalLine "HeaderProtectionKey" obf.headerProtectionKey
    ++ optionalLine "ContentPaddingAddition" obf.contentPaddingAddition
    ++ optionalLine "RekeyAfterTime" obf.rekeyAfterTime
    ++ optionalLine "RekeyTimeout" obf.rekeyTimeout
    ++ optionalLine "RejectAfterTime" obf.rejectAfterTime
    ++ optionalLine "KeepaliveTimeout" obf.keepaliveTimeout
    ++ optionalLine "MaxHandshakeAttempts" obf.maxHandshakeAttempts

def keepaliveText (keepalive : Option UInt16) : String :=
  toString (keepalive.getD 25).toNat

/-- The AmneziaWG configuration up to the label. -/
def amneziawgBody (b : Backend) (awg : AmneziaWgSettings) (param : WgParam)
    (serverPubkey host : String) : String :=
  let dns := dnsText b awg.interface.dns
  "[Interface]\n" ++ configLine "PrivateKey" param.keys.privkey
    ++ configLine "Address" (ipMaskText b param.address)
    ++ optionalLine "MTU" (awg.interface.mtu.map fun mtu => toString mtu.toNat)
    ++ (if dns ≠ "" then configLine "DNS" dns else "")
    ++ (match awg.obfuscation with
        | some obf => obfuscationText obf
        | none => "")
    ++ "\n[Peer]\n" ++ configLine "PublicKey" serverPubkey
    ++ configLine "Endpoint" (host ++ ":" ++ toString awg.interface.listenPort.toNat)
    ++ configLine "AllowedIPs" "0.0.0.0/0, ::/0"
    ++ configLine "PersistentKeepalive" (keepaliveText awg.keepalive)

def amneziawg (b : Backend) (inbound : Inbound) (connId : Uuid) (conn : Conn)
    (host label : String) : Except String String :=
  match conn.getAmneziawg with
  | some param =>
    match inbound.awg with
    | some awg =>
      match b.pubkey awg.interface.privateKey.privkey with
      | .ok serverPubkey =>
        .ok (amneziawgBody b awg param serverPubkey host ++ "\n"
          ++ "# " ++ label ++ " — conn_id: " ++ connId.toText ++ "\n")
      | .error e => .error e
    | none => .error "AWG Inbound is not configured"
  | none => .error "AWG Conn is not configured"

/-- The WireGuard configuration up to the label. -/
def wireguardBody (b : Backend) (wg : WireguardSettings) (param : WgParam)
    (serverPubkey host : String) : String :=
  "\n    [Interface]\n    PrivateKey = " ++ param.keys.privkey
    ++ "\n    Address    = " ++ ipMaskText b param.address
    ++ "\n    DNS        = " ++ dnsText b wg.dns
    ++ "\n\n    [Peer]\n    PublicKey           = " ++ serverPubkey
    ++ "\n    Endpoint            = " ++ host ++ ":" ++ toString wg.port.toNat
    ++ "\n    AllowedIPs          = 0.0.0.0/0, ::/0\n    PersistentKeepalive = "
    ++ keepaliveText wg.keepalive ++ "\n"

def wireguard (b : Backend) (inbound : Inbound) (connId : Uuid) (conn : Conn)
    (host label : String) : Except String String :=
  match conn.getWireguard with
  | some param =>
    match inbound.wg with
    | some wg =>
      match b.pubkey wg.keys.privkey with
      | .ok serverPubkey =>
        .ok (wireguardBody b wg param serverPubkey host ++ "\n"
          ++ "    # " ++ label ++ " — conn_id: " ++ connId.toText ++ "\n    ")
      | .error e => .error e
    | none => .error "WG Inbound is not configured"
  | none => .error "WG Conn is not configured"

/-- The link of a connection. The protocols outside the WireGuard family give a
URI rather than a configuration; their renderer is the argument `uriLink`. -/
def createLink (b : Backend)
    (uriLink : Inbound → Uuid → Conn → String → String → String → Except String String)
    (inbound : Inbound) (connId : Uuid) (conn : Conn) (hostname host label : String) :
    Except String String :=
  match inbound.tag with
  | .wireguard => inbound.wireguard b connId conn host label
  | .amneziaWg => inbound.amneziawg b connId conn host label
  | .amneziaWgMobile => inbound.amneziawg b connId conn host label
  | _ => uriLink inbound connId conn hostname host label

/-- What a link needs: in the WireGuard family the parameters of the connection, the settings
of the inbound and a private key there that has a public one, and otherwise what the URI
renderer needs. -/
def Renders (b : Backend)
    (uriLink : Inbound → Uuid → Conn → String → String → String → Except String String)
    (inbound : Inbound) (connId : Uuid) (conn : Conn) (hostname host label : String) : Prop :=
  match inbound.tag with
  | .wireguard => conn.getWireguard.isSome ∧ ∃ wg ∈ inbound.wg, (b.pubkey wg.keys.privkey).isOk
  | .amneziaWg | .amneziaWgMobile => conn.getAmneziawg.isSome ∧
    ∃ awg ∈ inbound.awg, (b.pubkey awg.interface.privateKey.privkey).isOk
  | _ => (uriLink inbound connId conn hostname host label).isOk

theorem isOk_amneziawg_iff {b : Backend} {inbound : Inbound} {connId : Uuid} {conn : Conn}
    {host label : String} : (inbound.amneziawg b connId conn host label).isOk ↔
      conn.getAmneziawg.isSome ∧
        ∃ awg ∈ inbound.awg, (b.pubkey awg.interface.privateKey.privkey).isOk := by
  unfold amneziawg
  split
  · split
    · split <;> simp [*, Except.isOk, Except.toBool]
    · simp [*, Except.isOk, Except.toBool]
  · simp [*, Except.isOk, Except.toBool]

theorem isOk_wireguard_iff {b : Backend} {inbound : Inbound} {connId : Uuid} {conn : Conn}
    {host label : String} : (inbound.wireguard b connId conn host label).isOk ↔
      conn.getWireguard.isSome ∧ ∃ wg ∈ inbound.wg, (b.pubkey wg.keys.privkey).isOk := by
  unfold wireguard
  split
  · split
    · split <;> simp [*, Except.isOk, Except.toBool]
    · simp [*, Except.isOk, Except.toBool]
  · simp [*, Except.isOk, Except.toBool]

theorem renders_iff {b : Backend}
    {uriLink : Inbound → Uuid → Conn → String → String → String → Except String String}
    {inbound : Inbound} {connId : Uuid} {conn : Conn} {hostname host label : String} :
    inbound.Renders b uriLink connId conn hostname host label ↔
      ∃ text, inbound.createLink b uriLink connId conn hostname host label = .ok text := by
  have hok : ∀ link : Except String String, link.isOk ↔ ∃ text, link = .ok text := by
    intro link
    cases link <;> simp [Except.isOk, Except.toBool]
  rw [← hok]
  unfold Renders createLink
  split
  · exact isOk_wireguard_iff.symm
  · exact isOk_amneziawg_iff.symm
  · exact isOk_amneziawg_iff.symm
  · rfl

/-- A rendering in which the label stands in a comment line of its own, between
texts that do not depend on it. -/
structure LabelComment (render : String → Except String String) where
  body : String
  mark : String
  suffix : String
  mark_single : '\n' ∉ mark.toList
  mark_comment : Text.isComment mark.toList = true
  render_eq : ∀ label, render label = .ok (body ++ "\n" ++ mark ++ label ++ suffix)

theorem amneziawg_labelComment {b : Backend} {inbound : Inbound} {connId : Uuid} {conn : Conn}
    {host label text : String} (h : inbound.amneziawg b connId conn host label = .ok text) :
    Nonempty (LabelComment fun label => inbound.amneziawg b connId conn host label) := by
  unfold amneziawg at h ⊢
  split at h
  · split at h
    · split at h
      · rename_i param _ _ awg _ _ serverPubkey _
        exact ⟨⟨amneziawgBody b awg param serverPubkey host, "# ",
          " — conn_id: " ++ connId.toText ++ "\n", by decide, by decide,
          fun label => by simp only [String.append_assoc]⟩⟩
      · cases h
    · cases h
  · cases h

theorem wireguard_labelComment {b : Backend} {inbound : Inbound} {connId : Uuid} {conn : Conn}
    {host label text : String} (h : inbound.wireguard b connId conn host label = .ok text) :
    Nonempty (LabelComment fun label => inbound.wireguard b connId conn host label) := by
  unfold wireguard at h ⊢
  split at h
  · split at h
    · split at h
      · rename_i param _ _ wg _ _ serverPubkey _
        exact ⟨⟨wireguardBody b wg param serverPubkey host, "    # ",
          " — conn_id: " ++ connId.toText ++ "\n    ", by decide, by decide,
          fun label => by simp only [String.append_assoc]⟩⟩
      · cases h
    · cases h
  · cases h

end Inbound

end Fcore
