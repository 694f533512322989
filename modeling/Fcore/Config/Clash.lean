import Fcore.Config.Inbound

/-!
# Clash configurations

A proxy is named by a label, the tag of its inbound and the last group of digits of
the connection's identifier, or of its token. The one group of the configuration
refers to the proxies by these names.
-/

namespace Fcore

structure HttpOpts where
  method : String
  path : List String
  connection : List String
  ipVersion : String
  host : String

structure RealityOpts where
  publicKey : String
  shortId : String

structure GrpcOpts where
  grpcServiceName : String
  ipVersion : String

inductive ClashProxy where
  | vmess (name server : String) (port : UInt16) (uuid cipher : String) (udp : Bool) (alterId : ℕ)
      (network : String) (httpOpts : HttpOpts)
  | vless (name server : String) (port : UInt16) (uuid : String) (udp tls : Bool)
      (network servername : String) (realityOpts : Option RealityOpts) (grpcOpts : Option GrpcOpts)
      (httpPath : Option (List String)) (clientFingerprint : String) (flow : Option String)
  | hysteria2 (name server : String) (port : UInt16) (password : String) (sni : Option String)
      (skipCertVerify : Bool) (alpn : Option (List String)) (obfs obfsPassword up down : Option String)

def ClashProxy.name : ClashProxy → String
  | vmess name .. | vless name .. | hysteria2 name .. => name

structure ClashProxyGroup where
  name : String
  groupType : String
  url : String
  interval : ℕ
  proxies : List String

structure ClashConfig where
  port : UInt16
  mode : String
  proxies : List ClashProxy
  proxyGroups : List ClashProxyGroup
  rules : List String

/-- No two proxies have one name, and a name in a group denotes one proxy. -/
structure ClashConfig.NamesUnique (config : ClashConfig) : Prop where
  nodup : (config.proxies.map ClashProxy.name).Nodup
  denotes : ∀ group ∈ config.proxyGroups, ∀ name ∈ group.proxies,
    ∃! p, p ∈ config.proxies ∧ p.name = name

def clashName (label : String) (tag : Tag) (id : Uuid) : String :=
  label ++ " [" ++ tag.toText ++ "] " ++ getUuidLastOctetSimple id

def mbpsText (mbps : Option UInt32) : Option String :=
  (mbps.filter fun v => 0 < v).map fun v => toString v.toNat ++ " Mbps"

namespace Inbound

def clash (proxies : List ClashProxy) : ClashConfig where
  port := 7890
  mode := "global"
  proxies := proxies
  proxyGroups := [⟨"♻️ Automatic", "url-test", "http://www.gstatic.com/generate_204", 300,
    proxies.map ClashProxy.name⟩]
  rules := []

theorem namesUnique_clash_iff {proxies : List ClashProxy} :
    (clash proxies).NamesUnique ↔ (proxies.map ClashProxy.name).Nodup := by
  refine ⟨fun h => h.nodup, fun h => ⟨h, ?_⟩⟩
  intro group hgroup name hname
  cases List.mem_singleton.mp hgroup
  obtain ⟨p, hp, rfl⟩ := List.mem_map.mp hname
  exact ⟨p, ⟨hp, rfl⟩, fun p' ⟨hp', heq⟩ => List.inj_on_of_nodup_map h hp' hp heq⟩

/-- The transport of a Reality inbound: its name, and the options that go with it. -/
def realityTransport (stream : StreamSettings) :
    Option (String × Option GrpcOpts × Option String × Option (List String)) :=
  match stream.grpcSettings, stream.xhttpSettings, stream.network with
  | some grpc, _, _ => some ("grpc", some ⟨grpc.serviceName, "dual"⟩, none, none)
  | none, some xhttp, _ => some ("xhttp", none, none, some [xhttp.path])
  | none, none, .tcp => some ("tcp", none, some "xtls-rprx-vision", none)
  | none, none, _ => none

def proxy (inbound : Inbound) (connId : Uuid) (conn : Conn) (host label : String) :
    Option ClashProxy :=
  match inbound.tag with
  | .hysteria2 => do
    let h2 ← inbound.h2
    let token ← conn.proto.token
    return .hysteria2 (clashName label inbound.tag token) h2.host inbound.port token.toText h2.sni
      h2.insecure h2.alpn (h2.obfs.map H2Obfs.type) (h2.obfs.map H2Obfs.password)
      (mbpsText h2.upMbps) (mbpsText h2.downMbps)
  | .vmess => do
    let stream ← inbound.streamSettings
    let tcp ← stream.tcpSettings
    let header ← tcp.header
    let req ← header.request
    let headers ← req.headers
    let hosts ← headers.lookup "Host"
    let host ← hosts.head?
    return .vmess (clashName label inbound.tag connId) host inbound.port connId.toText "auto" true 0
      "http" ⟨"GET", [req.path.head?.getD "/"], ["keep-alive"], "dual", host⟩
  | .vlessGrpcReality | .vlessTcpReality | .vlessXhttpReality => do
    let stream ← inbound.streamSettings
    let reality ← stream.realitySettings
    let (network, grpcOpts, flow, httpPath) ← realityTransport stream
    return .vless (clashName label inbound.tag connId) host inbound.port connId.toText true true
      network (reality.serverNames.head?.getD "")
      (some ⟨reality.publicKey, reality.shortIds.head?.getD ""⟩) grpcOpts httpPath "chrome" flow
  | .vlessXhttpCdn => do
    let stream ← inbound.streamSettings
    let xhttp ← stream.xhttpSettings
    let cdnHost := (stream.tlsSettings.bind TlsSettings.serverName).getD host
    return .vless (clashName label inbound.tag connId) cdnHost inbound.port connId.toText true true
      "xhttp" cdnHost none none (some [xhttp.path]) "chrome" none
  | _ => none

/-- The name has the label, the tag, and the identifier that the kind of proxy uses. -/
theorem proxy_name {inbound : Inbound} {connId : Uuid} {conn : Conn} {host label : String}
    {p : ClashProxy} (h : inbound.proxy connId conn host label = some p) :
    ∃ id, p.name = clashName label inbound.tag id ∧
      if inbound.tag = .hysteria2 then conn.proto.token = some id else id = connId := by
  unfold proxy at h
  split at h <;> rename_i htag <;>
    try simp only [Option.bind_eq_bind, Option.bind_eq_some_iff, Option.pure_def,
      Option.some.injEq] at h
  · obtain ⟨_, -, token, htoken, rfl⟩ := h
    exact ⟨token, rfl, by rwa [if_pos htag]⟩
  · obtain ⟨_, -, _, -, _, -, _, -, _, -, _, -, _, -, rfl⟩ := h
    exact ⟨connId, rfl, by rw [htag, if_neg (by decide)]⟩
  · obtain ⟨_, -, _, -, _, -, rfl⟩ := h
    exact ⟨connId, rfl, by rw [htag, if_neg (by decide)]⟩
  · obtain ⟨_, -, _, -, _, -, rfl⟩ := h
    exact ⟨connId, rfl, by rw [htag, if_neg (by decide)]⟩
  · obtain ⟨_, -, _, -, _, -, rfl⟩ := h
    exact ⟨connId, rfl, by rw [htag, if_neg (by decide)]⟩
  · obtain ⟨_, -, _, -, rfl⟩ := h
    exact ⟨connId, rfl, by rw [htag, if_neg (by decide)]⟩
  · cases h

end Inbound

section Name

variable {label label' : String} {tag tag' : Tag} {id id' : Uuid}

theorem length_getUuidLastOctetSimple (id : Uuid) :
    (getUuidLastOctetSimple id).toList.length = 12 := by
  simp [getUuidLastOctetSimple, Uuid.toText, uuidText.length_hyphenated]

theorem Tag.bracket_notMem_toText (tag : Tag) : '[' ∉ tag.toText.toList := by
  cases tag <;> decide

/-- The three parts of a name can be told apart: the last has twelve digits, and no tag has a
bracket. -/
theorem clashName_inj : clashName label tag id = clashName label' tag' id' ↔
    label = label' ∧ tag = tag' ∧ getUuidLastOctetSimple id = getUuidLastOctetSimple id' := by
  constructor
  · intro h
    have hlist := congrArg String.toList h
    simp only [clashName, String.toList_append] at hlist
    obtain ⟨hfront, hid⟩ := List.append_inj' hlist
      ((length_getUuidLastOctetSimple id).trans (length_getUuidLastOctetSimple id').symm)
    have hname := List.append_cancel_right hfront
    -- the tag is what follows the last opening bracket
    have hlast : ∀ l t : List Char, '[' ∉ t →
        ((l ++ " [".toList ++ t).reverse.takeWhile fun c => c != '[') = t.reverse := by
      intro l t ht
      have hnot : ∀ c ∈ t.reverse, (c != '[') = true := fun c hc =>
        bne_iff_ne.mpr fun h => ht (h ▸ List.mem_reverse.mp hc)
      rw [List.reverse_append, List.reverse_append, List.takeWhile_append_of_pos hnot]
      exact List.append_nil _
    have htag : tag = tag' := by
      have hrev := congrArg (fun l => l.reverse.takeWhile fun c => c != '[') hname
      simp only [hlast _ _ tag.bracket_notMem_toText, hlast _ _ tag'.bracket_notMem_toText] at hrev
      exact Tag.toText_injective (String.toList_injective (List.reverse_injective hrev))
    subst htag
    have hlabel := List.append_cancel_right (List.append_cancel_right hname)
    exact ⟨String.toList_injective hlabel, rfl, String.toList_injective hid⟩
  · rintro ⟨rfl, rfl, hid⟩
    rw [clashName, clashName, hid]

end Name

end Fcore
