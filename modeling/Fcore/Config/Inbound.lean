import Fcore.Lib.Json
import Fcore.Memory.Connection

/-!
# Inbounds

An inbound is one protocol endpoint of a node. The settings of the WireGuard
family are kept field by field because the client configuration is rendered
from them. The transport settings of the other protocols are compared when a node
joins a pool.
-/

namespace Fcore

abbrev Ipv4Addr := BitVec 32

/-- What the standard library and the key-agreement crate compute: Unicode lower
case, the text of addresses, and the public key of an encoded private key. -/
structure Backend where
  toLowercase : String → String
  ipText : IpAddr → String
  parseIpv4 : String → Option Ipv4Addr
  pubkey : String → Except String String

def constantBackend : Backend where
  toLowercase := id
  ipText _ := "10.0.0.2"
  parseIpv4 _ := none
  pubkey key := .ok key

structure WireguardSettings where
  interface : String
  address : IpAddrMask
  port : UInt16
  keys : Keys
  dns : List Ipv4Addr
  keepalive : Option UInt16
  deriving DecidableEq, Repr

structure AwgInterfaceConfig where
  interface : String
  address : IpAddrMask
  listenPort : UInt16
  mtu : Option UInt16
  privateKey : Keys
  dns : List Ipv4Addr
  deriving DecidableEq, Repr

structure AwgObfuscationParams where
  jc : UInt16
  jmin : UInt16
  jmax : UInt16
  s1 : UInt16
  s2 : UInt16
  s3 : UInt16
  s4 : UInt16
  h1 : String
  h2 : String
  h3 : String
  h4 : String
  i1 : String
  i2 : String
  i3 : String
  i4 : String
  i5 : String
  randomTrailers : Option Bool
  disableCookies : Option Bool
  headerProtectionKey : Option String
  contentPaddingAddition : Option String
  rekeyAfterTime : Option String
  rekeyTimeout : Option String
  rejectAfterTime : Option String
  keepaliveTimeout : Option String
  maxHandshakeAttempts : Option String
  deriving DecidableEq, Repr

structure AmneziaWgSettings where
  interface : AwgInterfaceConfig
  obfuscation : Option AwgObfuscationParams
  keepalive : Option UInt16
  deriving DecidableEq, Repr

inductive Network where
  | xhttp
  | grpc
  | tcp
  | ws
  deriving DecidableEq, Repr

structure TcpRequest where
  method : String
  path : List String
  headers : Option (Table String (List String))
  deriving DecidableEq

structure TcpHeader where
  type : String
  request : Option TcpRequest
  deriving DecidableEq

structure TcpSettings where
  header : Option TcpHeader
  deriving DecidableEq

structure RealitySettings where
  serverNames : List String
  privateKey : String
  publicKey : String
  shortIds : List String
  target : String
  deriving DecidableEq, Repr

structure GrpcSettings where
  serviceName : String
  deriving DecidableEq, Repr

structure XhttpSettings where
  path : String
  mode : Option String
  extra : Option Json
  deriving DecidableEq, Repr

structure Certificate where
  certificateFile : String
  keyFile : String
  deriving DecidableEq, Repr

structure TlsSettings where
  serverName : Option String
  certificates : List Certificate
  deriving DecidableEq, Repr

structure StreamSettings where
  network : Network
  tcpSettings : Option TcpSettings
  realitySettings : Option RealitySettings
  grpcSettings : Option GrpcSettings
  xhttpSettings : Option XhttpSettings
  tlsSettings : Option TlsSettings
  deriving DecidableEq

structure H2Obfs where
  type : String
  password : String
  deriving DecidableEq, Repr

structure H2AuthInfo where
  authType : String
  hasPassword : Bool
  hasUrl : Bool
  deriving DecidableEq, Repr

structure H2Settings where
  host : String
  port : UInt16
  sni : Option String
  insecure : Bool
  obfs : Option H2Obfs
  alpn : Option (List String)
  upMbps : Option UInt32
  downMbps : Option UInt32
  authInfo : Option H2AuthInfo
  deriving DecidableEq, Repr

structure Inbound where
  tag : Tag
  port : UInt16
  wg : Option WireguardSettings
  awg : Option AmneziaWgSettings
  streamSettings : Option StreamSettings := none
  h2 : Option H2Settings := none
  mtprotoSecret : Option String := none
  deriving DecidableEq

end Fcore
