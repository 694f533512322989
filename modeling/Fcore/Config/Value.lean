import Fcore.Config.Inbound

/-!
# Inbounds as JSON

The settings of an inbound as they are serialized. An optional setting is written as null
when it is absent, except in an obfuscation profile, where it is left out.
-/

namespace Fcore

namespace Network

def asStr : Network → String
  | .xhttp => "xhttp"
  | .grpc => "grpc"
  | .tcp => "tcp"
  | .ws => "ws"

end Network

def TcpRequest.toValue (request : TcpRequest) : Json :=
  .ofFields [("method", .str request.method), ("path", .ofStrings request.path),
    ("headers", .ofOption (fun headers : Table String (List String) =>
      .ofFields (headers.entries.map fun e => (e.1, .ofStrings e.2))) request.headers)]

def TcpHeader.toValue (header : TcpHeader) : Json :=
  .ofFields [("type", .str header.type), ("request", .ofOption TcpRequest.toValue header.request)]

def TcpSettings.toValue (tcp : TcpSettings) : Json :=
  .ofFields [("header", .ofOption TcpHeader.toValue tcp.header)]

def RealitySettings.toValue (reality : RealitySettings) : Json :=
  .ofFields [("serverNames", .ofStrings reality.serverNames),
    ("privateKey", .str reality.privateKey), ("publicKey", .str reality.publicKey),
    ("shortIds", .ofStrings reality.shortIds), ("target", .str reality.target)]

def GrpcSettings.toValue (grpc : GrpcSettings) : Json :=
  .ofFields [("serviceName", .str grpc.serviceName)]

def XhttpSettings.toValue (xhttp : XhttpSettings) : Json :=
  .ofFields [("path", .str xhttp.path), ("mode", .ofOption .str xhttp.mode),
    ("extra", .ofOption id xhttp.extra)]

def Certificate.toValue (certificate : Certificate) : Json :=
  .ofFields [("certificateFile", .str certificate.certificateFile),
    ("keyFile", .str certificate.keyFile)]

def TlsSettings.toValue (tls : TlsSettings) : Json :=
  .ofFields [("serverName", .ofOption .str tls.serverName),
    ("certificates", .ofList (tls.certificates.map Certificate.toValue))]

def StreamSettings.toValue (stream : StreamSettings) : Json :=
  .ofFields [("network", .str stream.network.asStr),
    ("tcpSettings", .ofOption TcpSettings.toValue stream.tcpSettings),
    ("realitySettings", .ofOption RealitySettings.toValue stream.realitySettings),
    ("grpcSettings", .ofOption GrpcSettings.toValue stream.grpcSettings),
    ("xhttpSettings", .ofOption XhttpSettings.toValue stream.xhttpSettings),
    ("tlsSettings", .ofOption TlsSettings.toValue stream.tlsSettings)]

/-- The fields of a serialized profile; the optional ones stand there only when set. -/
def AwgObfuscationParams.toFields (o : AwgObfuscationParams) : List (String × Json) :=
  let num (name : String) (n : UInt16) := (name, Json.ofU16 n)
  let text (name value : String) := (name, Json.str value)
  let optional (name : String) (value : Option Json) := value.toList.map fun v => (name, v)
  [num "jc" o.jc, num "jmin" o.jmin, num "jmax" o.jmax, num "s1" o.s1, num "s2" o.s2,
    num "s3" o.s3, num "s4" o.s4, text "h1" o.h1, text "h2" o.h2, text "h3" o.h3, text "h4" o.h4,
    text "i1" o.i1, text "i2" o.i2, text "i3" o.i3, text "i4" o.i4, text "i5" o.i5] ++
  optional "random_trailers" (o.randomTrailers.map .bool) ++
  optional "disable_cookies" (o.disableCookies.map .bool) ++
  optional "header_protection_key" (o.headerProtectionKey.map .str) ++
  optional "content_padding_addition" (o.contentPaddingAddition.map .str) ++
  optional "rekey_after_time" (o.rekeyAfterTime.map .str) ++
  optional "rekey_timeout" (o.rekeyTimeout.map .str) ++
  optional "reject_after_time" (o.rejectAfterTime.map .str) ++
  optional "keepalive_timeout" (o.keepaliveTimeout.map .str) ++
  optional "max_handshake_attempts" (o.maxHandshakeAttempts.map .str)

def AwgObfuscationParams.toValue (o : AwgObfuscationParams) : Json := .ofFields o.toFields

def H2Obfs.toValue (obfs : H2Obfs) : Json :=
  .ofFields [("type", .str obfs.type), ("password", .str obfs.password)]

def Backend.dnsValue (b : Backend) (dns : List Ipv4Addr) : Json :=
  .ofStrings (dns.map fun ip => b.ipText (.v4 ip))

end Fcore
