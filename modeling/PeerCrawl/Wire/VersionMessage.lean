import PeerCrawl.Wire.AddressRecord

set_option autoImplicit false

/-! # Version messages

What a node says first. The protocol version of the stream decides how far the message goes: from
106 on the receiver's address, the nonce, the user agent and the height follow, and from 70001 on
the relay flag. Fields that are absent read as zero. -/

namespace PeerCrawl

/-- The payload of a version message. -/
structure VersionMessage where
  version : ProtocolVersion
  services : Services
  timestamp : Int64
  sender : Address
  receiver : Address
  nonce : UInt64
  userAgent : String
  startHeight : UInt32
  relay : Bool
deriving DecidableEq

/-- The fields that a version message has from 106 on. -/
structure VersionExtension where
  receiver : Address := { raw := Octets.zero 16, port := 0 }
  nonce : UInt64 := 0
  userAgent : String := ""
  startHeight : UInt32 := 0

namespace VersionMessage

/-- The payload at a stream's protocol version. -/
def encode (m : VersionMessage) (stream : ProtocolVersion) : Bytes :=
  let records := AddressEncoding.handshake stream
  let start := Wire.u32le m.version ++ Wire.u64le m.services.bits ++ Wire.i64le m.timestamp ++
    Wire.addressRecord m.sender records
  let extension :=
    if ProtocolVersion.extendedVersionMessage ≤ stream then
      Wire.addressRecord m.receiver records ++ Wire.u64le m.nonce ++ Wire.sizedText m.userAgent ++
        Wire.u32le m.startHeight
    else []
  let relay := if ProtocolVersion.relay ≤ stream then Wire.bool m.relay else []
  start ++ extension ++ relay

end VersionMessage

namespace Reader

/-- The version and the services that a version message starts with. -/
def versionPeek : Reader (ProtocolVersion × Services) := do
  let version ← u32le
  let services ← u64le
  return (version, ⟨services⟩)

/-- The fields from 106 on. -/
def versionExtension (records : AddressEncoding) : Reader VersionExtension := do
  let receiver ← addressRecord records
  let nonce ← u64le
  let userAgent ← sizedText
  let startHeight ← u32le
  return { receiver, nonce, userAgent, startHeight }

/-- A version message at a stream's protocol version. -/
def versionMessage (stream : ProtocolVersion) : Reader VersionMessage := do
  let records := AddressEncoding.handshake stream
  let (version, services) ← versionPeek
  let timestamp ← i64le
  let sender ← addressRecord records
  let more ←
    if ProtocolVersion.extendedVersionMessage ≤ stream then versionExtension records else pure {}
  let relay ← if ProtocolVersion.relay ≤ stream then bool else pure false
  return {
    version, services, timestamp, sender, receiver := more.receiver, nonce := more.nonce,
    userAgent := more.userAgent, startHeight := more.startHeight, relay }

end Reader

end PeerCrawl
