import PeerCrawl.Address
import PeerCrawl.Text.Quoted

set_option autoImplicit false

/-! # Handshakes

What a peer says about itself in its version message, and the protocol versions that decide which
fields a message has. -/

namespace PeerCrawl

/-- A protocol version. -/
abbrev ProtocolVersion := UInt32

namespace ProtocolVersion

/-- The version that is advertised unless another one is configured. -/
def standard : ProtocolVersion := 70015

/-- The first version whose version message goes on after the sender's address. -/
def extendedVersionMessage : ProtocolVersion := 106

/-- The first version whose address records carry a time. -/
def addressTime : ProtocolVersion := 31402

/-- The first version whose version message ends with the relay flag. -/
def relay : ProtocolVersion := 70001

/-- The text of a version that may not be known yet. -/
def text? : Option ProtocolVersion → String
  | some v => toString v.toNat
  | none => "unknown"

end ProtocolVersion

/-- A peer that has introduced itself. -/
structure Handshake where
  address : Address
  userAgent : String
  version : ProtocolVersion
  services : Services
  startHeight : UInt32
deriving DecidableEq

namespace Handshake

/-- The text of a handshake, with the peer's own words quoted. -/
def text (h : Handshake) : String :=
  s!"{h.address.text} ([peer] agent: {Text.quote h.userAgent}, services: {h.services.text}, version: {h.version.toNat}, height: {h.startHeight.toNat})"

end Handshake

end PeerCrawl
