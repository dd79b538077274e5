import PeerCrawl.Handshake
import PeerCrawl.Network
import PeerCrawl.UserAgent

set_option autoImplicit false

/-! # Configuration

What every connection of a crawl says about us, and what it demands of its peer. -/

namespace PeerCrawl

/-- The settings that all connections of a crawl share. -/
structure Configuration where
  /-- Written on every frame, and demanded of every frame. -/
  magic : Magic
  protocolVersion : ProtocolVersion
  /-- The standard one, if none is given. -/
  userAgent : Option UserAgent
  services : Services
  startHeight : UInt32
  relay : Bool
  /-- Whether a payload must have the checksum of its header. -/
  verifyChecksum : Bool

namespace Configuration

/-- A crawler that offers nothing and wants no transactions. -/
def nonListening (network : Network) (version : ProtocolVersion) (userAgent : Option UserAgent) :
    Configuration where
  magic := network.magic
  protocolVersion := version
  userAgent := userAgent
  services := Services.none
  startHeight := 0
  relay := false
  verifyChecksum := true

/-- The configuration of a crawl that says nothing else. -/
def standard : Configuration := nonListening .bitcoin ProtocolVersion.standard none

/-- The user agent that version messages carry. -/
def effectiveUserAgent (c : Configuration) : UserAgent := c.userAgent.getD UserAgent.standard

/-- The configuration on one line. -/
def text (c : Configuration) : String :=
  s!"ConnectionConfiguration \x7b magic: {c.magic.text}, protocol: {c.protocolVersion.toNat}, user_agent: \"{c.effectiveUserAgent.text}\", services: {c.services.text}, relay: {c.relay}, verify_checksum: {c.verifyChecksum} \x7d"

end Configuration

end PeerCrawl
