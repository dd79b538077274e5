import PeerCrawl.Handshake
import PeerCrawl.Wire.CompactSize

set_option autoImplicit false

/-! # Address records

A record is the time, where the encoding includes it, the services, the sixteen bytes of the
address and the port, most significant byte first. A list of records follows its compact size. -/

namespace PeerCrawl

/-- The surroundings of a record, which decide whether it carries its time. -/
structure AddressEncoding where
  /-- Whether the structure around the record has a place for the time. -/
  haveTime : Bool
  /-- Whether the record is kept rather than sent. -/
  persistent : Bool
  version : ProtocolVersion
deriving DecidableEq

namespace AddressEncoding

/-- A record in a list of addresses. -/
def gossip (version : ProtocolVersion) : AddressEncoding := ⟨true, false, version⟩

/-- A record in a version message, which never carries its time. -/
def handshake (version : ProtocolVersion) : AddressEncoding := ⟨false, false, version⟩

def includesTime (e : AddressEncoding) : Bool :=
  e.haveTime && (e.persistent || ProtocolVersion.addressTime ≤ e.version)

/-- The width of a record. -/
def width (e : AddressEncoding) : Nat := if e.includesTime then 30 else 26

end AddressEncoding

namespace Wire

/-- The time of an address that carries none. -/
def defaultAddressTime : UInt32 := 100000000

/-- One record. -/
def addressRecord (a : Address) (e : AddressEncoding) : Bytes :=
  (if e.includesTime then u32le (a.time.getD defaultAddressTime) else []) ++
    u64le a.servicesOrNone.bits ++ a.raw.bytes ++ u16be a.port

/-- A list of records. -/
def addressList (addresses : List Address) (version : ProtocolVersion) : Bytes :=
  compactSize (UInt64.ofNat addresses.length) ++
    addresses.flatMap fun a => addressRecord a (.gossip version)

end Wire

namespace Reader

/-- One record. -/
def addressRecord (e : AddressEncoding) : Reader Address := do
  let time ← if e.includesTime then some <$> u32le else pure none
  let services ← u64le
  let raw ← octets 16
  let port ← u16be
  return { raw, port, services := some ⟨services⟩, time }

/-- A list of at most a thousand records. -/
def addressList (version : ProtocolVersion) : Reader (List Address) := do
  let count ← compactSize
  if Wire.maxAddresses < count.toNat then fail (.tooManyAddresses count.toNat)
  else times (addressRecord (.gossip version)) count.toNat

end Reader

end PeerCrawl
