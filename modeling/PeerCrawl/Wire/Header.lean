import PeerCrawl.Bytes.Sha256
import PeerCrawl.Network
import PeerCrawl.Wire.Command
import PeerCrawl.Wire.Reader
import PeerCrawl.Wire.Writing

set_option autoImplicit false

/-! # Headers and frames

Every message travels as a frame: a header of 24 bytes with the network's magic, the command, the
length of the payload and its checksum, and then the payload. -/

namespace PeerCrawl

namespace Wire

/-- The width of a header. -/
def headerWidth : Nat := 24

/-- The longest payload that is accepted from a peer. -/
def maxPayload : Nat := 4000000

end Wire

/-- What precedes a payload. -/
structure Header where
  magic : Magic
  command : Command
  payloadLength : UInt32
  checksum : Octets 4
deriving DecidableEq

namespace Header

/-- The 24 bytes of a header. -/
def encode (h : Header) : Bytes :=
  h.magic.bytes ++ h.command.field.bytes ++ Wire.u32le h.payloadLength ++ h.checksum.bytes

theorem length_encode (h : Header) : h.encode.length = Wire.headerWidth := by
  simp [encode, Wire.u32le, h.magic.length_eq, h.command.field.length_eq, h.checksum.length_eq,
    Wire.commandWidth, Wire.headerWidth]

/-- The header of a payload. -/
def ofPayload (magic : Magic) (command : Command) (payload : Bytes) : Header where
  magic := magic
  command := command
  payloadLength := UInt32.ofNat payload.length
  checksum := PeerCrawl.checksum payload

end Header

namespace Reader

/-- A command field, refused when it holds no command. -/
def command : Reader Command := do
  match Command.ofField (← octets Wire.commandWidth) with
  | .ok c => return c
  | .error e => fail e

/-- A header. -/
def header : Reader Header := do
  let magic ← octets 4
  let command ← command
  let payloadLength ← u32le
  let checksum ← octets 4
  return { magic, command, payloadLength, checksum }

end Reader

namespace Wire

/-- A message as it travels. -/
def frame (magic : Magic) (command : Command) (payload : Bytes) : Bytes :=
  (Header.ofPayload magic command payload).encode ++ payload

end Wire

end PeerCrawl
