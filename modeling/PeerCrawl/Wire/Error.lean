set_option autoImplicit false

/-! # Wire errors

Why bytes are not what they should be, or why a value cannot be written. -/

namespace PeerCrawl

namespace Wire

/-- The width of the command field of a header. -/
def commandWidth : Nat := 12

/-- The most records that one list of addresses may hold. -/
def maxAddresses : Nat := 1000

end Wire

/-- Why a read or a command name is refused. -/
inductive WireError where
  /-- A field of `needed` bytes was begun with fewer left. -/
  | unexpectedEnd (needed remaining : Nat)
  /-- A command field with bytes that are not printable, or with bytes after its padding. -/
  | malformedCommand
  | commandTooLong (length : Nat)
  /-- A compact size in more bytes than its value takes. -/
  | nonCanonicalVarInt (value : Nat)
  | tooManyAddresses (count : Nat)
deriving DecidableEq

def WireError.message : WireError → String
  | .unexpectedEnd needed remaining =>
    s!"Unexpected end of data: needed {needed} bytes, {remaining} remaining"
  | .malformedCommand => "Malformed command name in message header"
  | .commandTooLong length =>
    s!"Command name of {length} bytes exceeds {Wire.commandWidth} byte field"
  | .nonCanonicalVarInt value => s!"Non-canonical compact size encoding of {value}"
  | .tooManyAddresses count =>
    s!"Address message with {count} records exceeds limit of {Wire.maxAddresses}"

end PeerCrawl
