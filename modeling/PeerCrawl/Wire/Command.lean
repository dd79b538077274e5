import PeerCrawl.Text.Quoted
import PeerCrawl.Text.Utf8
import PeerCrawl.Wire.Error

set_option autoImplicit false

/-! # Commands

The name of a message, at most twelve bytes long, which a header carries in a field padded with
zero bytes. `Command.ofName` and `Command.ofField` accept printable ASCII names only. -/

namespace PeerCrawl

/-- The name of a message. -/
structure Command where
  name : Bytes
  length_le : name.length ≤ Wire.commandWidth
deriving DecidableEq

namespace Command

def version : Command := ⟨[0x76, 0x65, 0x72, 0x73, 0x69, 0x6F, 0x6E], by decide⟩

def verack : Command := ⟨[0x76, 0x65, 0x72, 0x61, 0x63, 0x6B], by decide⟩

def ping : Command := ⟨[0x70, 0x69, 0x6E, 0x67], by decide⟩

def pong : Command := ⟨[0x70, 0x6F, 0x6E, 0x67], by decide⟩

def addr : Command := ⟨[0x61, 0x64, 0x64, 0x72], by decide⟩

/-- Whether a byte is printable ASCII. -/
def isPrintable (b : UInt8) : Bool := 0x20 ≤ b && b ≤ 0x7E

/-- The command with a name that is known to be good; `none` if the name does not fit. -/
def ofLiteral? (name : String) : Option Command :=
  if h : (Utf8.encode name).length ≤ Wire.commandWidth then some ⟨Utf8.encode name, h⟩ else none

/-- The command with a name. -/
def ofName (name : String) : Except WireError Command :=
  let utf8 := Utf8.encode name
  if h : utf8.length ≤ Wire.commandWidth then
    if utf8.all isPrintable then .ok ⟨utf8, h⟩ else .error .malformedCommand
  else .error (.commandTooLong utf8.length)

/-- The name, padded with zero bytes. -/
def field (c : Command) : Octets Wire.commandWidth :=
  ⟨c.name ++ List.replicate (Wire.commandWidth - c.name.length) 0, by
    have := c.length_le
    simp only [List.length_append, List.length_replicate]
    omega⟩

/-- The command of a field: its name ends at the first zero byte, and only zero bytes follow. -/
def ofField (field : Octets Wire.commandWidth) : Except WireError Command :=
  let name := field.bytes.takeWhile (· ≠ 0)
  let padding := field.bytes.dropWhile (· ≠ 0)
  if name.all isPrintable ∧ padding.all (· == 0) then
    .ok ⟨name, Nat.le_trans (List.takeWhile_sublist _).length_le (Nat.le_of_eq field.length_eq)⟩
  else .error .malformedCommand

/-- The name as a text, empty if it is not UTF-8. -/
def text (c : Command) : String := (Utf8.decode? c.name).getD ""

/-- The name quoted, for diagnostics. -/
def summary (c : Command) : String := s!"Command({Text.quote c.text})"

end Command

end PeerCrawl
