import PeerCrawl.Bytes.Basic
import PeerCrawl.Text.Digits

set_option autoImplicit false

/-! # Byte strings in hexadecimal

A byte string as text, two lower-case digits a byte. -/

namespace PeerCrawl

namespace Bytes

/-- Two lower-case digits a byte. -/
def toHex (b : Bytes) : String :=
  String.ofList (b.flatMap fun x => [Text.digit (x.toNat / 16), Text.digit (x.toNat % 16)])

/-- Read pairs of digits. -/
def ofHexDigits? : List Char → Option Bytes
  | [] => some []
  | [_] => none
  | hi :: lo :: rest => do
    let h ← Text.digitValue? hi
    let l ← Text.digitValue? lo
    let b ← ofHexDigits? rest
    return UInt8.ofNat (16 * h + l) :: b

/-- The byte string that a hexadecimal text writes. -/
def ofHex? (s : String) : Option Bytes := ofHexDigits? s.toList

end Bytes

end PeerCrawl
