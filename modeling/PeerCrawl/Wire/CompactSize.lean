import PeerCrawl.Text.Utf8
import PeerCrawl.Wire.Reader
import PeerCrawl.Wire.Writing

set_option autoImplicit false

/-! # Compact sizes and the texts they measure

A number below 0xFD is one byte. A larger one is a marker byte and two, four or eight bytes, least
significant first, and the shortest form that holds it is the only one accepted. A text is the
compact size of its UTF-8 form, followed by that form. -/

namespace PeerCrawl

namespace Wire

/-- The compact size of a number. -/
def compactSize (n : UInt64) : Bytes :=
  if n < 0xFD then [n.toUInt8]
  else if n ≤ 0xFFFF then 0xFD :: u16le n.toUInt16
  else if n ≤ 0xFFFFFFFF then 0xFE :: u32le n.toUInt32
  else 0xFF :: u64le n

/-- A text after its compact size. -/
def sizedText (s : String) : Bytes :=
  let utf8 := Utf8.encode s
  compactSize (UInt64.ofNat utf8.length) ++ utf8

end Wire

namespace Reader

/-- An extension of `width` bytes, refused when its value has a shorter form. -/
def extended (width minimum : Nat) : Reader UInt64 := do
  let n ← littleEndian width
  if n < minimum then fail (.nonCanonicalVarInt n) else return UInt64.ofNat n

/-- A number in its shortest form. -/
def compactSize : Reader UInt64 := do
  let first ← u8
  if first = 0xFF then extended 8 0x100000000
  else if first = 0xFE then extended 4 0x10000
  else if first = 0xFD then extended 2 0xFD
  else return first.toUInt64

/-- A text after its compact size, with U+FFFD for what is not UTF-8. -/
def sizedText : Reader String := do
  let size ← compactSize
  let left ← remaining
  if left < size.toNat then fail (.unexpectedEnd size.toNat left)
  else return Utf8.decodeLossy (← take size.toNat)

end Reader

end PeerCrawl
