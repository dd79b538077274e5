import PeerCrawl.Bytes.Basic

set_option autoImplicit false

/-! # Writing fixed-width integers

Words as bytes, in the order in which the wire carries them. -/

namespace PeerCrawl

namespace Wire

def u16le (n : UInt16) : Bytes := Bytes.littleEndian 2 n.toNat

def u16be (n : UInt16) : Bytes := Bytes.bigEndian 2 n.toNat

def u32le (n : UInt32) : Bytes := Bytes.littleEndian 4 n.toNat

def u64le (n : UInt64) : Bytes := Bytes.littleEndian 8 n.toNat

/-- Eight bytes in two's complement. -/
def i64le (n : Int64) : Bytes := u64le n.toUInt64

def bool (b : Bool) : Bytes := [if b then 1 else 0]

end Wire

end PeerCrawl
