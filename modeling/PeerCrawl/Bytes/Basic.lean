set_option autoImplicit false

/-! # Byte strings and fixed-width integers

A byte string is a list of bytes. `littleEndian` and `bigEndian` write a number into a field of a
given width, and `ofLittleEndian` and `ofBigEndian` read it back: `length_littleEndian` says how
much is written, and `littleEndian_ofLittleEndian` that every field is the writing of the number it
holds. -/

namespace PeerCrawl

/-- A string of bytes, first byte first. -/
abbrev Bytes := List UInt8

/-- Whether a list has fewer than `n` members, of which no more are looked at. -/
def isShorter {α : Type} : List α → (n : Nat) → Bool
  | _, 0 => false
  | [], _ + 1 => true
  | _ :: rest, n + 1 => isShorter rest n

theorem isShorter_iff {α : Type} {l : List α} {n : Nat} : isShorter l n = true ↔ l.length < n := by
  induction l generalizing n with
  | nil => cases n <;> simp [isShorter]
  | cons x rest ih => cases n <;> simp [isShorter, ih]

/-- A byte string of exactly `n` bytes. -/
structure Octets (n : Nat) where
  bytes : Bytes
  length_eq : bytes.length = n
deriving DecidableEq

namespace Octets

/-- `n` zero bytes. -/
def zero (n : Nat) : Octets n := ⟨List.replicate n 0, List.length_replicate⟩

/-- The bytes as an `Octets n`, if there are exactly `n` of them. -/
def ofBytes? (n : Nat) (b : Bytes) : Option (Octets n) :=
  if h : b.length = n then some ⟨b, h⟩ else none

theorem ext_bytes {n : Nat} {a b : Octets n} (h : a.bytes = b.bytes) : a = b := by
  cases a; cases b; cases h; rfl

end Octets

namespace Bytes

/-- The number written least significant byte first. -/
def ofLittleEndian : Bytes → Nat
  | [] => 0
  | b :: rest => b.toNat + 256 * ofLittleEndian rest

/-- The low `width` bytes of a number, least significant byte first. -/
def littleEndian : (width : Nat) → Nat → Bytes
  | 0, _ => []
  | width + 1, n => UInt8.ofNat n :: littleEndian width (n / 256)

/-- The number written most significant byte first. -/
def ofBigEndian (b : Bytes) : Nat := ofLittleEndian b.reverse

/-- The low `width` bytes of a number, most significant byte first. -/
def bigEndian (width n : Nat) : Bytes := (littleEndian width n).reverse

@[simp] theorem length_littleEndian (width n : Nat) : (littleEndian width n).length = width := by
  induction width generalizing n with
  | zero => rfl
  | succ width ih => simp [littleEndian, ih]

@[simp] theorem length_bigEndian (width n : Nat) : (bigEndian width n).length = width := by
  simp [bigEndian]

/-- Every field is the writing of the number it holds. -/
theorem littleEndian_ofLittleEndian (b : Bytes) :
    littleEndian b.length (ofLittleEndian b) = b := by
  induction b with
  | nil => rfl
  | cons x rest ih =>
    have hx : x.toNat < 256 := x.toNat_lt
    have hdiv : (x.toNat + 256 * ofLittleEndian rest) / 256 = ofLittleEndian rest := by omega
    have hmod : UInt8.ofNat (x.toNat + 256 * ofLittleEndian rest) = x := by
      apply UInt8.toNat_inj.1
      rw [UInt8.toNat_ofNat']
      omega
    simp [littleEndian, ofLittleEndian, hdiv, hmod, ih]

theorem bigEndian_ofBigEndian (b : Bytes) : bigEndian b.length (ofBigEndian b) = b := by
  have h := littleEndian_ofLittleEndian b.reverse
  rw [List.length_reverse] at h
  simp [ofBigEndian, bigEndian, h]

end Bytes

end PeerCrawl
