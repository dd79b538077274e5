import PeerCrawl.Bytes.Basic

set_option autoImplicit false

/-! # UTF-8

`Utf8.encode` writes a text as bytes. `Utf8.decode` reads any byte string as a list of characters
in which every maximal ill-formed prefix counts as one gap; `Utf8.decodeLossy` puts U+FFFD for each
gap, and `Utf8.decode?` accepts only a byte string without gaps. -/

namespace PeerCrawl

namespace Utf8

/-- The bytes of one character: six bits in each byte after the first. -/
def encodeChar (c : Char) : Bytes :=
  let n := c.toNat
  if n < 0x80 then [UInt8.ofNat n]
  else if n < 0x800 then [UInt8.ofNat (0xC0 + n / 64), UInt8.ofNat (0x80 + n % 64)]
  else if n < 0x10000 then
    [UInt8.ofNat (0xE0 + n / 4096), UInt8.ofNat (0x80 + n / 64 % 64), UInt8.ofNat (0x80 + n % 64)]
  else
    [UInt8.ofNat (0xF0 + n / 262144), UInt8.ofNat (0x80 + n / 4096 % 64),
      UInt8.ofNat (0x80 + n / 64 % 64), UInt8.ofNat (0x80 + n % 64)]

/-- The bytes of a text. -/
def encode (s : String) : Bytes := s.toList.flatMap encodeChar

/-- How many bytes follow a first byte, its own bits, and the range that the second byte must lie
in so that no shorter form, surrogate or number above U+10FFFF is written. -/
def lead (b : UInt8) : Option (Nat × Nat × Nat × Nat) :=
  let n := b.toNat
  if n < 0x80 then some (0, n, 0x80, 0xBF)
  else if n < 0xC2 then none
  else if n < 0xE0 then some (1, n - 0xC0, 0x80, 0xBF)
  else if n = 0xE0 then some (2, 0, 0xA0, 0xBF)
  else if n = 0xED then some (2, 0xD, 0x80, 0x9F)
  else if n < 0xF0 then some (2, n - 0xE0, 0x80, 0xBF)
  else if n = 0xF0 then some (3, 0, 0x90, 0xBF)
  else if n < 0xF4 then some (3, n - 0xF0, 0x80, 0xBF)
  else if n = 0xF4 then some (3, 4, 0x80, 0x8F)
  else none

/-- Read `count` continuation bytes, the first of them in the range given. The character is `none`
if one is missing or out of range; what remains then starts at that place. -/
def continuation : (count value low high : Nat) → Bytes → Option Char × Bytes
  | 0, value, _, _, rest => (some (Char.ofNat value), rest)
  | _ + 1, _, _, _, [] => (none, [])
  | count + 1, value, low, high, b :: rest =>
    if low ≤ b.toNat ∧ b.toNat ≤ high then
      continuation count (value * 64 + (b.toNat - 0x80)) 0x80 0xBF rest
    else (none, b :: rest)

theorem length_continuation_le (count value low high : Nat) (b : Bytes) :
    (continuation count value low high b).2.length ≤ b.length := by
  induction count generalizing value low high b with
  | zero => simp [continuation]
  | succ count ih =>
    cases b with
    | nil => simp [continuation]
    | cons x rest =>
      simp only [continuation]
      split
      · exact Nat.le_succ_of_le (ih _ _ _ _)
      · exact Nat.le_refl _

/-- One character or one maximal ill-formed prefix, after the first byte. -/
def step (b : UInt8) (rest : Bytes) : Option Char × Bytes :=
  match lead b with
  | none => (none, rest)
  | some (count, value, low, high) => continuation count value low high rest

theorem length_step_le (b : UInt8) (rest : Bytes) : (step b rest).2.length ≤ rest.length := by
  unfold step
  split
  · exact Nat.le_refl _
  · exact length_continuation_le _ _ _ _ _

/-- The characters of a byte string, with a gap for each maximal ill-formed prefix. -/
def decode : Bytes → List (Option Char)
  | [] => []
  | b :: rest => (step b rest).1 :: decode (step b rest).2
termination_by bytes => bytes.length
decreasing_by exact Nat.lt_succ_of_le (length_step_le b rest)

/-- The text of a byte string, with U+FFFD in each gap. -/
def decodeLossy (b : Bytes) : String :=
  String.ofList ((decode b).map fun c => c.getD '\uFFFD')

/-- The text of a byte string that has no gap. -/
def decode? (b : Bytes) : Option String :=
  ((decode b).mapM id).map String.ofList

end Utf8

end PeerCrawl
