import Mathlib.Tactic.IntervalCases
import PeerCrawl.Text.Utf8

set_option autoImplicit false

/-! # What UTF-8 writes can be read

Reading the bytes of a text gives its characters without a gap (`decode_encode`), and so the text
itself (`decodeLossy_encode`, `decode?_encode`). The three cases of a character of more than one
byte differ in how many bytes follow the first and in the range that the second byte must lie in.
Bytes below 0x80 are the writing of a text (`encode_ascii`). -/

namespace PeerCrawl

namespace Utf8

/-- The number of a character is no surrogate and not above U+10FFFF. -/
theorem toNat_valid (c : Char) : c.toNat < 0xD800 ∨ 0xDFFF < c.toNat ∧ c.toNat < 0x110000 := c.valid

/-! ## First bytes -/

theorem lead_of_lt {b : UInt8} {n : Nat} (hb : b.toNat = n) (hn : n < 0x80) :
    lead b = some (0, n, 0x80, 0xBF) := by
  simp only [lead, hb, if_pos hn]

theorem lead_two {b : UInt8} {k : Nat} (hb : b.toNat = 0xC0 + k) (hlow : 2 ≤ k) (hk : k < 32) :
    lead b = some (1, k, 0x80, 0xBF) := by
  have h₁ : ¬ 0xC0 + k < 0x80 := by omega
  have h₂ : ¬ 0xC0 + k < 0xC2 := by omega
  have h₃ : 0xC0 + k < 0xE0 := by omega
  simp only [lead, hb, if_neg h₁, if_neg h₂, if_pos h₃, Nat.add_sub_cancel_left]

theorem lead_three {b : UInt8} {k : Nat} (hb : b.toNat = 0xE0 + k) (hk : k < 16) :
    lead b =
      some (2, k, if k = 0 then 0xA0 else 0x80, if k = 0xD then 0x9F else 0xBF) := by
  interval_cases k <;> simp [lead, hb]

theorem lead_four {b : UInt8} {k : Nat} (hb : b.toNat = 0xF0 + k) (hk : k < 5) :
    lead b = some (3, k, if k = 0 then 0x90 else 0x80, if k = 4 then 0x8F else 0xBF) := by
  interval_cases k <;> simp [lead, hb]

/-! ## The bytes after the first -/

theorem continuation_cons {count value low high : Nat} {b : UInt8} {rest : Bytes} {k : Nat}
    (hb : b.toNat = 0x80 + k) (hlow : low ≤ 0x80 + k) (hhigh : 0x80 + k ≤ high) :
    continuation (count + 1) value low high (b :: rest) =
      continuation count (value * 64 + k) 0x80 0xBF rest := by
  simp only [continuation, hb, hlow, hhigh, and_self, if_true, Nat.add_sub_cancel_left]

theorem toNat_ofNat_byte {n : Nat} (h : n < 256) : (UInt8.ofNat n).toNat = n :=
  UInt8.toNat_ofNat_of_lt' h

theorem decode_of_lead {b : UInt8} {rest : Bytes} {count value low high : Nat}
    (h : lead b = some (count, value, low, high)) :
    decode (b :: rest) = (continuation count value low high rest).1 ::
      decode (continuation count value low high rest).2 := by
  rw [decode, step, h]

/-- A character is read back from its bytes. -/
theorem decode_encodeChar (c : Char) (rest : Bytes) :
    decode (encodeChar c ++ rest) = some c :: decode rest := by
  have hvalid := toNat_valid c
  have hc : Char.ofNat c.toNat = c := Char.ofNat_toNat c
  simp only [encodeChar]
  generalize c.toNat = n at hvalid hc ⊢
  -- one case for each number of bytes; surrogates are ruled out where the second byte is bounded
  rcases Nat.lt_or_ge n 0x80 with h₁ | h₁
  · rw [if_pos h₁, List.singleton_append,
      decode_of_lead (lead_of_lt (toNat_ofNat_byte (by omega)) h₁)]
    simp only [continuation, hc]
  rw [if_neg (by omega)]
  rcases Nat.lt_or_ge n 0x800 with h₂ | h₂
  · have hvalue : n / 64 * 64 + n % 64 = n := by omega
    rw [if_pos h₂, List.cons_append, List.singleton_append,
      decode_of_lead (lead_two (toNat_ofNat_byte (by omega)) (by omega) (by omega)),
      continuation_cons (toNat_ofNat_byte (by omega)) (by omega) (by omega), hvalue]
    simp only [continuation, hc]
  rw [if_neg (by omega)]
  rcases Nat.lt_or_ge n 0x10000 with h₃ | h₃
  · have hvalue : (n / 4096 * 64 + n / 64 % 64) * 64 + n % 64 = n := by omega
    rw [if_pos h₃, List.cons_append, List.cons_append, List.singleton_append,
      decode_of_lead (lead_three (toNat_ofNat_byte (by omega)) (by omega)),
      continuation_cons (toNat_ofNat_byte (by omega)) (by split <;> omega) (by split <;> omega),
      continuation_cons (toNat_ofNat_byte (by omega)) (by omega) (by omega), hvalue]
    simp only [continuation, hc]
  · have hvalue :
        ((n / 262144 * 64 + n / 4096 % 64) * 64 + n / 64 % 64) * 64 + n % 64 = n := by omega
    rw [if_neg (by omega), List.cons_append, List.cons_append, List.cons_append,
      List.singleton_append,
      decode_of_lead (lead_four (toNat_ofNat_byte (by omega)) (by omega)),
      continuation_cons (toNat_ofNat_byte (by omega)) (by split <;> omega) (by split <;> omega),
      continuation_cons (toNat_ofNat_byte (by omega)) (by omega) (by omega),
      continuation_cons (toNat_ofNat_byte (by omega)) (by omega) (by omega), hvalue]
    simp only [continuation, hc]

/-! ## Texts -/

theorem decode_flatMap_encodeChar (cs : List Char) :
    decode (cs.flatMap encodeChar) = cs.map some := by
  induction cs with
  | nil => rw [List.flatMap_nil, decode, List.map_nil]
  | cons c rest ih => rw [List.flatMap_cons, decode_encodeChar, ih, List.map_cons]

/-- The bytes of a text have no gap. -/
theorem decode_encode (s : String) : decode (encode s) = s.toList.map some :=
  decode_flatMap_encodeChar s.toList

theorem decodeLossy_encode (s : String) : decodeLossy (encode s) = s := by
  rw [decodeLossy, decode_encode, List.map_map]
  have hid : ((fun c : Option Char => c.getD '\uFFFD') ∘ some) = id := rfl
  rw [hid, List.map_id, String.ofList_toList]

theorem decode?_encode (s : String) : decode? (encode s) = some s := by
  have hall : ∀ cs : List Char, (cs.map some).mapM id = some cs := by
    intro cs
    induction cs with
    | nil => rfl
    | cons c rest ih =>
      rw [List.map_cons, List.mapM_cons, ih]
      rfl
  rw [decode?, decode_encode, hall, Option.map_some, String.ofList_toList]

/-! ## Bytes that are characters -/

/-- The text whose characters have the numbers of the bytes. -/
def ascii (b : Bytes) : String := String.ofList (b.map fun x => Char.ofNat x.toNat)

theorem encodeChar_ascii {x : UInt8} (h : x.toNat < 0x80) :
    encodeChar (Char.ofNat x.toNat) = [x] := by
  have hvalid : x.toNat.isValidChar := .inl (Nat.lt_trans h (by decide))
  have hnumber : (Char.ofNat x.toNat).toNat = x.toNat := by
    rw [Char.ofNat, dif_pos hvalid]
    rfl
  simp only [encodeChar, hnumber, if_pos h, UInt8.ofNat_toNat]

theorem encode_ascii {b : Bytes} (h : ∀ x ∈ b, x.toNat < 0x80) : encode (ascii b) = b := by
  rw [encode, ascii, String.toList_ofList]
  induction b with
  | nil => rfl
  | cons x rest ih =>
    rw [List.map_cons, List.flatMap_cons, encodeChar_ascii (h x List.mem_cons_self),
      ih fun y hy => h y (List.mem_cons_of_mem x hy), List.singleton_append]

end Utf8

end PeerCrawl
