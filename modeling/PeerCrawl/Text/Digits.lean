set_option autoImplicit false

/-! # Numbers as digits

`digits base n` is a number in base ten or sixteen, without leading zeros, and `ofDigits?` reads
digits back. -/

namespace PeerCrawl

namespace Text

/-- The lower-case digit of a number below sixteen. -/
def digit (n : Nat) : Char :=
  if n < 10 then Char.ofNat (48 + n) else Char.ofNat (87 + n)

/-- The value of a digit of either case, below sixteen. -/
def digitValue? (c : Char) : Option Nat :=
  let n := c.toNat
  if 48 ≤ n ∧ n ≤ 57 then some (n - 48)
  else if 97 ≤ n ∧ n ≤ 102 then some (n - 87)
  else if 65 ≤ n ∧ n ≤ 70 then some (n - 55)
  else none

/-- A number written in a base, without leading zeros. -/
def digits (base n : Nat) : List Char :=
  if _h : 2 ≤ base ∧ base ≤ n then digits base (n / base) ++ [digit (n % base)] else [digit n]
termination_by n
decreasing_by exact Nat.div_lt_self (by omega) (by omega)

/-- The value of one digit in a base. -/
def digitIn? (base : Nat) (c : Char) : Option Nat :=
  (digitValue? c).filter (· < base)

/-- The number that a run of digits writes after `value`. -/
def ofDigitsFrom? (base : Nat) : (value : Nat) → List Char → Option Nat
  | value, [] => some value
  | value, c :: rest => (digitIn? base c).bind fun d => ofDigitsFrom? base (value * base + d) rest

/-- The number that a non-empty run of digits writes. -/
def ofDigits? (base : Nat) : List Char → Option Nat
  | [] => none
  | cs => ofDigitsFrom? base 0 cs

end Text

end PeerCrawl
