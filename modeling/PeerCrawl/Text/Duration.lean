set_option autoImplicit false

/-! # Durations

A length of time in nanoseconds, written in the largest unit of which it holds at least one, with
as many decimal places as it needs. -/

namespace PeerCrawl

/-- A length of time. -/
structure Duration where
  nanoseconds : Nat
deriving DecidableEq, Inhabited

namespace Duration

def ofSeconds (n : Nat) : Duration := ⟨n * 1000000000⟩

def ofMilliseconds (n : Nat) : Duration := ⟨n * 1000000⟩

/-- Full milliseconds. -/
def milliseconds (d : Duration) : Nat := d.nanoseconds / 1000000

/-- The `places` decimal digits of a number, without the zeros at their end. -/
def fractionDigits : (places : Nat) → Nat → List Char
  | 0, _ => []
  | places + 1, n =>
    if n = 0 then []
    else Nat.digitChar (n / 10 ^ places) :: fractionDigits places (n % 10 ^ places)

/-- A number of units and the billionths, millionths or thousandths that `places` digits count. -/
def decimal (whole places fraction : Nat) : String :=
  if fraction = 0 then toString whole
  else toString whole ++ "." ++ String.ofList (fractionDigits places fraction)

/-- The duration in its largest unit. -/
def text (d : Duration) : String :=
  let n := d.nanoseconds
  if n ≥ 1000000000 then decimal (n / 1000000000) 9 (n % 1000000000) ++ "s"
  else if n ≥ 1000000 then decimal (n / 1000000) 6 (n % 1000000) ++ "ms"
  else if n ≥ 1000 then decimal (n / 1000) 3 (n % 1000) ++ "µs"
  else decimal n 0 0 ++ "ns"

end Duration

end PeerCrawl
