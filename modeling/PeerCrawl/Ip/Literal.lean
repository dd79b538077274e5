import PeerCrawl.Ip.Basic

set_option autoImplicit false

/-! # Reading IP addresses

`Ip.ofText?` reads the text of an address of either version. Decimal parts have at most three
digits and no leading zero; a version 6 address has eight groups of at most four hexadecimal
digits, of which two colons may stand for any number of zero groups from one on, and its last two
groups may be written as a version 4 address. -/

namespace PeerCrawl

namespace Ip

/-- Split a text at every occurrence of a separator. -/
def splitAt (separator : Char) : List Char → List (List Char)
  | [] => [[]]
  | c :: rest =>
    if c = separator then [] :: splitAt separator rest
    else match splitAt separator rest with
      | [] => [[c]]
      | part :: parts => (c :: part) :: parts

/-- One part of a dotted address. -/
def decimalPart? (cs : List Char) : Option UInt8 :=
  if cs.length > 3 ∨ (cs.length > 1 ∧ cs.head? = some '0') then none
  else (Text.ofDigits? 10 cs).bind fun n => if n < 256 then some (UInt8.ofNat n) else none

/-- The four bytes of a dotted address. -/
def dotted? (cs : List Char) : Option (Octets 4) :=
  ((splitAt '.' cs).mapM decimalPart?).bind (Octets.ofBytes? 4)

/-- The two bytes of one group. -/
def group? (cs : List Char) : Option Bytes :=
  if cs.length > 4 then none else (Text.ofDigits? 16 cs).map (Bytes.bigEndian 2)

/-- The bytes of groups with colons between them. The last group may be a dotted address where
`dottedEnd` allows it. -/
def groups? (dottedEnd : Bool) : List (List Char) → Option Bytes
  | [] => some []
  | [last] => group? last <|> (if dottedEnd then (dotted? last).map Octets.bytes else none)
  | cs :: rest => do
    let g ← group? cs
    let gs ← groups? dottedEnd rest
    return g ++ gs

/-- The bytes of a possibly empty side of the two colons. -/
def side? (dottedEnd : Bool) (cs : List Char) : Option Bytes :=
  if cs.isEmpty then some [] else groups? dottedEnd (splitAt ':' cs)

/-- The text before and after the first two colons in a row. -/
def splitAtGap : List Char → Option (List Char × List Char)
  | ':' :: ':' :: rest => some ([], rest)
  | c :: rest => (splitAtGap rest).map fun (before, after) => (c :: before, after)
  | [] => none

/-- The sixteen bytes of a version 6 address. -/
def colon? (cs : List Char) : Option (Octets 16) :=
  match splitAtGap cs with
  | none => (groups? true (splitAt ':' cs)).bind (Octets.ofBytes? 16)
  | some (before, after) => do
    let front ← side? false before
    let back ← side? true after
    let zeros := List.replicate (16 - front.length - back.length) 0
    if front.length + back.length > 14 then none else Octets.ofBytes? 16 (front ++ zeros ++ back)

/-- The address that a text writes. -/
def ofText? (s : String) : Option Ip :=
  ((dotted? s.toList).map v4) <|> ((colon? s.toList).map v6)

end Ip

end PeerCrawl
