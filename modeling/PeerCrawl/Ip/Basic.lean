import PeerCrawl.Bytes.Basic
import PeerCrawl.Text.Digits

set_option autoImplicit false

/-! # IP addresses

An IP address of either version, its sixteen byte form, and its text. The text of a version 6
address has lower-case groups without leading zeros, and its longest run of at least two zero
groups, the first of equally long ones, is written as two colons. -/

namespace PeerCrawl

/-- An IP address. -/
inductive Ip where
  | v4 (octets : Octets 4)
  | v6 (octets : Octets 16)
deriving DecidableEq

/-- What a socket is bound or connected to: an IP address, a port, and for version 6 the flow label
and the scope. -/
inductive Endpoint where
  | v4 (octets : Octets 4) (port : UInt16)
  | v6 (octets : Octets 16) (port : UInt16) (flow scope : UInt32)
deriving DecidableEq

namespace Ip

/-- The first twelve bytes of the sixteen byte form of a version 4 address. -/
def mappedLead : Bytes := [0, 0, 0, 0, 0, 0, 0, 0, 0, 0, 0xFF, 0xFF]

/-- The sixteen byte form: a version 4 address lies in the mapped range `::ffff:0:0/96`. -/
def octets16 : Ip → Octets 16
  | v4 o => ⟨mappedLead ++ o.bytes, by simp [mappedLead, o.length_eq]⟩
  | v6 o => o

/-- Whether a sixteen byte form lies in the mapped range. -/
def isMapped (raw : Octets 16) : Bool := raw.bytes.take 12 == mappedLead

/-- The address with a sixteen byte form: the mapped range holds the version 4 addresses. -/
def ofOctets16 (raw : Octets 16) : Ip :=
  if isMapped raw then v4 ⟨raw.bytes.drop 12, by simp [raw.length_eq]⟩ else v6 raw

/-- Four decimal numbers with points between them. -/
def dotted (octets : Bytes) : List Char :=
  ['.'].intercalate (octets.map fun b => Text.digits 10 b.toNat)

/-- Pairs of bytes as numbers. -/
def groups : Bytes → List Nat
  | hi :: lo :: rest => (256 * hi.toNat + lo.toNat) :: groups rest
  | _ => []

/-- The length of the run of zeros that starts at a place. -/
def zeroRun (gs : List Nat) (start : Nat) : Nat := ((gs.drop start).takeWhile (· = 0)).length

/-- The first place at which a longest run of zeros starts. -/
def longestZeroRun (gs : List Nat) : Nat :=
  (List.range gs.length).foldl (fun best i => if zeroRun gs best < zeroRun gs i then i else best) 0

/-- Groups in hexadecimal with colons between them. -/
def colonSeparated (gs : List Nat) : List Char :=
  [':'].intercalate (gs.map (Text.digits 16))

/-- Groups with the longest run of at least two zeros left out. -/
def compressed (gs : List Nat) : List Char :=
  let start := longestZeroRun gs
  let run := zeroRun gs start
  if run < 2 then colonSeparated gs
  else colonSeparated (gs.take start) ++ [':', ':'] ++ colonSeparated (gs.drop (start + run))

/-- The text of an address. The text of a version 6 address in the mapped range would end in four
decimal numbers, which is left out here: `ofOctets16` takes that range for version 4, so the text of
an `Address` never asks for it. -/
def chars : Ip → List Char
  | v4 o => dotted o.bytes
  | v6 o => compressed (groups o.bytes)

/-- The text of an address. -/
def text (ip : Ip) : String := String.ofList ip.chars

end Ip

namespace Endpoint

def ip : Endpoint → Ip
  | v4 o _ => .v4 o
  | v6 o _ _ _ => .v6 o

def port : Endpoint → UInt16
  | v4 _ p => p
  | v6 _ p _ _ => p

/-- The scope, zero for version 4. -/
def scope : Endpoint → UInt32
  | v4 _ _ => 0
  | v6 _ _ _ s => s

/-- Address and port; a version 6 address stands in brackets, with its scope when it has one. -/
def text : Endpoint → String
  | v4 o p => s!"{(Ip.v4 o).text}:{p.toNat}"
  | v6 o p _ s =>
    if s = 0 then s!"[{(Ip.v6 o).text}]:{p.toNat}" else s!"[{(Ip.v6 o).text}%{s.toNat}]:{p.toNat}"

end Endpoint

end PeerCrawl
