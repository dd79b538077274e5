import PeerCrawl.Text.Digits

set_option autoImplicit false

/-! # Service flags

The services that a node offers, one bit each. `Services.text` names the flags it knows in order of
their bits and writes all the others as one hexadecimal number. -/

namespace PeerCrawl

/-- A set of service flags. -/
structure Services where
  bits : UInt64
deriving DecidableEq, Inhabited

namespace Services

/-- No services. -/
def none : Services := ⟨0⟩

/-- The named flags, in the order in which a text lists them. -/
def named : List (UInt64 × String) :=
  [(1, "NETWORK"), (2, "GETUTXO"), (4, "BLOOM"), (8, "WITNESS"), (64, "COMPACT_FILTERS"),
    (1024, "NETWORK_LIMITED"), (2048, "P2P_V2")]

/-- The bits that have no name. -/
def unnamed (s : Services) : UInt64 := named.foldl (fun bits flag => bits &&& ~~~flag.1) s.bits

/-- The names of the flags present, then the unnamed bits. -/
def items (s : Services) : List String :=
  (named.filter fun flag => s.bits &&& flag.1 != 0).map Prod.snd ++
    if s.unnamed = 0 then [] else ["0x" ++ String.ofList (Text.digits 16 s.unnamed.toNat)]

/-- The text of a set of flags. -/
def text (s : Services) : String :=
  "ServiceFlags(" ++ (if s.bits = 0 then "NONE" else "|".intercalate s.items) ++ ")"

end Services

end PeerCrawl
