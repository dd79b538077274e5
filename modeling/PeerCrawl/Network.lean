import PeerCrawl.Bytes.Hex

set_option autoImplicit false

/-! # Networks

The networks a crawl can run on: the magic that starts every frame of the network, its usual port,
and the hosts that seed a crawl of the main network. -/

namespace PeerCrawl

/-- The four bytes that start every frame of a network. -/
abbrev Magic := Octets 4

/-- The text of a magic, in the order of its bytes. -/
def Magic.text (magic : Magic) : String := magic.bytes.toHex

/-- A network of peers. -/
inductive Network where
  | bitcoin
  | testnet
  | testnet4
  | signet
  | regtest
deriving DecidableEq

namespace Network

def all : List Network := [bitcoin, testnet, testnet4, signet, regtest]

def name : Network → String
  | bitcoin => "bitcoin"
  | testnet => "testnet"
  | testnet4 => "testnet4"
  | signet => "signet"
  | regtest => "regtest"

def magic : Network → Magic
  | bitcoin => ⟨[0xF9, 0xBE, 0xB4, 0xD9], rfl⟩
  | testnet => ⟨[0x0B, 0x11, 0x09, 0x07], rfl⟩
  | testnet4 => ⟨[0x1C, 0x16, 0x3F, 0x28], rfl⟩
  | signet => ⟨[0x0A, 0x03, 0xCF, 0x40], rfl⟩
  | regtest => ⟨[0xFA, 0xBF, 0xB5, 0xDA], rfl⟩

/-- The port that nodes of the network listen on. -/
def defaultPort : Network → UInt16
  | bitcoin => 8333
  | testnet => 18333
  | testnet4 => 48333
  | signet => 38333
  | regtest => 18444

/-- Hosts that answer with addresses of the main network. -/
def seedHosts : List String :=
  ["seed.bitcoin.sipa.be", "dnsseed.bluematt.me", "dnsseed.bitcoin.dashjr.org",
    "seed.bitcoinstats.com", "seed.bitcoin.jonasschnelli.ch", "seed.btc.petertodd.org",
    "seed.bitcoin.sprovoost.nl"]

end Network

end PeerCrawl
