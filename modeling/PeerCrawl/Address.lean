import PeerCrawl.Ip.Basic
import PeerCrawl.Services

set_option autoImplicit false

/-! # Addresses

An address is an endpoint that may carry the services and the time with which it was advertised.
A host is the sixteen byte form of its IP address alone: `sameHost` and `compareHost` ignore port,
scope, services and time, so that a crawl visits each host once. -/

namespace PeerCrawl

/-- Where a peer can be reached, and what was advertised with it. -/
structure Address where
  raw : Octets 16
  port : UInt16
  scope : UInt32 := 0
  services : Option Services := none
  time : Option UInt32 := none
deriving DecidableEq

/-- Lexicographic order on byte strings. -/
def Bytes.compare : Bytes → Bytes → Ordering
  | [], [] => .eq
  | [], _ :: _ => .lt
  | _ :: _, [] => .gt
  | x :: xs, y :: ys => if x < y then .lt else if y < x then .gt else Bytes.compare xs ys

namespace Address

/-- The address of an IP address and a port. -/
def ofIp (ip : Ip) (port : UInt16) : Address := { raw := ip.octets16, port }

/-- The address of an endpoint, which keeps the scope. -/
def ofEndpoint (e : Endpoint) : Address := { raw := e.ip.octets16, port := e.port, scope := e.scope }

/-- The unspecified version 4 address. -/
def unspecified : Address := ofIp (.v4 (Octets.zero 4)) 0

def withServices (a : Address) (services : Services) : Address := { a with services := some services }

def withTime (a : Address) (time : UInt32) : Address := { a with time := some time }

/-- The services advertised, none when they are not known. -/
def servicesOrNone (a : Address) : Services := a.services.getD Services.none

def isIpv4 (a : Address) : Bool := Ip.isMapped a.raw

def ip (a : Address) : Ip := Ip.ofOctets16 a.raw

/-- The endpoint to connect to. -/
def endpoint (a : Address) : Endpoint :=
  match a.ip with
  | .v4 o => .v4 o a.port
  | .v6 o => .v6 o a.port 0 a.scope

/-- Whether two addresses name one host. -/
def sameHost (a b : Address) : Bool := a.raw == b.raw

/-- The order of hosts, by their bytes. -/
def compareHost (a b : Address) : Ordering := a.raw.bytes.compare b.raw.bytes

/-- The text of an address: a version 6 address stands in brackets, and the scope is left out. -/
def chars (a : Address) : List Char :=
  match a.ip with
  | .v4 o => (Ip.v4 o).chars ++ ':' :: Text.digits 10 a.port.toNat
  | .v6 o => '[' :: (Ip.v6 o).chars ++ [']', ':'] ++ Text.digits 10 a.port.toNat

/-- The text of an address. -/
def text (a : Address) : String := String.ofList a.chars

end Address

end PeerCrawl
