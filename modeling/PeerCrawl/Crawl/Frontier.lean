import PeerCrawl.Crawl.Notice

set_option autoImplicit false

/-! # The frontier of a crawl

Addresses that wait to be dialed, first one first. A host is accepted once in the life of a
frontier, with the address that named it first, whatever becomes of that address later. -/

namespace PeerCrawl

/-- Why a frontier refuses to give addresses. -/
inductive FrontierError where
  | zeroCount
deriving DecidableEq

def FrontierError.message : FrontierError → String
  | .zeroCount => "Drain count must be at least one"

/-- Addresses that wait, and the memory of all that ever did. -/
structure Frontier where
  /-- Every address that was accepted, oldest first. -/
  accepted : List Address := []
  /-- Those of them that nobody has taken yet. -/
  pending : List Address := []
  /-- Whether each accepted address is reported. -/
  reporting : Bool := false

/-- What becomes of an offer. -/
structure Offered where
  /-- Whether the host was new. -/
  fresh : Bool
  frontier : Frontier
  reports : List Report
  notices : List CrawlNotice

/-- What becomes of several offers. -/
structure OfferedAll where
  /-- For each offer whether its host was new. -/
  fresh : List Bool
  frontier : Frontier
  reports : List Report
  notices : List CrawlNotice

namespace Frontier

/-- How many hosts were accepted so far. -/
def seen (f : Frontier) : Nat := f.accepted.length

/-- Whether the host of an address was accepted before. -/
def knows (f : Frontier) (a : Address) : Bool := f.accepted.any (·.sameHost a)

/-- Offer an address. -/
def offer (f : Frontier) (a : Address) : Offered :=
  if f.knows a then
    { fresh := false, frontier := f, reports := [], notices := [.duplicateAddress a] }
  else
    { fresh := true
      frontier := { f with accepted := f.accepted ++ [a], pending := f.pending ++ [a] }
      reports := if f.reporting then [.newAddress a] else []
      notices := [] }

/-- Offer addresses one after the other. -/
def offerAll (f : Frontier) : List Address → OfferedAll
  | [] => { fresh := [], frontier := f, reports := [], notices := [] }
  | a :: rest =>
    let first := f.offer a
    let others := first.frontier.offerAll rest
    { fresh := first.fresh :: others.fresh
      frontier := others.frontier
      reports := first.reports ++ others.reports
      notices := first.notices ++ others.notices }

/-- Take at most `max` addresses from the front. -/
def drain (f : Frontier) (max : Nat) : Except FrontierError (List Address × Frontier) :=
  if max = 0 then .error .zeroCount
  else .ok (f.pending.take max, { f with pending := f.pending.drop max })

/-- The size of a frontier, for diagnostics. -/
def summary (f : Frontier) : String :=
  s!"AddressQueue \x7b pending: {f.pending.length}, seen: {f.seen} \x7d"

end Frontier

end PeerCrawl
