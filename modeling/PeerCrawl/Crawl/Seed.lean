import PeerCrawl.Crawl.Frontier
import PeerCrawl.Ip.Literal

set_option autoImplicit false

/-! # Seeding a crawl

A crawl starts from the addresses that well-known hosts resolve to. A host that is written as an IP
address resolves to itself; a `Resolver` knows the others. -/

namespace PeerCrawl

/-- What a host resolves to. -/
abbrev Resolver := String → Except IoError (List Ip)

/-- The resolver that knows no name. -/
def Resolver.literalOnly : Resolver := fun _ => .error .invalidInput

/-- What seeding a frontier comes to. -/
structure Seeded where
  /-- How many addresses were new. -/
  added : Nat
  frontier : Frontier
  reports : List Report
  notices : List CrawlNotice

namespace Seed

/-- The addresses of a host on a port. -/
def resolve (resolver : Resolver) (host : String) (port : UInt16) :
    List Address × List CrawlNotice :=
  match Ip.ofText? host with
  | some ip => ([Address.ofIp ip port], [])
  | none =>
    match resolver host with
    | .ok ips => (ips.map fun ip => Address.ofIp ip port, [])
    | .error e => ([], [.seedFailed host e])

/-- Offer the addresses of hosts, one host after the other. -/
def offerHosts (resolver : Resolver) (port : UInt16) (f : Frontier) : List String → Seeded
  | [] => { added := 0, frontier := f, reports := [], notices := [] }
  | host :: rest =>
    let (addresses, failures) := resolve resolver host port
    let offered := f.offerAll addresses
    let others := offerHosts resolver port offered.frontier rest
    { added := offered.fresh.count true + others.added
      frontier := others.frontier
      reports := offered.reports ++ others.reports
      notices := failures ++ .seedResolved host addresses.length :: offered.notices ++
        others.notices }

/-- Fill a frontier from hosts. -/
def fill (resolver : Resolver) (f : Frontier) (hosts : List String) (port : UInt16) : Seeded :=
  let seeded := offerHosts resolver port f hosts
  { seeded with notices := seeded.notices ++ [.seeded seeded.added hosts.length] }

end Seed

end PeerCrawl
