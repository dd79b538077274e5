import PeerCrawl.Crawl.Frontier
import PeerCrawl.Crawl.NetworkStack
import PeerCrawl.Crawl.Roster

set_option autoImplicit false

/-! # Crawls

A crawl is the frontier of addresses that wait, the roster of connections that are live, and the
network stack below them. It works in turns (`PeerCrawl.Crawl.Turn`), each of which admits new
connections (`PeerCrawl.Crawl.Admission`) and dispatches the notifications of a wait to live ones
(`PeerCrawl.Crawl.Dispatch`). Here are its state and the steps that all of these share. -/

namespace PeerCrawl

/-- The limits that a crawl keeps. -/
structure CrawlLimits where
  /-- How many connections may be open; one may always be. -/
  maxConnections : Nat
  /-- How many addresses a turn dials at most. -/
  batchSize : Nat
  /-- How long a turn waits for readiness at most. -/
  pollTimeout : Duration
  /-- How much time passes at least between two status lines. -/
  statusInterval : Duration
deriving DecidableEq

/-- The limits, for diagnostics. -/
def CrawlLimits.summary (l : CrawlLimits) : String :=
  s!"EngineSettings \x7b max_connections: {l.maxConnections}, batch_size: {l.batchSize}, poll_timeout: {l.pollTimeout.text}, status_interval: {l.statusInterval.text} \x7d"

/-- A call that hands on one thing that a peer told. -/
inductive Handover where
  /-- A handshake goes to the reports. -/
  | report (handshake : Handshake)
  /-- An address goes to the frontier. -/
  | offer (address : Address)
deriving DecidableEq

/-- A crawl in progress. -/
structure Crawl where
  config : Configuration
  limits : CrawlLimits
  frontier : Frontier := {}
  net : NetworkStack := {}
  roster : Roster := {}
  /-- The connections that are watched for writability. -/
  writeWatched : List Tag := []
  /-- The buffer of the last wait. -/
  readiness : List Readiness := []
  /-- What connections have told and nobody has harvested yet. -/
  events : List PeerEvent := []
  /-- Every call so far that handed on what a peer told. -/
  handed : List Handover := []
  /-- When the last status line was written. -/
  lastStatus : Nat := 0
  /-- The results that nobody has taken yet. -/
  reports : List Report := []
  /-- Every line of the log. -/
  notices : List CrawlNotice := []

namespace Crawl

/-- Write a line of the log. -/
def note (c : Crawl) (notice : CrawlNotice) : Crawl := { c with notices := c.notices ++ [notice] }

/-- Write the lines of one connection. -/
def noteAll (c : Crawl) (notices : List ConnectionNotice) : Crawl :=
  { c with notices := c.notices ++ notices.map .connection }

/-- How many connections are live. -/
def connectionCount (c : Crawl) : Nat := c.roster.count

/-- Offer an address to the frontier. -/
def offer (c : Crawl) (a : Address) : Crawl :=
  let offered := c.frontier.offer a
  { c with
    frontier := offered.frontier
    reports := c.reports ++ offered.reports
    notices := c.notices ++ offered.notices }

/-- Close the connection with a tag, if it is live. -/
def close (c : Crawl) (tag : Tag) : Crawl :=
  let c := { c with writeWatched := c.writeWatched.erase tag }
  match c.roster.remove tag with
  | (none, _) => c
  | (some connection, roster) =>
    let (failure, net) := c.net.request (.deregister connection.socket.number)
    let c := { c with roster, net := net.close connection.socket }
    match failure with
    | none => c
    | some error => c.note (.deregistrationFailed connection.peer error)

/-- The crawl in one line, for diagnostics. -/
def summary (c : Crawl) : String :=
  s!"Engine \x7b connections: {c.roster.count}, settings: {c.limits.summary}, queue: {c.frontier.summary} \x7d"

end Crawl

end PeerCrawl
