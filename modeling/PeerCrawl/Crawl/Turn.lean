import PeerCrawl.Crawl.Admission
import PeerCrawl.Crawl.Dispatch
import PeerCrawl.Crawl.Error

set_option autoImplicit false

/-! # Turns

A crawl proceeds by turns. Each dials a batch of the frontier, waits for readiness, and dispatches
what the wait found. Addresses that peers tell during a turn go to the frontier, so a later turn
dials them. A turn fails as a whole only if it has no batch or if the wait fails. -/

namespace PeerCrawl.Crawl

/-- Write a status line, if the last one is old enough. -/
def logStatus (c : Crawl) : Crawl :=
  if c.net.clock - c.lastStatus < c.limits.statusInterval.nanoseconds then c
  else { c with lastStatus := c.net.clock }.note
    (.status c.roster.count c.frontier.pending.length c.frontier.seen)

/-- Dial a batch, wait, and dispatch what is ready. The result says how many notifications there
were. -/
def turn (c : Crawl) : Except CrawlError Nat × Crawl :=
  match c.frontier.drain c.limits.batchSize with
  | .error error => (.error (.frontier error), c)
  | .ok (batch, frontier) =>
    let c := batch.foldl connect { c with frontier }
    let capacity := max c.roster.count 1
    let (failure, buffer, net) := c.net.wait c.readiness capacity c.limits.pollTimeout
    match failure with
    | some error => (.error (.wait error), { c with net, readiness := buffer })
    | none =>
      let c := buffer.foldl dispatch { c with net, readiness := [] }
      (.ok buffer.length, c.logStatus)

/-- Take so many turns, unless one of them fails. -/
def turns (c : Crawl) : (count : Nat) → Except CrawlError Unit × Crawl
  | 0 => (.ok (), c)
  | count + 1 =>
    match c.turn with
    | (.error error, c) => (.error error, c)
    | (.ok _, c) => c.turns count

/-- Crawl until told to stop, which happens during the wait of the last of `count` turns, or until
a turn fails. -/
def run (c : Crawl) (count : Nat) : Except CrawlError Unit × Crawl :=
  let c := c.note (.crawlStarted c.limits.maxConnections)
  match c.turns count with
  | (.error error, c) => (.error error, c)
  | (.ok (), c) => (.ok (), c.note (.crawlStopped c.roster.count c.frontier.seen))

end PeerCrawl.Crawl
