import PeerCrawl.Connection.Error
import PeerCrawl.Connection.Notice
import PeerCrawl.Crawl.Report

set_option autoImplicit false

/-! # What a crawl tells

The lines of the log of a whole crawl. -/

namespace PeerCrawl

/-- The name of a live connection; it is never given to another one. -/
structure Tag where
  number : Nat
deriving DecidableEq

def Tag.text (tag : Tag) : String := s!"Tag({tag.number})"

/-- A line of the log. -/
inductive CrawlNotice where
  | connection (notice : ConnectionNotice)
  | duplicateAddress (address : Address)
  | crawlStarted (maxConnections : Nat)
  | crawlStopped (connections seen : Nat)
  | status (connections queued seen : Nat)
  | evicting (tag : Tag)
  | dialFailed (address : Address) (error : ConnectionError)
  | dialing (address : Address) (tag : Tag)
  | registrationFailed (address : Address) (error : IoError)
  | interestFailed (peer : Address) (error : IoError)
  | deregistrationFailed (peer : Address) (error : IoError)
  | staleReadiness (tag : Tag)
  | gossiped (peer : Address) (offered added : Nat)
  | peerClosed (peer : Address)
  | dropped (peer : Address) (error : ConnectionError)
  | reported (report : Report)
  | reportsDropped (count : Nat) (error : ReportError)
  | seedFailed (host : String) (error : IoError)
  | seedResolved (host : String) (addresses : Nat)
  | seeded (added hosts : Nat)

namespace CrawlNotice

def level : CrawlNotice → LogLevel
  | connection notice => notice.level
  | duplicateAddress .. | dialing .. | staleReadiness .. => .trace
  | evicting .. | dialFailed .. | gossiped .. | peerClosed .. | dropped .. | seedResolved .. =>
    .debug
  | crawlStarted .. | crawlStopped .. | status .. | reported .. | seeded .. => .info
  | registrationFailed .. | interestFailed .. | deregistrationFailed .. | reportsDropped ..
  | seedFailed .. => .warn

def message : CrawlNotice → String
  | connection notice => notice.message
  | duplicateAddress address => s!"Duplicate address {address.text}"
  | crawlStarted maxConnections => s!"Starting crawl with up to {maxConnections} connections"
  | crawlStopped connections seen =>
    s!"Crawl stopped with {connections} connections open, {seen} addresses seen"
  | status connections queued seen =>
    s!"{connections} connections open, {queued} addresses queued, {seen} seen"
  | evicting tag => s!"Connection limit reached, evicting {tag.text}"
  | dialFailed address error => s!"Failed to connect to {address.text}: {error.message}"
  | dialing address tag => s!"Dialing {address.text} as {tag.text}"
  | registrationFailed address error => s!"Failed to register {address.text}: {error.message}"
  | interestFailed peer error => s!"Failed to update interest of {peer.text}: {error.message}"
  | deregistrationFailed peer error => s!"Failed to deregister {peer.text}: {error.message}"
  | staleReadiness tag => s!"Ignoring readiness for closed {tag.text}"
  | gossiped peer offered added =>
    s!"{peer.text} gossiped {offered} addresses, {added} new"
  | peerClosed peer => s!"Peer {peer.text} closed the connection"
  | dropped peer error => s!"Dropping {peer.text}: {error.message}"
  | reported report => report.text
  | reportsDropped count error => s!"Dropped {count} reports: {error.message}"
  | seedFailed host error => s!"Failed to resolve seed {host}: {error.message}"
  | seedResolved host addresses => s!"Seed {host} resolved to {addresses} addresses"
  | seeded added hosts => s!"Seeded {added} addresses from {hosts} hosts"

/-- Level and message. -/
def line (notice : CrawlNotice) : String := notice.level.name ++ " " ++ notice.message

end CrawlNotice

end PeerCrawl
