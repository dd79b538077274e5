import PeerCrawl.Crawl.Basic

set_option autoImplicit false

/-! # Dispatch

What a notification does: the connection that it is for is driven, what its peer told is harvested,
and then either its interest is brought up to date or it is closed. A notification for a connection
that is gone does nothing. -/

namespace PeerCrawl

namespace Connection

/-- React to one notification: writability first, then readability, then errors. -/
def drive (c : Connection) (ready : Readiness) : Outcome Unit :=
  let written := if ready.writable then c.onWritable else .unchanged c true
  let read := written.andThen fun _ c =>
    if ready.readable then c.onReadable.andThen fun _ c => c.flush else .unchanged c true
  read.andThen fun _ c =>
    if ready.errored then { connection := c.onError.1, result := .error c.onError.2 }
    else .unchanged c ()

/-- Whether the connection must be watched for writability: its connect is in flight, or something
is left to write. -/
def wantsWrite (c : Connection) : Bool := !c.isEstablished || c.hasPendingWrites

end Connection

namespace Crawl

/-- Hand on one event of a peer. -/
def harvestEvent (c : Crawl) (peer : Address) : PeerEvent → Crawl
  | .handshake h =>
    { c with reports := c.reports ++ [.handshake h], handed := c.handed ++ [.report h] }
  | .addresses addresses =>
    let offered := c.frontier.offerAll addresses
    { c with
      frontier := offered.frontier
      reports := c.reports ++ offered.reports
      handed := c.handed ++ addresses.map .offer
      notices := c.notices ++ offered.notices ++
        [.gossiped peer addresses.length (offered.fresh.count true)] }

/-- Hand on everything that connections have told. -/
def harvest (c : Crawl) (peer : Address) : Crawl :=
  c.events.foldl (fun c event => c.harvestEvent peer event) { c with events := [] }

/-- Watch a connection for writability exactly as long as it needs that. -/
def updateInterest (c : Crawl) (tag : Tag) : Crawl :=
  match c.roster.get? tag with
  | none => c
  | some connection =>
    let wanted := connection.wantsWrite
    if wanted = c.writeWatched.contains tag then c
    else
      let interest := if wanted then .readWrite else .readable
      let (failure, net) := c.net.request (.reregister connection.socket.number tag interest)
      let c := { c with net }
      match failure with
      | some error => c.note (.interestFailed connection.peer error)
      | none =>
        let others := c.writeWatched.erase tag
        { c with writeWatched := if wanted then others ++ [tag] else others }

/-- Drive the connection that a notification is for. -/
def dispatch (c : Crawl) (ready : Readiness) : Crawl :=
  match c.roster.get? ready.tag with
  | none => c.note (.staleReadiness ready.tag)
  | some connection =>
    let driven := connection.drive ready
    let c := { c with
      roster := c.roster.modify ready.tag fun _ => driven.connection
      events := c.events ++ driven.events }
    let c := (c.noteAll driven.notices).harvest connection.peer
    match driven.result with
    | .ok () => c.updateInterest ready.tag
    | .error .peerClosed => (c.note (.peerClosed connection.peer)).close ready.tag
    | .error error => (c.note (.dropped connection.peer error)).close ready.tag

end Crawl

end PeerCrawl
