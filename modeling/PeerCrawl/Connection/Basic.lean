import PeerCrawl.Connection.Session

set_option autoImplicit false

/-! # Connections

A connection joins a socket to a session. Whoever owns it reacts to the readiness of the socket by
`onWritable`, `onReadable` and `onError`. The transport of a connection is established once the
socket says so, and at that moment our version message is queued: `Stage.connected` is passed
through inside one call only. -/

namespace PeerCrawl

/-- How far a connection has come. -/
inductive Stage where
  /-- No connect was issued. -/
  | init
  /-- A connect is in flight. -/
  | connecting
  /-- The transport is established. -/
  | connected
  /-- Our version message has been queued; nothing follows. -/
  | versionSent
deriving DecidableEq

namespace Stage

def text : Stage → String
  | init => "init"
  | connecting => "connecting"
  | connected => "connected"
  | versionSent => "version-sent"

/-- Whether the transport is established. -/
def isEstablished : Stage → Bool
  | init | connecting => false
  | connected | versionSent => true

end Stage

/-- A connection to one peer. -/
structure Connection where
  socket : Socket
  session : Session
  stage : Stage := .init
  /-- Our side of the socket, once the transport is established. -/
  localAddress : Option Address := none
  inbox : Inbox := {}

/-- What an operation leaves behind, also when it fails. -/
structure Outcome (α : Type) where
  connection : Connection
  result : Except ConnectionError α
  events : List PeerEvent := []
  notices : List ConnectionNotice := []

namespace Outcome

variable {α β : Type}

/-- Nothing has happened. -/
def unchanged (c : Connection) (a : α) : Outcome α := { connection := c, result := .ok a }

/-- Go on after a success, with what was told so far in front. -/
def andThen (o : Outcome α) (next : α → Connection → Outcome β) : Outcome β :=
  match o.result with
  | .error e =>
    { connection := o.connection, result := .error e, events := o.events, notices := o.notices }
  | .ok a =>
    let later := next a o.connection
    { later with events := o.events ++ later.events, notices := o.notices ++ later.notices }

end Outcome

namespace Connection

/-- The most bytes of one read. -/
def readLimit : Nat := 16384

/-- A connection that has said and heard nothing. -/
def ofSocket (socket : Socket) (peer : Address) (config : Configuration) : Connection where
  socket := socket
  session := { peer, config }

def peer (c : Connection) : Address := c.session.peer

def isEstablished (c : Connection) : Bool := c.stage.isEstablished

def hasPendingWrites (c : Connection) : Bool := !c.session.outbox.isEmpty

/-- A connect was issued and has not completed. -/
def markConnecting (c : Connection) : Connection :=
  if c.stage = .init then { c with stage := .connecting } else c

/-- The transport is established. -/
def markConnected (c : Connection) : Outcome Unit :=
  let localAddress := match c.socket.localEndpoint with
    | .ok endpoint => some (Address.ofEndpoint endpoint)
    | .error _ => none
  { connection := { c with localAddress, stage := .connected }
    result := .ok ()
    notices := [.connected c.peer] }

/-- How we introduce ourselves to the peer. -/
def versionMessage (c : Connection) : VersionMessage :=
  let config := c.session.config
  { version := config.protocolVersion
    services := config.services
    timestamp := c.socket.stamp.timestamp
    sender := (c.localAddress.getD Address.unspecified).withServices config.services
    receiver := c.peer
    nonce := c.socket.stamp.nonce
    userAgent := config.effectiveUserAgent.text
    startHeight := config.startHeight
    relay := config.relay }

/-- Queue our version message, once. -/
def introduce (c : Connection) : Outcome Unit :=
  if c.stage = .connected then
    let payload := c.versionMessage.encode c.session.config.protocolVersion
    let session := c.session.queue Command.version payload
    { connection := { c with session, stage := .versionSent }
      result := .ok ()
      notices := [.versionQueued c.peer] }
  else .unchanged c ()

/-- The connect has completed at once. -/
def established (c : Connection) : Outcome Unit :=
  (if c.isEstablished then .unchanged c () else c.markConnected).andThen fun _ c => c.introduce

/-- Write what is queued. The result says whether something is left. -/
def flush (c : Connection) : Outcome Bool :=
  let flushed := c.session.outbox.flush c.socket
  { connection :=
      { c with socket := flushed.socket, session := { c.session with outbox := flushed.outbox } }
    result := flushed.result.mapError .io }

/-- The socket says that a connect may have completed. The result says whether it has. -/
def completeConnect (c : Connection) : Outcome Bool :=
  let (taken, socket) := c.socket.takeError
  let c := { c with socket }
  match taken with
  | .error e | .ok (some e) => { connection := c, result := .error (.io e) }
  | .ok none =>
    match socket.peerFailure with
    | none => c.markConnected.andThen fun _ c => .unchanged c true
    | some .notConnected =>
      { connection := c, result := .ok false, notices := [.spuriousWritable c.peer] }
    | some e => { connection := c, result := .error (.io e) }

/-- The socket takes bytes. The result says whether to wait for that again, because the connect is
still in flight or because something is left to write. -/
def onWritable (c : Connection) : Outcome Bool :=
  (if c.isEstablished then .unchanged c true else c.completeConnect).andThen fun complete c =>
    if complete then c.introduce.andThen fun _ c => c.flush else .unchanged c true

/-- Bytes of the peer. -/
def receive (c : Connection) (bytes : Bytes) : Outcome Unit :=
  let fed := c.session.feed (c.inbox.append bytes)
  { connection := { c with session := fed.session, inbox := fed.inbox }
    result := fed.result
    events := fed.events
    notices := fed.notices }

/-- The socket has bytes: read until it would block. -/
def onReadable (c : Connection) : Outcome Unit :=
  match _h : c.socket.read readLimit with
  | (.ok [], socket) => { connection := { c with socket }, result := .error .peerClosed }
  | (.ok (b :: bs), socket) =>
    let fed := c.session.feed (c.inbox.append (b :: bs))
    let c := { c with socket, session := fed.session, inbox := fed.inbox }
    match fed.result with
    | .error e =>
      { connection := c, result := .error e, events := fed.events, notices := fed.notices }
    | .ok () =>
      let later := c.onReadable
      { later with events := fed.events ++ later.events, notices := fed.notices ++ later.notices }
  | (.error .wouldBlock, socket) => { connection := { c with socket }, result := .ok () }
  | (.error .interrupted, socket) => { c with socket }.onReadable
  | (.error e, socket) => { connection := { c with socket }, result := .error (.io e) }
termination_by c.socket.unread
decreasing_by
  · exact Socket.unread_read_lt (by decide) _h (by simp)
  · exact Socket.unread_read_lt (by decide) _h (by simp)

/-- The socket has failed: the error that waits there, or the peer has closed. -/
def onError (c : Connection) : Connection × ConnectionError :=
  let (taken, socket) := c.socket.takeError
  ({ c with socket }, match taken with
    | .error e | .ok (some e) => .io e
    | .ok none => .peerClosed)

end Connection

end PeerCrawl
