import PeerCrawl.Connection.Configuration
import PeerCrawl.Connection.Inbox
import PeerCrawl.Connection.Notice
import PeerCrawl.Connection.Outbox
import PeerCrawl.Wire.VersionMessage

set_option autoImplicit false

/-! # Sessions

What has been said on a connection, apart from its socket: the peer's version and services, and the
frames that we owe. `Session.handle` is the meaning of one message; a message that is refused
changes nothing. `Session.feed` handles every complete frame of an inbox, in order, up to the first
that is refused, which is used up as well. -/

namespace PeerCrawl

/-- A conversation with a peer. -/
structure Session where
  peer : Address
  config : Configuration
  peerVersion : Option ProtocolVersion := none
  peerServices : Option Services := none
  outbox : Outbox := {}

/-- A message that was understood: what it changed and what it told. -/
structure Handled where
  session : Session
  events : List PeerEvent := []
  notices : List ConnectionNotice := []

/-- What became of an inbox. -/
structure Fed where
  session : Session
  inbox : Inbox
  events : List PeerEvent := []
  notices : List ConnectionNotice := []
  result : Except ConnectionError Unit := .ok ()

namespace Fed

/-- Put what was told before in front. -/
def after (f : Fed) (events : List PeerEvent) (notices : List ConnectionNotice) : Fed :=
  { f with events := events ++ f.events, notices := notices ++ f.notices }

end Fed

namespace Session

/-- Queue a message for the peer. -/
def queue (s : Session) (command : Command) (payload : Bytes) : Session :=
  { s with outbox := s.outbox.push (Wire.frame s.config.magic command payload) }

/-- Whether the peer has introduced itself. -/
def handshakeComplete (s : Session) : Bool := s.peerVersion.isSome

/-- The services of the peer, none before they are known. -/
def advertisedServices (s : Session) : Services := s.peerServices.getD Services.none

/-- The protocol version that address lists of the peer are read at. -/
def streamVersion (s : Session) : ProtocolVersion := s.peerVersion.getD s.config.protocolVersion

/-- The peer introduces itself; the message is read at the version that it declares. -/
def handleVersion (s : Session) (payload : Bytes) : Except WireError Handled := do
  let (version, services) ← Reader.versionPeek.value payload
  let message ← (Reader.versionMessage version).value payload
  let handshake : Handshake := {
    address := s.peer.withServices services, userAgent := message.userAgent, version, services,
    startHeight := message.startHeight }
  let s := { s with peerVersion := some version, peerServices := some services }
  return {
    session := s.queue Command.verack []
    events := [.handshake handshake]
    notices := [.versionReceived handshake] }

/-- Answer a ping with its number; an empty one wants no answer. -/
def handlePing (s : Session) (payload : Bytes) : Except WireError Handled := do
  if payload = [] then return { session := s }
  else
    let nonce ← Reader.u64le.value payload
    return { session := s.queue Command.pong (Wire.u64le nonce) }

/-- The peer tells addresses. -/
def handleAddresses (s : Session) (payload : Bytes) : Except WireError Handled := do
  let addresses ← (Reader.addressList s.streamVersion).value payload
  return {
    session := s
    events := [.addresses addresses]
    notices := addresses.map fun a => .addressReceived a s.peer }

/-- The meaning of a message whose checksum is not in doubt. -/
def interpret (s : Session) (command : Command) (payload : Bytes) : Except WireError Handled :=
  if command = Command.version then s.handleVersion payload
  else if command = Command.verack then
    .ok { session := s, notices := [.verackReceived s.peer] }
  else if command = Command.ping then s.handlePing payload
  else if command = Command.addr then s.handleAddresses payload
  else .ok { session := s, notices := [.ignored command s.peer] }

/-- One message. -/
def handle (s : Session) (header : Header) (payload : Bytes) : Except ConnectionError Handled :=
  if s.config.verifyChecksum ∧ checksum payload ≠ header.checksum then
    .error (.checksumMismatch header.command)
  else (s.interpret header.command payload).mapError .wire

/-- Handle the complete frames of an inbox. -/
def feed (s : Session) (inbox : Inbox) : Fed :=
  match _h : inbox.next s.config.magic with
  | .incomplete header => { session := s, inbox := { inbox with header } }
  | .rejected e => { session := s, inbox, result := .error e }
  | .frame header payload rest =>
    match s.handle header payload with
    | .error e => { session := s, inbox := { buffer := rest }, result := .error e }
    | .ok r => (r.session.feed { buffer := rest }).after r.events r.notices
termination_by inbox.buffer.length
decreasing_by exact Inbox.length_rest_lt_of_next _h

end Session

end PeerCrawl
