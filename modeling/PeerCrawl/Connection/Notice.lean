import PeerCrawl.Handshake
import PeerCrawl.Log
import PeerCrawl.Wire.Command

set_option autoImplicit false

/-! # What a connection tells

Events are what a peer said that a crawl wants to know. Notices are for the log. -/

namespace PeerCrawl

/-- Something that a peer said. -/
inductive PeerEvent where
  /-- The peer has introduced itself. -/
  | handshake (handshake : Handshake)
  /-- The records of one list of addresses, in order. -/
  | addresses (addresses : List Address)
deriving DecidableEq

/-- A line of the log about one connection. -/
inductive ConnectionNotice where
  | connected (peer : Address)
  | versionQueued (peer : Address)
  | spuriousWritable (peer : Address)
  | versionReceived (handshake : Handshake)
  | verackReceived (peer : Address)
  | addressReceived (address peer : Address)
  | ignored (command : Command) (peer : Address)

namespace ConnectionNotice

def level : ConnectionNotice → LogLevel
  | connected .. | versionQueued .. | verackReceived .. | addressReceived .. => .debug
  | spuriousWritable .. | ignored .. => .trace
  | versionReceived .. => .info

def message : ConnectionNotice → String
  | connected peer => s!"Connected to {peer.text}"
  | versionQueued peer => s!"Queued version for {peer.text}"
  | spuriousWritable peer => s!"Spurious writable notification for {peer.text}"
  | versionReceived handshake => s!"Received version from {handshake.text}"
  | verackReceived peer => s!"Received verack from {peer.text}"
  | addressReceived address peer => s!"Got address {address.text} from {peer.text}"
  | ignored command peer => s!"Ignoring {command.text} message from {peer.text}"

end ConnectionNotice

end PeerCrawl
