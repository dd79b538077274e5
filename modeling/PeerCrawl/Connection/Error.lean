import PeerCrawl.IoError
import PeerCrawl.Network
import PeerCrawl.Wire.Command

set_option autoImplicit false

/-! # Connection errors

Why a connection is of no more use. -/

namespace PeerCrawl

inductive ConnectionError where
  | io (error : IoError)
  | wire (error : WireError)
  | peerClosed
  /-- A header that starts with the magic of another network. -/
  | magicMismatch (expected received : Magic)
  /-- A payload that does not have the checksum of its header. -/
  | checksumMismatch (command : Command)
  /-- A header that announces a payload above the limit. -/
  | payloadTooLarge (length : UInt32)
deriving DecidableEq

namespace ConnectionError

def message : ConnectionError → String
  | io e => s!"Connection error: {e.message}"
  | wire e => s!"Malformed frame from peer: {e.message}"
  | peerClosed => "Peer closed the connection"
  | magicMismatch expected received =>
    s!"Invalid magic in header: expected {expected.text}, received {received.text}"
  | checksumMismatch command => s!"Checksum mismatch on {command.text} message"
  | payloadTooLarge length => s!"Declared payload of {length.toNat} bytes exceeds protocol limit"

/-- The message of the error behind this one. -/
def source? : ConnectionError → Option String
  | io e => some e.message
  | wire e => some e.message
  | _ => none

end ConnectionError

end PeerCrawl
