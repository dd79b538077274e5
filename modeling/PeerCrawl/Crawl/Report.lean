import PeerCrawl.Handshake
import PeerCrawl.IoError

set_option autoImplicit false

/-! # Reports

The results of a crawl: addresses that were seen for the first time, and peers that have introduced
themselves. -/

namespace PeerCrawl

/-- One result of a crawl. -/
inductive Report where
  | newAddress (address : Address)
  | handshake (handshake : Handshake)
deriving DecidableEq

def Report.text : Report → String
  | .newAddress a => s!"New address: {a.text}"
  | .handshake h => s!"Handshake: {h.text}"

/-- Why reports could not be handed on. -/
inductive ReportError where
  /-- Nobody listens any more. -/
  | closed
  | io (error : IoError)
deriving DecidableEq

namespace ReportError

def message : ReportError → String
  | closed => "Report sink closed"
  | io e => s!"Report sink I/O error: {e.message}"

/-- The message of the error behind this one. -/
def source? : ReportError → Option String
  | closed => none
  | io e => some e.message

end ReportError

end PeerCrawl
