import PeerCrawl.Crawl.Frontier

set_option autoImplicit false

/-! # Crawl errors

Why a crawl as a whole fails. What goes wrong with one peer ends that peer's connection only. -/

namespace PeerCrawl

/-- Why a crawl cannot start or go on. -/
inductive CrawlError where
  | multiplexer (error : IoError)
  | resourceLimit (error : IoError)
  | wait (error : IoError)
  | frontier (error : FrontierError)
deriving DecidableEq

namespace CrawlError

def message : CrawlError → String
  | multiplexer e => s!"Failed to create multiplexer: {e.message}"
  | resourceLimit e => s!"Failed to read file descriptor limit: {e.message}"
  | wait e => s!"Readiness wait failed: {e.message}"
  | frontier e => s!"Address queue error: {e.message}"

/-- The message of the error behind this one. -/
def source : CrawlError → String
  | multiplexer e | resourceLimit e | wait e => e.message
  | frontier e => e.message

end CrawlError

end PeerCrawl
