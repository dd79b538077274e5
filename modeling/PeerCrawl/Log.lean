set_option autoImplicit false

/-! # Log levels

How much a notice matters to whoever reads the log. -/

namespace PeerCrawl

inductive LogLevel where
  | trace
  | debug
  | info
  | warn
deriving DecidableEq

def LogLevel.name : LogLevel → String
  | .trace => "TRACE"
  | .debug => "DEBUG"
  | .info => "INFO"
  | .warn => "WARN"

end PeerCrawl
