import PeerCrawl.Crawl.Turn

set_option autoImplicit false

/-! # Options of a crawl

The choices that make a crawl, with their defaults, and the crawl that they make. -/

namespace PeerCrawl

/-- Why a crawl cannot be made. -/
inductive OptionsError where
  | invalidUserAgent (error : UserAgentError)
  | invalidBatchSize
  | crawl (error : CrawlError)
deriving DecidableEq

namespace OptionsError

def message : OptionsError → String
  | invalidUserAgent e => s!"Invalid user agent: {e.message}"
  | invalidBatchSize => "Batch size must be at least one"
  | crawl e => s!"Failed to start engine: {e.message}"

/-- The message of the error behind this one. -/
def source? : OptionsError → Option String
  | invalidUserAgent e => some e.message
  | invalidBatchSize => none
  | crawl e => some e.message

end OptionsError

/-- The choices that make a crawl. -/
structure CrawlOptions where
  network : Network
  userAgent : Option UserAgent := none
  protocolVersion : ProtocolVersion := ProtocolVersion.standard
  batchSize : Nat := 128
  /-- How many descriptors are kept for other things than peers. -/
  descriptorMargin : Nat := 10
  /-- The most connections; if it is not given, what the descriptors allow. -/
  maxConnections : Option Nat := none
  pollTimeout : Duration := .ofMilliseconds 500
  statusInterval : Duration := .ofSeconds 60
  verifyChecksum : Bool := true

namespace CrawlOptions

/-- Choose a user agent, which must have the form of one. -/
def withUserAgent (o : CrawlOptions) (text : String) : Except OptionsError CrawlOptions :=
  match UserAgent.ofText text with
  | .ok agent => .ok { o with userAgent := some agent }
  | .error e => .error (.invalidUserAgent e)

/-- How many connections a limit of descriptors allows, one at least. -/
def admissionCeiling (descriptors margin : Nat) : Nat := max (descriptors - margin) 1

/-- The configuration of every connection. -/
def config (o : CrawlOptions) : Configuration :=
  { Configuration.nonListening o.network o.protocolVersion o.userAgent with
    verifyChecksum := o.verifyChecksum }

/-- How many connections there may be. What limit of descriptors a process has matters only if the
options leave it open, and is not asked for otherwise. -/
def ceiling (o : CrawlOptions) (descriptors : Except IoError Nat) : Except IoError Nat :=
  match o.maxConnections with
  | some most => .ok (max most 1)
  | none => descriptors.map (admissionCeiling · o.descriptorMargin)

/-- The limits of a crawl that may have so many connections. -/
def limits (o : CrawlOptions) (maxConnections : Nat) : CrawlLimits where
  maxConnections
  batchSize := o.batchSize
  pollTimeout := o.pollTimeout
  statusInterval := o.statusInterval

/-- The crawl. There is none without a batch, without a limit of connections, or without a network
stack, and the first of these that is missing is the one that is told. -/
def build (o : CrawlOptions) (descriptors : Except IoError Nat) (frontier : Frontier)
    (net : Except IoError NetworkStack) : Except OptionsError Crawl :=
  if o.batchSize = 0 then .error .invalidBatchSize
  else
    match o.ceiling descriptors, net with
    | .error e, _ => .error (.crawl (.resourceLimit e))
    | .ok _, .error e => .error (.crawl (.multiplexer e))
    | .ok maxConnections, .ok net =>
      .ok { config := o.config, limits := o.limits maxConnections, frontier, net }

/-- The crawl, in a process that may have so many descriptors and gets its network stack. -/
def start (o : CrawlOptions) (descriptors : Nat) (frontier : Frontier) (net : NetworkStack) :
    Except OptionsError Crawl :=
  o.build (.ok descriptors) frontier (.ok net)

end CrawlOptions

end PeerCrawl
