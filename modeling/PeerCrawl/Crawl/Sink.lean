import PeerCrawl.Crawl.Notice

set_option autoImplicit false

/-! # Sinks of reports

Where reports go in the end, a batch at a time. A sink remembers every batch that it was handed,
and whether the delivery failed; `ReportSink.received` is what has reached the other side. -/

namespace PeerCrawl

/-- Where reports go. -/
inductive SinkKind where
  /-- Each report becomes a line of the log. -/
  | log
  /-- Each report is sent to a receiver. -/
  | channel
deriving DecidableEq

/-- A batch that was handed to a sink, and why that failed if it did. -/
structure Delivery where
  batch : List Report
  failure : Option ReportError
deriving DecidableEq

/-- A receiver of batches. -/
structure ReportSink where
  kind : SinkKind
  /-- What a delivery fails with, if it does, by the number of deliveries before it. -/
  fault : Nat → Option ReportError := fun _ => none
  /-- Whether the receiver of the channel is gone. -/
  closed : Bool := false
  /-- Every batch that was handed over. -/
  deliveries : List Delivery := []

namespace ReportSink

/-- Why the delivery of a batch fails, if it does. -/
def failureFor (s : ReportSink) (batch : List Report) : Option ReportError :=
  match s.fault s.deliveries.length with
  | some e => some e
  | none => if s.kind = .channel ∧ s.closed ∧ batch ≠ [] then some .closed else none

/-- The lines that a batch adds to the log once it is delivered. -/
def lines (s : ReportSink) (batch : List Report) : List CrawlNotice :=
  match s.kind with
  | .log => batch.map .reported
  | .channel => []

/-- Deliver a batch. -/
def deliver (s : ReportSink) (batch : List Report) :
    Except ReportError Unit × List CrawlNotice × ReportSink :=
  let failure := s.failureFor batch
  let s' := { s with deliveries := s.deliveries ++ [⟨batch, failure⟩] }
  match failure with
  | some e => (.error e, [], s')
  | none => (.ok (), s.lines batch, s')

/-- Every report that the receiver of the channel got. -/
def received (s : ReportSink) : List Report :=
  match s.kind with
  | .log => []
  | .channel => (s.deliveries.filter (·.failure = none)).flatMap Delivery.batch

end ReportSink

end PeerCrawl
