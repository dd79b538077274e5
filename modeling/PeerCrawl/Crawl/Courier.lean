import PeerCrawl.Crawl.Sink

set_option autoImplicit false

/-! # Handing reports on

Reports collect in a buffer, and a courier hands the buffer on as a whole at every tick of its
clock. A batch that cannot be delivered is lost, and the courier goes on; it ends at the first tick
after the buffer is gone.

What the courier does at a tick (`Courier.tick`) is its own. When it ticks is the affair of the
timer that it waits on: the first tick is due at once and the others one period apart, and a timer
that is told to delay missed ticks starts the count again after a tick that is noticed more than
`tolerance` late (`Courier.nextDue`). -/

namespace PeerCrawl

/-- A buffer of reports, and the task that empties it. Time is in milliseconds. -/
structure Courier where
  period : Nat
  period_pos : 0 < period
  sink : ReportSink
  /-- The reports that nobody has taken; `none` once the buffer is gone. -/
  buffer : Option (List Report) := some []
  /-- When the next tick is due; `none` before the task has run. -/
  due : Option Nat := none
  finished : Bool := false
  clock : Nat := 0
  /-- Every line of the log. -/
  notices : List CrawlNotice := []

namespace Courier

/-- How late the timer may notice a tick without a change of the rhythm, in milliseconds. This is
documented behaviour of the timer, not a choice of the courier. -/
def tolerance : Nat := 5

/-- Add a report to the buffer. -/
def report (c : Courier) (r : Report) : Courier :=
  { c with buffer := c.buffer.map (· ++ [r]) }

/-- Empty the buffer by hand. -/
def take (c : Courier) : List Report × Courier :=
  (c.buffer.getD [], { c with buffer := c.buffer.map fun _ => [] })

/-- The buffer goes, with whatever it holds. -/
def dropBuffer (c : Courier) : Courier := { c with buffer := none }

/-- When the tick after one that was due is due, for a timer that delays missed ticks. -/
def nextDue (c : Courier) (due : Nat) : Nat :=
  if due + tolerance < c.clock then c.clock + c.period else due + c.period

theorem lt_nextDue (c : Courier) (due : Nat) : due < c.nextDue due := by
  have := c.period_pos
  unfold nextDue
  split <;> omega

/-- What the task does at a tick. -/
def tick (c : Courier) : Courier :=
  match c.buffer with
  | none => { c with finished := true }
  | some [] => c
  | some (r :: rs) =>
    let batch := r :: rs
    let (result, lines, sink) := c.sink.deliver batch
    let c := { c with sink, buffer := some [], notices := c.notices ++ lines }
    match result with
    | .ok () => c
    | .error e => { c with notices := c.notices ++ [.reportsDropped batch.length e] }

theorem clock_tick (c : Courier) : c.tick.clock = c.clock := by
  unfold tick
  split
  · rfl
  · rfl
  · dsimp only
    split <;> rfl

/-- Run the task from a tick that is due at a time, until it waits. -/
def runFrom (c : Courier) (due : Nat) : Courier :=
  if _h : due ≤ c.clock ∧ c.finished = false then
    c.tick.runFrom (c.nextDue due)
  else { c with due := some due }
termination_by c.clock + 1 - due
decreasing_by
  rw [clock_tick]
  have := c.lt_nextDue due
  omega

/-- Let the task run until it waits. Its first tick is due when it runs first. -/
def settle (c : Courier) : Courier := c.runFrom (c.due.getD c.clock)

/-- Let time pass. -/
def advance (c : Courier) (milliseconds : Nat) : Courier :=
  { c with clock := c.clock + milliseconds }

end Courier

end PeerCrawl
