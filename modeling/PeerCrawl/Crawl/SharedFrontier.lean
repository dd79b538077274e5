import PeerCrawl.Crawl.Frontier

set_option autoImplicit false

/-! # Shared frontiers

Consumers that may wait share a frontier. Offering, entering a drain and looking again after having
been woken are single steps. A consumer that finds nothing waits until a step wakes it; it then
looks again at a time of its own, and waits again if it finds nothing. The step that fills an empty
frontier wakes one consumer that waits, and so does each drain that leaves something behind. Which
one is woken is up to the caller's `pick`. -/

namespace PeerCrawl

/-- Who wants addresses, and how many. -/
structure Consumer where
  id : Nat
  max : Nat
deriving DecidableEq

/-- A frontier and the consumers inside a drain that waits. -/
structure SharedFrontier where
  frontier : Frontier
  /-- They wait for somebody to wake them. -/
  waiting : List Consumer := []
  /-- They were woken and have not looked yet. -/
  notified : List Consumer := []

/-- What a drain comes to in one step. -/
inductive DrainStep where
  | refused (error : FrontierError)
  | waits
  | batch (addresses : List Address)

namespace SharedFrontier

/-- Wake one consumer, if any waits. -/
def notifyOne (s : SharedFrontier) (pick : Nat) : SharedFrontier :=
  let place := pick % s.waiting.length
  match s.waiting[place]? with
  | none => s
  | some consumer =>
    { s with waiting := s.waiting.eraseIdx place, notified := s.notified ++ [consumer] }

/-- Offer an address. -/
def offer (s : SharedFrontier) (a : Address) (pick : Nat) : Bool × SharedFrontier :=
  let offered := s.frontier.offer a
  let after := { s with frontier := offered.frontier }
  (offered.fresh,
    if offered.fresh ∧ offered.frontier.pending.length = 1 then after.notifyOne pick else after)

/-- Take addresses, and wake another consumer if some are left. -/
def collect (s : SharedFrontier) (max pick : Nat) : DrainStep × SharedFrontier :=
  match s.frontier.drain max with
  | .error e => (.refused e, s)
  | .ok (addresses, frontier) =>
    let after := { s with frontier }
    (.batch addresses, if frontier.pending.isEmpty then after else after.notifyOne pick)

/-- Begin a drain, which waits for an address if it may block. -/
def enter (s : SharedFrontier) (consumer : Consumer) (block : Bool) (pick : Nat) :
    DrainStep × SharedFrontier :=
  if consumer.max = 0 then (.refused .zeroCount, s)
  else if block ∧ s.frontier.pending.isEmpty then
    (.waits, { s with waiting := s.waiting ++ [consumer] })
  else s.collect consumer.max pick

/-- Let the woken consumer at a place look again. -/
def resume (s : SharedFrontier) (place pick : Nat) : Option (DrainStep × SharedFrontier) :=
  s.notified[place]?.map fun consumer =>
    let awake := { s with notified := s.notified.eraseIdx place }
    if awake.frontier.pending.isEmpty then
      (.waits, { awake with waiting := awake.waiting ++ [consumer] })
    else awake.collect consumer.max pick

end SharedFrontier

end PeerCrawl
