import PeerCrawl.Connection.Socket
import PeerCrawl.Crawl.Notice
import PeerCrawl.Text.Duration

set_option autoImplicit false

/-! # The network stack

What a crawl asks of the operating system, as a value: dials, registrations of sockets for
readiness, and waits. The answers to come are lists that the calls use up, so a stack stands for
every behaviour that a crawl can meet; the calls that were made are kept in `history`. -/

namespace PeerCrawl

/-- What a socket is watched for. -/
inductive Interest where
  | readable
  | readWrite
deriving DecidableEq

def Interest.text : Interest → String
  | .readable => "Readable"
  | .readWrite => "ReadWrite"

/-- A notification that a connection is ready. -/
structure Readiness where
  tag : Tag
  readable : Bool
  writable : Bool
  errored : Bool
deriving DecidableEq

/-- What becomes of a dial. -/
inductive DialOutcome where
  /-- The connect is in flight. -/
  | inProgress
  /-- The connect has completed at once. -/
  | established
  | failed (error : IoError)
deriving DecidableEq

/-- A call. Sockets are named by their numbers. -/
inductive Call where
  | dial (address : Address)
  | register (socket : Nat) (tag : Tag) (interest : Interest)
  | reregister (socket : Nat) (tag : Tag) (interest : Interest)
  | deregister (socket : Nat)
  | wait (capacity : Nat) (timeout : Duration)
  /-- The socket is closed; this never fails. -/
  | close (socket : Nat)
deriving DecidableEq

/-- A call that can be told to fail, whatever its arguments. -/
inductive CallKind where
  | dial
  | register
  | reregister
  | deregister
  | wait
deriving DecidableEq

/-- A call that was made, and why it failed if it did. -/
structure Request where
  call : Call
  failure : Option IoError
deriving DecidableEq

namespace Call

def kind? : Call → Option CallKind
  | dial .. => some .dial
  | register .. => some .register
  | reregister .. => some .reregister
  | deregister .. => some .deregister
  | wait .. => some .wait
  | close .. => none

def text : Call → String
  | dial a => s!"dial {a.text}"
  | register socket tag interest => s!"register s{socket} t{tag.number} {interest.text}"
  | reregister socket tag interest => s!"reregister s{socket} t{tag.number} {interest.text}"
  | deregister socket => s!"deregister s{socket}"
  | wait capacity timeout => s!"wait {capacity} {timeout.milliseconds}ms"
  | close socket => s!"close s{socket}"

end Call

/-- What the operating system will answer, and what it was asked. -/
structure NetworkStack where
  /-- What becomes of the dials to come. -/
  plan : List DialOutcome := []
  /-- What becomes of the dials after those. -/
  usual : DialOutcome := .inProgress
  /-- Failures to come, each for the next call of its kind. -/
  failures : List (CallKind × IoError) := []
  /-- Why a call fails that nothing in `failures` is meant for, if it does. -/
  refusal : Call → Option IoError := fun _ => none
  /-- Notifications that no wait has fetched yet. -/
  ready : List Readiness := []
  /-- What a wait that fails leaves in the buffer it was given. -/
  spilled : List Readiness := []
  /-- The sockets that successful dials to come will open, by number. -/
  sockets : Nat → Socket := fun number => { number, localEndpoint := .error .notConnected }
  /-- How many dials have opened a socket. -/
  opened : Nat := 0
  /-- Sockets that were closed again. -/
  closed : List Socket := []
  /-- Every call so far. -/
  history : List Request := []
  /-- Whether a wait that finds nothing lasts until its timeout. -/
  sleeps : Bool := false
  /-- How much time has passed, in nanoseconds. -/
  clock : Nat := 0

namespace NetworkStack

/-- Use up the failure that is meant for a call, and say what it is. -/
def failureFor (n : NetworkStack) (call : Call) : Option IoError × NetworkStack :=
  let isMeant (f : CallKind × IoError) : Bool := some f.1 = call.kind?
  match n.failures.find? isMeant with
  | some f => (some f.2, { n with failures := n.failures.eraseP isMeant })
  | none => (n.refusal call, n)

/-- Keep a call in the history. -/
def record (n : NetworkStack) (call : Call) (failure : Option IoError) : NetworkStack :=
  { n with history := n.history ++ [⟨call, failure⟩] }

/-- Take a call, and say why it fails if it does. -/
def request (n : NetworkStack) (call : Call) : Option IoError × NetworkStack :=
  let (failure, n) := n.failureFor call
  (failure, n.record call failure)

/-- What becomes of the next dial. -/
def nextDial (n : NetworkStack) (a : Address) : DialOutcome × NetworkStack :=
  match n.failureFor (.dial a) with
  | (some e, n) => (.failed e, n)
  | (none, n) => (n.plan.headD n.usual, { n with plan := n.plan.tail })

/-- The socket that the next successful dial opens; nothing was written to it. -/
def nextSocket (n : NetworkStack) : Socket :=
  { n.sockets n.opened with number := n.opened, written := [] }

/-- Open a socket to an address. The result also says whether the connect has completed. -/
def dial (n : NetworkStack) (a : Address) : Except IoError (Socket × Bool) × NetworkStack :=
  let (outcome, n) := n.nextDial a
  match outcome with
  | .failed e => (.error e, n.record (.dial a) (some e))
  | .inProgress =>
    (.ok (n.nextSocket, false), { n.record (.dial a) none with opened := n.opened + 1 })
  | .established =>
    (.ok (n.nextSocket, true), { n.record (.dial a) none with opened := n.opened + 1 })

/-- Wait for notifications. A wait that succeeds replaces what is in the buffer by at most
`capacity` notifications; one that fails adds to it what it pleases. -/
def wait (n : NetworkStack) (buffer : List Readiness) (capacity : Nat) (timeout : Duration) :
    Option IoError × List Readiness × NetworkStack :=
  let (failure, n) := n.request (.wait capacity timeout)
  match failure with
  | some e => (some e, buffer ++ n.spilled, n)
  | none =>
    let clock := if n.sleeps ∧ n.ready.isEmpty then n.clock + timeout.nanoseconds else n.clock
    (none, n.ready.take capacity, { n with ready := n.ready.drop capacity, clock })

/-- Close a socket. -/
def close (n : NetworkStack) (socket : Socket) : NetworkStack :=
  { n.record (.close socket.number) none with closed := n.closed ++ [socket] }

end NetworkStack

end PeerCrawl
