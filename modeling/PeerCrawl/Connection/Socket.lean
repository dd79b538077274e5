import PeerCrawl.Address
import PeerCrawl.IoError

set_option autoImplicit false

/-! # Sockets

A socket as a value: what it will answer to reads, writes and queries, and what was written to it.
The peer's bytes and the operating system's moods are lists that the calls use up from the front,
so a socket stands for every behaviour that a connection can meet. `unread_read_lt` says that a
read that does not block uses something up, and `length_write_of_interrupted` the same of an
interrupted write. -/

namespace PeerCrawl

/-- What one read, or several if it is long, will get. -/
inductive Arrival where
  | data (bytes : Bytes)
  /-- The peer has closed its side. -/
  | eof
  | failed (error : IoError)
deriving DecidableEq

/-- What one write will do. -/
inductive Acceptance where
  /-- Take at most `count` of the bytes offered. -/
  | upTo (count : Nat)
  | failed (error : IoError)
deriving DecidableEq

/-- The clock reading and the random number that go into a version message. -/
structure Stamp where
  timestamp : Int64
  nonce : UInt64
deriving DecidableEq, Inhabited

/-- A byte stream to a peer, and the queries that its owner makes. -/
structure Socket where
  /-- Tells sockets apart. -/
  number : Nat := 0
  /-- What the reads to come will get; after that they block. -/
  arrivals : List Arrival := []
  /-- What the writes to come will do. -/
  acceptances : List Acceptance := []
  /-- Whether writes after those block; else they take everything. -/
  blocks : Bool := false
  /-- The endpoint on our side. -/
  localEndpoint : Except IoError Endpoint
  /-- Why the endpoint of the peer is not known, if it is not. -/
  peerFailure : Option IoError := none
  /-- The error that waits to be taken. -/
  pendingError : Option IoError := none
  /-- Why the next attempt to take it fails, if it does. -/
  takeFailure : Option IoError := none
  /-- What the version message on this socket is stamped with. -/
  stamp : Stamp := ⟨0, 0⟩
  /-- Every byte that the socket has taken. -/
  written : Bytes := []

namespace Arrival

/-- How much there is to use up. -/
def size : Arrival → Nat
  | data bytes => bytes.length + 1
  | eof => 1
  | failed _ => 1

end Arrival

namespace Socket

/-- How much the reads can still use up. -/
def unread (s : Socket) : Nat := s.arrivals.foldr (fun arrival rest => arrival.size + rest) 0

/-- Read at most `limit` bytes; none means that the peer has closed. -/
def read (s : Socket) (limit : Nat) : Except IoError Bytes × Socket :=
  match s.arrivals with
  | [] => (.error .wouldBlock, s)
  | .eof :: rest => (.ok [], { s with arrivals := rest })
  | .failed e :: rest => (.error e, { s with arrivals := rest })
  | .data b :: rest =>
    if b.length ≤ limit then (.ok b, { s with arrivals := rest })
    else (.ok (b.take limit), { s with arrivals := .data (b.drop limit) :: rest })

/-- A read uses something up, unless nothing has arrived. -/
theorem unread_read_lt {s s' : Socket} {limit : Nat} {r : Except IoError Bytes}
    (hlimit : 0 < limit) (h : s.read limit = (r, s')) (hr : r ≠ .error .wouldBlock) :
    s'.unread < s.unread := by
  unfold read at h
  split at h <;> rename_i ha
  · simp only [Prod.mk.injEq] at h
    exact absurd h.1.symm hr
  · simp only [Prod.mk.injEq] at h
    simp only [← h.2, unread, ha, List.foldr_cons, Arrival.size]
    omega
  · simp only [Prod.mk.injEq] at h
    simp only [← h.2, unread, ha, List.foldr_cons, Arrival.size]
    omega
  · split at h <;> simp only [Prod.mk.injEq] at h <;>
      simp only [← h.2, unread, ha, List.foldr_cons, Arrival.size,
        List.length_drop] <;> omega

/-- Offer bytes, of which the socket takes some from the front. -/
def write (s : Socket) (offered : Bytes) : Except IoError Nat × Socket :=
  match s.acceptances with
  | [] =>
    if s.blocks then (.error .wouldBlock, s)
    else (.ok offered.length, { s with written := s.written ++ offered })
  | .upTo n :: rest =>
    (.ok (min n offered.length),
      { s with acceptances := rest, written := s.written ++ offered.take n })
  | .failed e :: rest => (.error e, { s with acceptances := rest })

/-- An interrupted write uses up what interrupted it. -/
theorem length_write_of_interrupted {s s' : Socket} {offered : Bytes}
    (h : s.write offered = (.error .interrupted, s')) :
    s'.acceptances.length < s.acceptances.length := by
  unfold write at h
  split at h <;> rename_i ha
  · split at h <;> simp at h
  · simp at h
  · simp only [Prod.mk.injEq] at h
    simp [← h.2, ha]

theorem length_write_le (s : Socket) (offered : Bytes) :
    (s.write offered).2.acceptances.length ≤ s.acceptances.length := by
  unfold write
  split <;> rename_i ha
  · split <;> simp
  · simp [ha]
  · simp [ha]

/-- Take the pending error, if there is one; a failure of the query itself comes first. -/
def takeError (s : Socket) : Except IoError (Option IoError) × Socket :=
  match s.takeFailure with
  | some e => (.error e, { s with takeFailure := none })
  | none => (.ok s.pendingError, { s with pendingError := none })

end Socket

end PeerCrawl
