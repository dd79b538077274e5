import PeerCrawl.Connection.Socket

set_option autoImplicit false

/-! # Outboxes

Frames that wait for the socket, first one first. A write may take part of a frame, so the outbox
knows how much of the front frame is gone. -/

namespace PeerCrawl

/-- Frames that the socket has not taken yet. -/
structure Outbox where
  frames : List Bytes := []
  /-- How much of the front frame the socket has taken. -/
  offset : Nat := 0
deriving DecidableEq

/-- What a flush leaves behind. -/
structure Flushed where
  /-- Whether something is still queued, or why the flush stopped. -/
  result : Except IoError Bool
  outbox : Outbox
  socket : Socket

namespace Outbox

/-- Queue a frame; an empty one is left out. -/
def push (o : Outbox) (frame : Bytes) : Outbox :=
  if frame = [] then o else { o with frames := o.frames ++ [frame] }

def isEmpty (o : Outbox) : Bool := o.frames.isEmpty

/-- The bytes that the socket has not taken yet. -/
def unsent (o : Outbox) : Bytes := o.frames.flatten.drop o.offset

/-- How many bytes the socket has not taken yet. -/
def pendingBytes (o : Outbox) : Nat :=
  o.frames.foldl (fun total frame => total + frame.length) 0 - o.offset

/-- Offer the front frame until the socket takes only part of it or none, or the queue is empty. -/
def flush (o : Outbox) (s : Socket) : Flushed :=
  match _ho : o.frames with
  | [] => ⟨.ok false, o, s⟩
  | front :: rest =>
    let offered := front.drop o.offset
    match _hw : s.write offered with
    | (.ok n, s') =>
      if n = 0 then ⟨.error .writeZero, o, s'⟩
      else if n < offered.length then ⟨.ok true, { o with offset := o.offset + n }, s'⟩
      else flush { frames := rest, offset := 0 } s'
    | (.error .wouldBlock, s') => ⟨.ok true, o, s'⟩
    | (.error .interrupted, s') => flush o s'
    | (.error e, s') => ⟨.error e, o, s'⟩
termination_by o.frames.length + s.acceptances.length
decreasing_by
  · have := s.length_write_le offered
    simp only [_hw] at this
    simp only [_ho, List.length_cons]
    omega
  · have := Socket.length_write_of_interrupted _hw
    omega

end Outbox

end PeerCrawl
