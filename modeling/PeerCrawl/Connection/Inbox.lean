import PeerCrawl.Connection.Error
import PeerCrawl.Wire.Header

set_option autoImplicit false

/-! # Inboxes

The bytes of a peer that no complete frame has used up yet. They always start at a header, and the
header is kept once it has been read and found good. `Inbox.next` says what stands at the front:
the start of a frame, a bad header, or a frame, after which fewer bytes remain
(`length_rest_lt_of_next`). -/

namespace PeerCrawl

/-- Bytes that wait for the rest of their frame. -/
structure Inbox where
  buffer : Bytes := []
  /-- The header at the front, once it has been read. -/
  header : Option Header := none
deriving DecidableEq

/-- What stands at the front of an inbox. -/
inductive Arrived where
  /-- The start of a frame, and its header if that is complete. -/
  | incomplete (header : Option Header)
  /-- A header that nothing can follow. -/
  | rejected (error : ConnectionError)
  /-- A frame, and the bytes after it. -/
  | frame (header : Header) (payload rest : Bytes)
deriving DecidableEq

namespace Inbox

/-- Add bytes at the end. -/
def append (i : Inbox) (bytes : Bytes) : Inbox := { i with buffer := i.buffer ++ bytes }

/-- Read and check the header at the front of a buffer. -/
def readHeader (magic : Magic) (buffer : Bytes) : Except ConnectionError Header :=
  match Reader.header.value (buffer.take Wire.headerWidth) with
  | .error e => .error (.wire e)
  | .ok h =>
    if h.magic ≠ magic then .error (.magicMismatch magic h.magic)
    else if Wire.maxPayload < h.payloadLength.toNat then .error (.payloadTooLarge h.payloadLength)
    else .ok h

/-- The frame of a header that stands at the front, if all of it has arrived. -/
def frameOf (header : Header) (buffer : Bytes) : Arrived :=
  let afterHeader := buffer.drop Wire.headerWidth
  let length := header.payloadLength.toNat
  if isShorter buffer (Wire.headerWidth + length) then .incomplete (some header)
  else .frame header (afterHeader.take length) (afterHeader.drop length)

/-- What stands at the front of the inbox. -/
def next (i : Inbox) (magic : Magic) : Arrived :=
  match i.header with
  | some header => frameOf header i.buffer
  | none =>
    if isShorter i.buffer Wire.headerWidth then .incomplete none
    else match readHeader magic i.buffer with
      | .error e => .rejected e
      | .ok header => frameOf header i.buffer

theorem length_rest_lt_of_frameOf {h header : Header} {buffer payload rest : Bytes}
    (hf : frameOf h buffer = .frame header payload rest) : rest.length < buffer.length := by
  simp only [frameOf] at hf
  split at hf
  · exact absurd hf (by simp)
  · rename_i hlong
    rw [isShorter_iff] at hlong
    simp only [Arrived.frame.injEq] at hf
    simp only [← hf.2.2, List.length_drop, Wire.headerWidth] at *
    omega

/-- A frame uses up bytes. -/
theorem length_rest_lt_of_next {i : Inbox} {magic : Magic} {header : Header} {payload rest : Bytes}
    (h : i.next magic = .frame header payload rest) : rest.length < i.buffer.length := by
  unfold next at h
  split at h
  · exact length_rest_lt_of_frameOf h
  · split at h
    · exact absurd h (by simp)
    · split at h
      · exact absurd h (by simp)
      · exact length_rest_lt_of_frameOf h

end Inbox

end PeerCrawl
