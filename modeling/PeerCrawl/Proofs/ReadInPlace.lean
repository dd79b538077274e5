import PeerCrawl.Connection.Basic
import PeerCrawl.Proofs.Framing

set_option autoImplicit false

/-! # Reading frames in place

The complete frames of a buffer can be handled where they are: a cursor moves behind each frame, and
only at the end is everything before it dropped. This takes slices of the buffer by their bounds,
and counts what lies behind the cursor. A slice that the buffer does not have, or a cursor behind
the end, gives nothing at all, so `Connection.receiveInPlace` has a result only if neither is ever
asked for. It always has one, and that is what `Connection.receive` comes to
(`Connection.receiveInPlace_eq`). -/

namespace PeerCrawl

namespace Bytes

variable {b : Bytes} {start stop place : Nat}

/-- The bytes from `start` up to `stop`, if there is such a slice. -/
def slice? (b : Bytes) (start stop : Nat) : Option Bytes :=
  if start ≤ stop ∧ stop ≤ b.length then some ((b.drop start).take (stop - start)) else none

/-- How many bytes follow a place, if that is not behind the end. -/
def countFrom? (b : Bytes) (place : Nat) : Option Nat :=
  if place ≤ b.length then some (b.length - place) else none

theorem slice?_of_le (h : start ≤ stop) (h' : stop ≤ b.length) :
    b.slice? start stop = some ((b.drop start).take (stop - start)) := if_pos ⟨h, h'⟩

theorem slice?_to_end (h : place ≤ b.length) : b.slice? place b.length = some (b.drop place) := by
  rw [slice?_of_le h (Nat.le_refl _), List.take_of_length_le (Nat.le_of_eq List.length_drop)]

theorem countFrom?_of_le (h : place ≤ b.length) : b.countFrom? place = some (b.length - place) :=
  if_pos h

end Bytes

/-! ## The header at the cursor -/

namespace Inbox

/-- The header at the cursor: the one that is stored, or the next one, once all of it is there.
There is no result if a slice is missing. -/
def headerAt? (magic : Magic) (buffer : Bytes) (stored : Option Header) (place : Nat) :
    Option (Except ConnectionError (Option Header)) :=
  match stored with
  | some header => some (.ok (some header))
  | none =>
    (buffer.countFrom? place).bind fun left =>
      if left < Wire.headerWidth then some (.ok none)
      else (buffer.slice? place (place + Wire.headerWidth)).map fun head =>
        (readHeader magic head).map some

variable {buffer : Bytes} {place : Nat}

/-- The header at the cursor is there, and is what stands in front of the bytes behind it. -/
theorem headerAt?_cases (magic : Magic) (stored : Option Header) (h : place ≤ buffer.length) :
    headerAt? magic buffer stored place = some (.ok none) ∧
        next { buffer := buffer.drop place, header := stored } magic = .incomplete none ∨
      (∃ e, headerAt? magic buffer stored place = some (.error e) ∧ stored = none ∧
        next { buffer := buffer.drop place, header := stored } magic = .rejected e) ∨
      ∃ header, headerAt? magic buffer stored place = some (.ok (some header)) ∧
        next { buffer := buffer.drop place, header := stored } magic =
          frameOf header (buffer.drop place) := by
  cases stored with
  | some header => exact .inr (.inr ⟨header, rfl, next_of_header rfl⟩)
  | none =>
    have hat : headerAt? magic buffer none place =
        if buffer.length - place < Wire.headerWidth then some (.ok none)
        else (buffer.slice? place (place + Wire.headerWidth)).map fun head =>
          (readHeader magic head).map some := by
      rw [headerAt?, Bytes.countFrom?_of_le h, Option.bind_some]
    have hlen : (buffer.drop place).length = buffer.length - place := List.length_drop
    rw [hat]
    by_cases hlt : buffer.length - place < Wire.headerWidth
    · rw [if_pos hlt]
      exact .inl ⟨rfl, next_of_lt rfl (hlen ▸ hlt)⟩
    · have hle : Wire.headerWidth ≤ (buffer.drop place).length := by
        rw [hlen]
        exact Nat.not_lt.1 hlt
      have hslice : buffer.slice? place (place + Wire.headerWidth) =
          some ((buffer.drop place).take Wire.headerWidth) := by
        rw [Bytes.slice?_of_le (Nat.le_add_right _ _) (by omega), Nat.add_sub_cancel_left]
      have hread : readHeader magic ((buffer.drop place).take Wire.headerWidth) =
          readHeader magic (buffer.drop place) := by
        rw [readHeader, readHeader, List.take_take, Nat.min_self]
      rw [if_neg hlt, hslice, Option.map_some, hread]
      cases hr : readHeader magic (buffer.drop place) with
      | error e => exact .inr (.inl ⟨e, rfl, rfl, next_of_badHeader rfl hle hr⟩)
      | ok header => exact .inr (.inr ⟨header, rfl, next_of_goodHeader rfl hle hr⟩)

end Inbox

/-! ## The frames of a buffer -/

/-- What the frames of a buffer came to, and where the cursor stopped. -/
structure Scan where
  session : Session
  /-- The header at the cursor, if it was read and its payload is not complete. -/
  header : Option Header
  place : Nat
  events : List PeerEvent := []
  notices : List ConnectionNotice := []
  result : Except ConnectionError Unit := .ok ()

namespace Scan

/-- Put what was told before in front. -/
def after (scan : Scan) (events : List PeerEvent) (notices : List ConnectionNotice) : Scan :=
  { scan with events := events ++ scan.events, notices := notices ++ scan.notices }

/-- Drop what lies before the cursor. -/
def finish? (scan : Scan) (buffer : Bytes) : Option Fed :=
  (buffer.slice? scan.place buffer.length).map fun rest =>
    { session := scan.session, inbox := { buffer := rest, header := scan.header }
      events := scan.events, notices := scan.notices, result := scan.result }

theorem finish?_of_le {scan : Scan} {buffer : Bytes} (h : scan.place ≤ buffer.length) :
    scan.finish? buffer = some
      { session := scan.session
        inbox := { buffer := buffer.drop scan.place, header := scan.header }
        events := scan.events, notices := scan.notices, result := scan.result } := by
  rw [finish?, Bytes.slice?_to_end h, Option.map_some]

theorem finish?_after (scan : Scan) (buffer : Bytes) (events : List PeerEvent)
    (notices : List ConnectionNotice) :
    (scan.after events notices).finish? buffer =
      (scan.finish? buffer).map (·.after events notices) := by
  rw [finish?, finish?, Option.map_map]
  rfl

end Scan

namespace Session

/-- Handle the complete frames behind the cursor. There is no result if a slice is missing. -/
def scan? (s : Session) (buffer : Bytes) (stored : Option Header) (place : Nat) : Option Scan :=
  match Inbox.headerAt? s.config.magic buffer stored place with
  | none => none
  | some (.error e) => some { session := s, header := none, place, result := .error e }
  | some (.ok none) => some { session := s, header := none, place }
  | some (.ok (some header)) =>
    let start := place + Wire.headerWidth
    let stop := start + header.payloadLength.toNat
    if _h : buffer.length < stop then some { session := s, header := some header, place }
    else
      match buffer.slice? start stop with
      | none => none
      | some payload =>
        match s.handle header payload with
        | .error e => some { session := s, header := none, place := stop, result := .error e }
        | .ok r => (r.session.scan? buffer none stop).map (·.after r.events r.notices)
termination_by buffer.length - place
decreasing_by
  have hwidth : 0 < Wire.headerWidth := by decide
  omega

/-- Frames are handled in place as they are when they are cut off: nothing is missing, and the
cursor stops in front of what is left. -/
theorem scan?_eq (s : Session) (buffer : Bytes) (stored : Option Header) (place : Nat)
    (h : place ≤ buffer.length) :
    ∃ scan, s.scan? buffer stored place = some scan ∧ place ≤ scan.place ∧
      scan.place ≤ buffer.length ∧
      scan.finish? buffer = some (s.feed { buffer := buffer.drop place, header := stored }) := by
  -- the cursor moves on with each frame
  induction hn : buffer.length - place using Nat.strongRecOn generalizing s stored place with
  | _ n ih =>
    rw [scan?]
    rcases Inbox.headerAt?_cases s.config.magic stored h with
      ⟨hat, hnext⟩ | ⟨e, hat, rfl, hnext⟩ | ⟨header, hat, hnext⟩
    · rw [hat, feed_of_incomplete hnext]
      exact ⟨_, rfl, Nat.le_refl _, h, Scan.finish?_of_le h⟩
    · rw [hat, feed_of_rejected hnext]
      exact ⟨_, rfl, Nat.le_refl _, h, Scan.finish?_of_le h⟩
    rw [hat]
    dsimp only
    have hlen : (buffer.drop place).length = buffer.length - place := List.length_drop
    by_cases hlt : buffer.length < place + Wire.headerWidth + header.payloadLength.toNat
    · rw [dif_pos hlt]
      rw [Inbox.frameOf_of_lt (by rw [hlen]; omega)] at hnext
      rw [feed_of_incomplete hnext]
      exact ⟨_, rfl, Nat.le_refl _, h, Scan.finish?_of_le h⟩
    · rw [dif_neg hlt]
      have hstop := Nat.not_lt.1 hlt
      rw [Inbox.frameOf_of_le (by rw [hlen]; omega), List.drop_drop, List.drop_drop] at hnext
      rw [Bytes.slice?_of_le (Nat.le_add_right _ _) hstop, Nat.add_sub_cancel_left]
      dsimp only
      cases hh : s.handle header
          ((buffer.drop (place + Wire.headerWidth)).take header.payloadLength.toNat) with
      | error e =>
        rw [feed_of_refused hnext hh]
        refine ⟨_, rfl, ?_, hstop, Scan.finish?_of_le hstop⟩
        show place ≤ place + Wire.headerWidth + header.payloadLength.toNat
        omega
      | ok r =>
        have hwidth : 0 < Wire.headerWidth := by decide
        obtain ⟨scan, hscan, hle, hend, hfed⟩ := ih
          (buffer.length - (place + Wire.headerWidth + header.payloadLength.toNat)) (by omega)
          r.session none (place + Wire.headerWidth + header.payloadLength.toNat) hstop rfl
        rw [feed_of_handled hnext hh]
        dsimp only
        rw [hscan]
        refine ⟨scan.after r.events r.notices, rfl, ?_, hend, ?_⟩
        · show place ≤ scan.place
          omega
        · rw [Scan.finish?_after, hfed]
          rfl

end Session

namespace Connection

/-- Receive bytes, and handle all frames in place. There is no result if a slice is missing. -/
def receiveInPlace (c : Connection) (bytes : Bytes) : Option (Outcome Unit) :=
  let buffer := c.inbox.buffer ++ bytes
  ((c.session.scan? buffer c.inbox.header 0).bind (·.finish? buffer)).map fun fed =>
    { connection := { c with session := fed.session, inbox := fed.inbox }
      result := fed.result
      events := fed.events
      notices := fed.notices }

/-- Nothing is ever missing in place, whatever a connection is like and whatever arrives. -/
theorem receiveInPlace_eq (c : Connection) (bytes : Bytes) :
    c.receiveInPlace bytes = some (c.receive bytes) := by
  obtain ⟨scan, hscan, -, -, hfed⟩ :=
    c.session.scan?_eq (c.inbox.buffer ++ bytes) c.inbox.header 0 (Nat.zero_le _)
  rw [receiveInPlace, hscan, Option.bind_some, hfed, List.drop_zero]
  rfl

end Connection

end PeerCrawl
