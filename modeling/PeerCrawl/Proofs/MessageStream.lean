import PeerCrawl.Proofs.Fragmentation
import PeerCrawl.Proofs.Messages

set_option autoImplicit false

/-! # Streams of messages

A peer that keeps the protocol sends one frame after the other. Such a stream is dispatched message
by message, in order and exactly once (`Session.feed_stream`), wherever it is cut
(`Connection.receiveAll_stream`). The start of a frame that is not complete yet waits in the inbox
(`Inbox.waiting`), with its header if that has arrived. -/

namespace PeerCrawl

/-! ## Frames at the front of an inbox -/

namespace Inbox

variable {magic : Magic} {m : Message}

/-- The inbox in which the start of a message's frame waits for the rest. -/
def waiting (magic : Magic) (m : Message) (start : Bytes) : Inbox where
  buffer := start
  header := if Wire.headerWidth ≤ start.length then some (m.header magic) else none

theorem waiting_nil (magic : Magic) (m : Message) : waiting magic m [] = {} := rfl

theorem payloadLength_header (h : m.Sendable) (magic : Magic) :
    (m.header magic).payloadLength.toNat = m.payload.length := by
  have hle := h.length_le
  rw [Wire.maxPayload] at hle
  exact UInt32.toNat_ofNat_of_lt' (by rw [UInt32.size]; omega)

/-- A buffer that starts with the header of a message that may be sent. -/
theorem readHeader_of_take {buffer : Bytes} (h : m.Sendable)
    (htake : buffer.take Wire.headerWidth = (m.header magic).encode) :
    readHeader magic buffer = .ok (m.header magic) := by
  obtain ⟨name, hname⟩ := h.named
  have hread : Reader.header.value (m.header magic).encode = .ok (m.header magic) :=
    (Reader.header_takes (Command.isPrintable_of_ofName hname)).value
  have hmagic : ¬ (m.header magic).magic ≠ magic := fun hne => hne rfl
  have hlen : ¬ Wire.maxPayload < (m.header magic).payloadLength.toNat := by
    rw [payloadLength_header h]
    exact Nat.not_lt.2 h.length_le
  rw [readHeader, htake, hread]
  simp only [if_neg hmagic, if_neg hlen]

theorem next_frame (h : m.Sendable) (rest : Bytes) :
    ({ buffer := m.frame magic ++ rest } : Inbox).next magic =
      .frame (m.header magic) m.payload rest := by
  have hlen := Header.length_encode (m.header magic)
  have htake : (m.frame magic ++ rest).take Wire.headerWidth = (m.header magic).encode := by
    rw [Message.frame_eq, List.append_assoc, ← hlen, List.take_left]
  have hdrop : (m.frame magic ++ rest).drop Wire.headerWidth = m.payload ++ rest := by
    rw [Message.frame_eq, List.append_assoc, ← hlen, List.drop_left]
  have hframe := Message.length_frame magic m
  rw [next_of_goodHeader rfl (by rw [List.length_append]; omega) (readHeader_of_take h htake),
    frameOf_of_le (by rw [payloadLength_header h, List.length_append]; omega), hdrop,
    payloadLength_header h, List.take_left, List.drop_left]

/-- The start of a frame, which is not all of it. -/
theorem next_start {start : Bytes} (h : m.Sendable) (hstart : start <+: m.frame magic)
    (hne : start ≠ m.frame magic) :
    ({ buffer := start } : Inbox).next magic = .incomplete (waiting magic m start).header := by
  have hlt : start.length < (m.frame magic).length :=
    Nat.lt_of_le_of_ne hstart.length_le fun he => hne (hstart.eq_of_length he)
  rw [waiting]
  rcases Nat.lt_or_ge start.length Wire.headerWidth with hshort | hlong
  · rw [next_of_lt rfl hshort, if_neg (Nat.not_le.2 hshort)]
  · -- the header is complete, so it is that of the whole frame
    have htake : start.take Wire.headerWidth = (m.header magic).encode := by
      obtain ⟨missing, hmissing⟩ := hstart
      have hsame : (start ++ missing).take Wire.headerWidth = start.take Wire.headerWidth :=
        List.take_append_of_le_length hlong
      rw [← hsame, hmissing, Message.frame_eq, ← Header.length_encode (m.header magic),
        List.take_left]
    rw [Message.length_frame] at hlt
    rw [next_of_goodHeader rfl hlong (readHeader_of_take h htake),
      frameOf_of_lt (by rw [payloadLength_header h]; exact hlt), if_pos hlong]

end Inbox

/-! ## Feeding a stream -/

namespace Session

variable {s : Session} {m : Message}

theorem feed_start {start : Bytes} (h : m.Sendable) (hstart : start <+: m.frame s.config.magic)
    (hne : start ≠ m.frame s.config.magic) :
    s.feed { buffer := start } =
      { session := s, inbox := Inbox.waiting s.config.magic m start } := by
  rw [feed_of_incomplete (Inbox.next_start h hstart hne)]
  rfl

theorem feed_frame (h : m.Sendable) (hm : m.Decodes s.streamVersion) (rest : Bytes) :
    ∃ notices, s.feed { buffer := m.frame s.config.magic ++ rest } =
      ((s.heard [m]).feed { buffer := rest }).after (m.events s.peer s.streamVersion) notices := by
  obtain ⟨notices, hh⟩ := handle_of_decodes hm
  exact ⟨notices, feed_of_handled (Inbox.next_frame h rest) hh⟩

/-- The messages of a stream are dispatched in order, each exactly once, before what follows. -/
theorem feed_stream {ms : List Message} (hms : ∀ m ∈ ms, m.Sendable)
    (hdec : Message.DecodeInTurn s.streamVersion ms) (rest : Bytes) :
    ∃ notices, s.feed { buffer := Message.stream s.config.magic ms ++ rest } =
      ((s.heard ms).feed { buffer := rest }).after
        (Message.eventsOf s.peer s.streamVersion ms) notices := by
  induction ms generalizing s with
  | nil => exact ⟨[], by rw [heard_nil]; rfl⟩
  | cons m ms ih =>
    obtain ⟨hm, hdec⟩ := hdec
    rw [← streamVersion_heard] at hdec
    obtain ⟨first, hfirst⟩ := feed_frame (hms m List.mem_cons_self) hm
      (Message.stream s.config.magic ms ++ rest)
    obtain ⟨later, hlater⟩ := ih (s := s.heard [m]) (fun m' h => hms m' (List.mem_cons_of_mem m h))
      hdec
    rw [config_heard] at hlater
    refine ⟨first ++ later, ?_⟩
    rw [Message.stream_cons, List.append_assoc, hfirst, hlater, Fed.after_after,
      ← heard_append, List.singleton_append, streamVersion_heard, peer_heard, Message.eventsOf]

end Session

/-! ## Receiving a stream in pieces -/

namespace Connection

variable {c : Connection}

theorem unread_of_ok {pieces : List Bytes} (h : (c.receiveAll pieces).outcome.result = .ok ()) :
    (c.receiveAll pieces).unread = [] := by
  induction pieces generalizing c with
  | nil => rfl
  | cons b rest ih =>
    cases hb : (c.receive b).result with
    | error e =>
      rw [receiveAll_of_error hb, hb] at h
      exact absurd h (by simp)
    | ok u =>
      rw [receiveAll_of_ok hb, Outcome.andThen_of_ok hb] at h
      rw [receiveAll_of_ok hb]
      exact ih h

/-- Pieces of bytes that are all received make no difference. -/
theorem receiveAll_eq {first : Bytes} {rest : List Bytes}
    (h : (c.receive (first :: rest).flatten).result = .ok ()) :
    c.receiveAll (first :: rest) =
      { outcome := c.receive (first :: rest).flatten, unread := [] } := by
  have hflat := c.receive_flatten first rest
  have hunread : (c.receiveAll (first :: rest)).unread = [] := by
    rw [hflat] at h
    exact unread_of_ok h
  rw [hunread, Outcome.leaving_nil] at hflat
  rw [hflat, ← hunread]

/-- Frames of messages that can be understood, and the start of one more, reach an empty inbox. -/
theorem receive_stream {ms : List Message} {last : Message} {start : Bytes} (hc : c.inbox = {})
    (hms : ∀ m ∈ ms, m.Sendable) (hdec : Message.DecodeInTurn c.session.streamVersion ms)
    (hlast : last.Sendable) (hstart : start <+: last.frame c.session.config.magic)
    (hne : start ≠ last.frame c.session.config.magic) :
    ∃ notices, c.receive (Message.stream c.session.config.magic ms ++ start) =
      { connection := { c with
          session := c.session.heard ms
          inbox := Inbox.waiting c.session.config.magic last start }
        result := .ok ()
        events := Message.eventsOf c.peer c.session.streamVersion ms
        notices } := by
  obtain ⟨notices, hfed⟩ := Session.feed_stream hms hdec start
  rw [Session.feed_start (s := c.session.heard ms) hlast hstart hne, Session.config_heard] at hfed
  refine ⟨notices, ?_⟩
  rw [receive, hc, Inbox.append, List.nil_append, hfed]
  simp only [Fed.after, List.append_nil]
  rfl

/-- **A well-formed stream is dispatched exactly once and in order.** Let frames of messages that
can be understood, and then the start of one more frame, reach an empty inbox in any pieces. Then
every piece is received; the events are those of the messages in order, one handshake for each
version message and one list for each list of addresses; the answers are queued in order, the last
introduction is known, and the start of the last frame waits in the inbox. -/
theorem receiveAll_stream (c : Connection) (hc : c.inbox = {}) (ms : List Message)
    (hms : ∀ m ∈ ms, m.Sendable) (hdec : Message.DecodeInTurn c.session.streamVersion ms)
    (last : Message) (hlast : last.Sendable) (start : Bytes)
    (hstart : start <+: last.frame c.session.config.magic)
    (hne : start ≠ last.frame c.session.config.magic) (pieces : List Bytes)
    (hpieces : pieces.flatten = Message.stream c.session.config.magic ms ++ start) :
    ∃ notices, c.receiveAll pieces =
      { outcome := {
          connection := { c with
            session := c.session.heard ms
            inbox := Inbox.waiting c.session.config.magic last start }
          result := .ok ()
          events := Message.eventsOf c.peer c.session.streamVersion ms
          notices }
        unread := [] } := by
  obtain ⟨notices, hreceive⟩ := receive_stream hc hms hdec hlast hstart hne
  cases pieces with
  | nil =>
    -- no call was made, so nothing may have been sent
    have hnil : Message.stream c.session.config.magic ms ++ start = [] := hpieces.symm
    obtain ⟨hstream, hstart⟩ := List.append_eq_nil_iff.1 hnil
    cases ms with
    | nil =>
      refine ⟨[], ?_⟩
      rw [Session.heard_nil, hstart, Inbox.waiting_nil, ← hc]
      rfl
    | cons m ms =>
      rw [Message.stream_cons] at hstream
      exact absurd (List.append_eq_nil_iff.1 hstream).1 (Message.frame_ne_nil _ m)
  | cons first rest =>
    rw [← hpieces] at hreceive
    have hok : (c.receive (first :: rest).flatten).result = .ok () := by rw [hreceive]
    exact ⟨notices, by rw [receiveAll_eq hok, hreceive]⟩

/-- A peer at version 70015 introduces itself and sends a ping, cut inside the header, and then the
start of another ping. -/
theorem receiveAll_stream_introduction_ping :
    let c := ofSocket { localEndpoint := .error .notConnected } Address.unspecified .standard
    let introduction : VersionMessage := {
      version := .standard, services := .none, timestamp := 0, sender := Address.unspecified
      receiver := Address.unspecified, nonce := 1, userAgent := "/a:1/", startHeight := 9
      relay := false }
    let ping : Message := ⟨Command.ping, [1, 2, 3, 4, 5, 6, 7, 8]⟩
    let sent := Message.stream c.session.config.magic [introduction.message, ping]
    let start := (ping.frame c.session.config.magic).take 26
    ∃ notices, c.receiveAll [sent.take 7, sent.drop 7, start] =
      { outcome := {
          connection := { c with
            session := c.session.heard [introduction.message, ping]
            inbox := Inbox.waiting c.session.config.magic ping start }
          result := .ok ()
          events := Message.eventsOf c.peer c.session.streamVersion [introduction.message, ping]
          notices }
        unread := [] } := by
  intro c introduction ping sent start
  have hlen : introduction.message.payload.length ≤ Wire.maxPayload := by decide
  have hversion : introduction.message.Sendable := ⟨⟨"version", rfl⟩, hlen⟩
  have hping : ping.Sendable := ⟨⟨"ping", rfl⟩, by decide⟩
  refine receiveAll_stream c rfl [introduction.message, ping] ?_ ?_ ping hping start
    (List.take_prefix _ _) ?_ _ ?_
  · intro m hm
    simp only [List.mem_cons, List.not_mem_nil, or_false] at hm
    rcases hm with rfl | rfl
    · exact hversion
    · exact hping
  · refine ⟨VersionMessage.decodes_message hlen _, ⟨?_, fun _ => .inr (by decide), ?_⟩, trivial⟩
    · intro h
      exact absurd h (by decide)
    · intro h
      exact absurd h (by decide)
  · intro h
    have hcut := congrArg List.length h
    rw [List.length_take, Message.length_frame] at hcut
    exact absurd hcut (by decide)
  · show sent.take 7 ++ (sent.drop 7 ++ (start ++ [])) = sent ++ start
    rw [← List.append_assoc, List.take_append_drop, List.append_nil]

end Connection

end PeerCrawl
