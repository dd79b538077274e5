import PeerCrawl.Proofs.InboxBounds
import PeerCrawl.Proofs.ReadErrors

set_option autoImplicit false

/-! # What follows a refusal

Receiving fails for one of two reasons. A header that is bad stays at the front of the inbox, and
nothing behind it is ever looked at (`Connection.bad_header_final`). A payload that is refused is
used up with its frame, and it is as if the frame had never been sent
(`Connection.refused_payload_skipped`). Either way everything before it has been handled as if
nothing else had arrived (`Connection.Tidy.exists_refusal`). -/

namespace PeerCrawl

/-! ## The two kinds of refusals -/

namespace ConnectionError

/-- Why a header is bad. -/
inductive OfHeader : ConnectionError → Prop
  | malformed : OfHeader (.wire .malformedCommand)
  | foreign (expected received : Magic) : OfHeader (.magicMismatch expected received)
  | oversized (length : UInt32) : OfHeader (.payloadTooLarge length)

/-- Why a payload is refused. -/
inductive OfPayload : ConnectionError → Prop
  | checksum (command : Command) : OfPayload (.checksumMismatch command)
  | wire (e : WireError) (h : e ≠ .malformedCommand) : OfPayload (.wire e)

/-- The error says which of the two was refused. -/
theorem OfPayload.not_ofHeader {e : ConnectionError} (h : e.OfPayload) : ¬ e.OfHeader := by
  intro hheader
  cases h with
  | checksum command => cases hheader
  | wire w hne =>
    cases hheader
    exact hne rfl

end ConnectionError

theorem Inbox.ofHeader_of_readHeader {magic : Magic} {buffer : Bytes} {e : ConnectionError}
    (hle : Wire.headerWidth ≤ buffer.length) (h : readHeader magic buffer = .error e) :
    e.OfHeader := by
  unfold readHeader at h
  split at h
  · next w hw =>
    have hfull : Wire.headerWidth ≤ (buffer.take Wire.headerWidth).length := by
      rw [List.length_take, Nat.min_eq_left hle]
    rw [← Except.error.inj h, Reader.header_fails hfull hw]
    exact .malformed
  · split at h
    · rw [← Except.error.inj h]
      exact .foreign _ _
    · split at h
      · rw [← Except.error.inj h]
        exact .oversized _
      · cases h

namespace Session

variable {s : Session} {header : Header} {payload : Bytes} {w : WireError}

/-- The commands whose payloads are read. -/
def readCommands : List Command := [Command.version, Command.ping, Command.addr]

theorem handleVersion_fails (h : s.handleVersion payload = .error w) : w ≠ .malformedCommand := by
  simp only [handleVersion, bind, Except.bind] at h
  split at h
  · next hpeek =>
    rw [← Except.error.inj h]
    exact (Reader.versionPeek_failsOnly.sized.value hpeek).ne_malformedCommand
  · split at h
    · next hread =>
      rw [← Except.error.inj h]
      exact ((Reader.versionMessage_failsOnly _).value hread).ne_malformedCommand
    · cases h

theorem handlePing_fails (h : s.handlePing payload = .error w) : w ≠ .malformedCommand := by
  unfold handlePing at h
  split at h
  · cases h
  · simp only [bind, Except.bind] at h
    split at h
    · next hread =>
      rw [← Except.error.inj h]
      exact (Reader.u64le_failsOnly.sized.value hread).ne_malformedCommand
    · cases h

theorem handleAddresses_fails (h : s.handleAddresses payload = .error w) :
    w ≠ .malformedCommand := by
  simp only [handleAddresses, bind, Except.bind] at h
  split at h
  · next hread =>
    rw [← Except.error.inj h]
    rcases (Reader.addressList_failsOnly _).value hread with hsize | ⟨n, rfl⟩
    · exact hsize.ne_malformedCommand
    · exact WireError.noConfusion
  · cases h

/-- A payload that is not understood belongs to a command whose payloads are read. -/
theorem interpret_fails {command : Command} (h : s.interpret command payload = .error w) :
    command ∈ readCommands ∧ w ≠ .malformedCommand := by
  unfold interpret at h
  split at h
  · next hversion => exact ⟨by rw [hversion]; decide, handleVersion_fails h⟩
  · split at h
    · cases h
    · split at h
      · next hping => exact ⟨by rw [hping]; decide, handlePing_fails h⟩
      · split at h
        · next haddr => exact ⟨by rw [haddr]; decide, handleAddresses_fails h⟩
        · cases h

/-- A frame is refused for its checksum, or because its payload cannot be read. -/
theorem handle_fails {e : ConnectionError} (h : s.handle header payload = .error e) :
    s.config.verifyChecksum = true ∧ checksum payload ≠ header.checksum ∧
        e = .checksumMismatch header.command ∨
      ∃ w, s.interpret header.command payload = .error w ∧ e = .wire w := by
  unfold handle at h
  split at h
  · next hsum => exact .inl ⟨hsum.1, hsum.2, (Except.error.inj h).symm⟩
  · cases hread : s.interpret header.command payload with
    | error w =>
      rw [hread] at h
      exact .inr ⟨w, rfl, (Except.error.inj h).symm⟩
    | ok r =>
      rw [hread] at h
      cases h

theorem ofPayload_of_handle {e : ConnectionError} (h : s.handle header payload = .error e) :
    e.OfPayload := by
  obtain ⟨-, -, rfl⟩ | ⟨w, hread, rfl⟩ := handle_fails h
  · exact .checksum _
  · exact .wire w (interpret_fails hread).2

end Session

/-! ## Frames at the front -/

/-- The bytes are one frame: a good header and the payload that it announces. -/
structure Wire.IsFrame (magic : Magic) (header : Header) (payload frame : Bytes) : Prop where
  length_eq : frame.length = headerWidth + header.payloadLength.toNat
  header_eq : Inbox.readHeader magic frame = .ok header
  payload_eq : frame.drop headerWidth = payload

namespace Inbox

variable {magic : Magic} {header : Header} {payload rest buffer : Bytes}

theorem readHeader_of_rejected {e : ConnectionError}
    (h : ({ buffer } : Inbox).next magic = .rejected e) :
    Wire.headerWidth ≤ buffer.length ∧ readHeader magic buffer = .error e := by
  rcases (sound_of_none rfl : Sound magic { buffer }).cases with
    ⟨-, -, hn⟩ | ⟨-, hle, e', hread, hn⟩ | ⟨-, good, -, hn⟩
  · exact absurd (hn.symm.trans h) (by simp)
  · rw [← Arrived.rejected.inj (hn.symm.trans h)]
    exact ⟨hle, hread⟩
  · exact absurd (hn.symm.trans h) ne_rejected_of_frameOf

theorem exists_frame_of_next
    (h : ({ buffer } : Inbox).next magic = .frame header payload rest) :
    ∃ frame, buffer = frame ++ rest ∧ Wire.IsFrame magic header payload frame := by
  rcases (sound_of_none rfl : Sound magic { buffer }).cases with
    ⟨-, -, hn⟩ | ⟨-, -, e, -, hn⟩ | ⟨hle, good, hread, hn⟩
  · exact absurd (hn.symm.trans h) (by simp)
  · exact absurd (hn.symm.trans h) (by simp)
  · have hframe := hn.symm.trans h
    have hlen := le_of_frameOf hframe
    rw [frameOf_of_le hlen, Arrived.frame.injEq] at hframe
    obtain ⟨rfl, hpayload, hrest⟩ := hframe
    let frame := buffer.take (Wire.headerWidth + good.payloadLength.toNat)
    have hsplit : buffer = frame ++ rest := by
      rw [← hrest, List.drop_drop, List.take_append_drop]
    have hlength : frame.length = Wire.headerWidth + good.payloadLength.toNat := by
      rw [List.length_take, Nat.min_eq_left hlen]
    refine ⟨frame, hsplit, hlength, ?_, ?_⟩
    · rw [← readHeader_append (b := rest) (by omega), ← hsplit]
      exact hread
    · rw [← hpayload, List.drop_take, Nat.add_sub_cancel_left]

theorem next_of_isFrame {frame : Bytes} (h : Wire.IsFrame magic header payload frame)
    (rest : Bytes) :
    ({ buffer := frame ++ rest } : Inbox).next magic = .frame header payload rest := by
  obtain ⟨hlength, hread, rfl⟩ := h
  have hle : Wire.headerWidth ≤ frame.length := by omega
  have hpayload : (frame.drop Wire.headerWidth).length = header.payloadLength.toNat := by
    rw [List.length_drop, hlength, Nat.add_sub_cancel_left]
  rw [next_of_goodHeader rfl (by rw [List.length_append]; omega)
      (by rw [readHeader_append hle, hread]),
    frameOf_of_le (by rw [List.length_append]; omega), List.drop_append_of_le_length hle,
    List.take_left' hpayload, List.drop_left' hpayload]

end Inbox

/-! ## Where a feed stops -/

/-- The bytes are frames, and the session refuses none of them. -/
structure Session.Handles (s : Session) (bytes : Bytes) : Prop where
  result : (s.feed { buffer := bytes }).result = .ok ()
  inbox : (s.feed { buffer := bytes }).inbox = {}

namespace Session

variable {s : Session} {header : Header} {payload : Bytes}

theorem handles_nil (s : Session) : s.Handles [] := by
  have hfed : s.feed {} = { session := s, inbox := {} } := feed_of_incomplete rfl
  exact ⟨by rw [hfed], by rw [hfed]⟩

/-- Every byte string starts with frames that are handled, and goes on with something that is not a
frame, or is a frame that is refused. -/
theorem exists_stop (s : Session) (b : Bytes) :
    ∃ before rest, b = before ++ rest ∧ s.Handles before ∧
      ∀ header payload left,
        ({ buffer := rest } : Inbox).next s.config.magic = .frame header payload left →
          ∃ e, (s.feed { buffer := before }).session.handle header payload = .error e := by
  -- one frame after the other, each of which leaves fewer bytes
  induction hb : b.length using Nat.strongRecOn generalizing s b with
  | _ n ih =>
    by_cases hfirst : ∃ header payload left r,
      ({ buffer := b } : Inbox).next s.config.magic = .frame header payload left ∧
        s.handle header payload = .ok r
    · obtain ⟨header, payload, left, r, hn, hr⟩ := hfirst
      have hlt : left.length < n := hb ▸ Inbox.length_rest_lt_of_next hn
      obtain ⟨frame, rfl, hframe⟩ := Inbox.exists_frame_of_next hn
      obtain ⟨before, rest, rfl, ⟨hresult, hinbox⟩, hstop⟩ := ih left.length hlt r.session left rfl
      have hfed : s.feed { buffer := frame ++ before } =
          (r.session.feed { buffer := before }).after r.events r.notices :=
        feed_of_handled (Inbox.next_of_isFrame hframe before) hr
      refine ⟨frame ++ before, rest, by rw [List.append_assoc], ⟨?_, ?_⟩, ?_⟩
      · rw [hfed, Fed.after_result, hresult]
      · rw [hfed, Fed.after_inbox, hinbox]
      · rw [hfed, Fed.after_session, ← config_of_handle hr]
        exact hstop
    · refine ⟨[], b, rfl, s.handles_nil, fun header payload left hn => ?_⟩
      have hfed : (s.feed {}).session = s := by rw [feed_of_incomplete rfl]
      rw [hfed]
      cases hr : s.handle header payload with
      | error e => exact ⟨e, rfl⟩
      | ok r => exact absurd ⟨header, payload, left, r, hn, hr⟩ hfirst

end Session

/-! ## Refusals -/

/-- What was done and told, and then a refusal that leaves bytes behind. -/
def Outcome.refused (o : Outcome Unit) (left : Bytes) (e : ConnectionError) : Outcome Unit :=
  { o.leaving left with result := .error e }

/-- Bytes that come after what a refusal left are received together with it. -/
theorem Outcome.receive_refused (o : Outcome Unit) (left : Bytes) (e : ConnectionError)
    (more : Bytes) :
    (o.refused left e).connection.receive more = o.connection.receive (left ++ more) := by
  rw [refused, leaving, Connection.receive, Connection.receive, Inbox.append_append]

namespace Connection

variable {c d : Connection} {config : Configuration} {e : ConnectionError} {bytes : Bytes}

/-- The connection with nothing in its inbox. -/
def emptied (c : Connection) : Connection := { c with inbox := {} }

/-- The bytes are complete frames, and the connection refuses none of them. -/
structure Handles (c : Connection) (bytes : Bytes) : Prop where
  result : (c.receive bytes).result = .ok ()
  inbox : (c.receive bytes).connection.inbox = {}

theorem emptied_handles (h : c.session.Handles bytes) : c.emptied.Handles bytes :=
  ⟨h.result, h.inbox⟩

theorem receive_of_incomplete {header : Option Header}
    (h : (c.inbox.append bytes).next c.session.config.magic = .incomplete header) :
    (c.receive bytes).result = .ok () := by
  rw [receive, Session.feed_of_incomplete h]

theorem receive_of_rejected
    (h : (c.inbox.append bytes).next c.session.config.magic = .rejected e) :
    c.receive bytes =
      { connection := { c with inbox := c.inbox.append bytes }, result := .error e } := by
  simp only [receive, Session.feed_of_rejected h]

theorem receive_of_refused {header : Header} {payload rest : Bytes}
    (hn : (c.inbox.append bytes).next c.session.config.magic = .frame header payload rest)
    (h : c.session.handle header payload = .error e) :
    c.receive bytes =
      { connection := { c with inbox := { buffer := rest } }, result := .error e } := by
  simp only [receive, Session.feed_of_refused hn h]

/-- It makes no difference when the bytes in the inbox arrived. -/
theorem Tidy.receive_eq (hc : c.Tidy config) (bytes : Bytes) :
    c.receive bytes = c.emptied.receive (c.inbox.buffer ++ bytes) := by
  have hsound := hc.short.sound.append bytes
  rw [← hc.configured] at hsound
  have hfed : c.session.feed (c.inbox.append bytes) =
      c.session.feed { buffer := c.inbox.buffer ++ bytes } :=
    Session.feed_congr hsound.next_eq rfl
  rw [Connection.receive, hfed]
  rfl

/-- Bytes that follow what was handled. -/
theorem Handles.receive_append {before : Bytes} (h : c.Handles before) (rest : Bytes) :
    c.receive (before ++ rest) =
      (c.receive before).andThen fun _ d => d.receive rest :=
  receive_append_of_ok h.result rest

/-- A refusal right after what was handled. -/
theorem Handles.receive_refused {before rest left : Bytes} (h : c.Handles before)
    (hrest : (c.receive before).connection.receive rest =
      { connection := { (c.receive before).connection with inbox := { buffer := left } }
        result := .error e }) :
    c.receive (before ++ rest) = (c.receive before).refused left e := by
  rw [h.receive_append, Outcome.andThen_of_ok h.result, hrest, Outcome.refused, Outcome.leaving,
    h.inbox]
  simp only [List.append_nil]
  rfl

theorem Handles.inbox_refused {before left : Bytes} (h : c.Handles before) :
    ((c.receive before).refused left e).connection.inbox = { buffer := left } := by
  rw [Outcome.refused, Outcome.leaving, h.inbox]
  rfl

/-- **Where receiving fails.** What is in the inbox and what arrives start with frames that are
handled. Then there is a bad header, which is left, or a frame that is refused, and the bytes after
it are left. -/
theorem Tidy.exists_refusal (hc : c.Tidy config) (h : (c.receive bytes).result = .error e) :
    ∃ before rest, c.inbox.buffer ++ bytes = before ++ rest ∧ c.emptied.Handles before ∧
      (Wire.headerWidth ≤ rest.length ∧ Inbox.readHeader config.magic rest = .error e ∧
          c.receive bytes = (c.emptied.receive before).refused rest e ∨
        ∃ header payload frame left, rest = frame ++ left ∧
          Wire.IsFrame config.magic header payload frame ∧
          (c.emptied.receive before).connection.session.handle header payload = .error e ∧
          c.receive bytes = (c.emptied.receive before).refused left e) := by
  obtain ⟨before, rest, hsplit, hbefore, hstop⟩ := c.session.exists_stop (c.inbox.buffer ++ bytes)
  have hhandles : c.emptied.Handles before := emptied_handles hbefore
  have hreceive : c.receive bytes = c.emptied.receive (before ++ rest) := by
    rw [hc.receive_eq, hsplit]
  -- what follows is met by the connection as the frames before it have left it
  let d := (c.emptied.receive before).connection
  have hinbox : d.inbox.append rest = { buffer := rest } := by
    rw [show d.inbox = {} from hhandles.inbox]
    rfl
  have hconfig : d.session.config = config := (c.session.config_feed _).trans hc.configured
  refine ⟨before, rest, hsplit, hhandles, ?_⟩
  rw [hreceive] at h ⊢
  have hnext : (d.inbox.append rest).next d.session.config.magic =
      ({ buffer := rest } : Inbox).next config.magic := by rw [hinbox, hconfig]
  cases hn : ({ buffer := rest } : Inbox).next config.magic with
  | incomplete header =>
    have hok : (d.receive rest).result = .ok () := receive_of_incomplete (hnext.trans hn)
    rw [hhandles.receive_append, Outcome.andThen_of_ok hhandles.result] at h
    exact absurd (hok.symm.trans h) (by simp)
  | rejected e' =>
    have hrest := receive_of_rejected (hnext.trans hn)
    rw [hinbox] at hrest
    have hrefused := hhandles.receive_refused hrest
    rw [hrefused] at h
    obtain rfl := Except.error.inj h
    obtain ⟨hle, hread⟩ := Inbox.readHeader_of_rejected hn
    exact .inl ⟨hle, hread, hrefused⟩
  | frame header payload left =>
    obtain ⟨e', hhandle⟩ := hstop header payload left (by rw [hc.configured, hn])
    have hrest := receive_of_refused (hnext.trans hn) hhandle
    have hrefused := hhandles.receive_refused hrest
    rw [hrefused] at h
    obtain rfl := Except.error.inj h
    obtain ⟨frame, rfl, hframe⟩ := Inbox.exists_frame_of_next hn
    exact .inr ⟨header, payload, frame, left, rfl, hframe, hhandle, hrefused⟩

/-- **A refused payload is skipped.** Do anything to a fresh connection, going on after failures,
and then receive bytes. If that fails at a payload, then what the connection holds and what arrives
are complete frames that are handled, a frame that is refused, and other bytes.

* All that was done and told is what the frames before did and told: the connection, the events and
  the notices are theirs. No header is stored, and the inbox holds the bytes after the frame.
* To receive more is, from result to final state, to receive the bytes that are left and then more
  on a connection as it was before the frame, with an empty inbox. Taken together, the stream has
  been received without the frame. -/
theorem refused_payload_skipped (socket : Socket) (peer : Address) (config : Configuration)
    (ops : List Operation) (bytes : Bytes) :
    let c := ((ofSocket socket peer config).performAll ops).connection
    let failed := c.receive bytes
    ∀ e, failed.result = .error e → e.OfPayload →
      ∃ before frame rest header payload,
        c.inbox.buffer ++ bytes = before ++ frame ++ rest ∧
          Wire.IsFrame config.magic header payload frame ∧
          c.emptied.Handles before ∧
          let earlier := c.emptied.receive before
          earlier.connection.session.handle header payload = .error e ∧
            (e = .checksumMismatch header.command ∨
              ∃ w, e = .wire w ∧ header.command ∈ Session.readCommands) ∧
            failed = earlier.refused rest e ∧
            failed.connection.inbox = { buffer := rest } ∧
            ∀ more, failed.connection.receive more = earlier.connection.receive (rest ++ more) ∧
              c.emptied.receive (before ++ (rest ++ more)) =
                earlier.andThen fun _ _ => failed.connection.receive more := by
  intro c failed e hfailed hpayload
  have hc : c.Tidy config := tidy_performAll socket peer config ops
  obtain ⟨before, rest, hsplit, hbefore, ⟨hle, hread, -⟩ | hframe⟩ := hc.exists_refusal hfailed
  · exact absurd (Inbox.ofHeader_of_readHeader hle hread) hpayload.not_ofHeader
  · obtain ⟨header, payload, frame, left, rfl, hframe, hhandle, hrefused⟩ := hframe
    rw [← List.append_assoc] at hsplit
    have hmore : ∀ more, failed.connection.receive more =
        (c.emptied.receive before).connection.receive (left ++ more) := fun more => by
      rw [show failed = _ from hrefused]
      exact Outcome.receive_refused _ left e more
    refine ⟨before, frame, left, header, payload, hsplit, hframe, hbefore, hhandle, ?_, hrefused,
      ?_, fun more => ⟨hmore more, ?_⟩⟩
    · obtain ⟨-, -, rfl⟩ | ⟨w, hread, rfl⟩ := Session.handle_fails hhandle
      · exact .inl rfl
      · exact .inr ⟨w, rfl, (Session.interpret_fails hread).1⟩
    · rw [show failed = _ from hrefused]
      exact hbefore.inbox_refused
    · rw [hbefore.receive_append, Outcome.andThen_of_ok hbefore.result,
        Outcome.andThen_of_ok hbefore.result, hmore]

/-- A ping too short for its number, after a good one that arrived in pieces and before the first
byte of a frame: that byte is left. -/
theorem short_ping_skipped :
    let config := { Configuration.standard with verifyChecksum := false }
    let ping (length : UInt32) : Header := {
      magic := config.magic, command := Command.ping, payloadLength := length
      checksum := Octets.zero 4 }
    let stream := (ping 8).encode ++ [1, 2, 3, 4, 5, 6, 7, 8] ++ (ping 3).encode ++ [1, 2, 3, 0xF9]
    let socket : Socket := { localEndpoint := .error .notConnected }
    let c := ((ofSocket socket Address.unspecified config).performAll
      [.receive (stream.take 10)]).connection
    let failed := c.receive (stream.drop 10)
    let e : ConnectionError := .wire (.unexpectedEnd 8 3)
    failed.result = .error e ∧ e.OfPayload ∧ failed.connection.inbox = { buffer := [0xF9] } ∧
      ∃ before, c.emptied.Handles before ∧ ∀ more, failed.connection.receive more =
        (c.emptied.receive before).connection.receive (0xF9 :: more) := by
  intro config ping stream socket c failed e
  have hfailed : failed.result = .error e := by decide +kernel
  have hinbox : failed.connection.inbox = { buffer := [0xF9] } := by decide +kernel
  have hpayload : e.OfPayload := .wire _ WireError.noConfusion
  obtain ⟨before, frame, rest, header, payload, -, -, hbefore, -, -, -, hleft, hmore⟩ :=
    refused_payload_skipped socket Address.unspecified config [.receive (stream.take 10)]
      (stream.drop 10) e hfailed hpayload
  obtain rfl : [0xF9] = rest := congrArg Inbox.buffer (hinbox.symm.trans hleft)
  exact ⟨hfailed, hpayload, hinbox, before, hbefore, fun more => (hmore more).1⟩

/-! ## Behind a bad header -/

/-- The inbox starts with a bad header. -/
def Stuck (e : ConnectionError) (c : Connection) : Prop :=
  c.inbox.next c.session.config.magic = .rejected e

/-- In between, bytes may have been put at the end of the inbox, and nothing was heard. -/
structure PiledUp (c d : Connection) : Prop where
  inbox : ∃ more, d.inbox = c.inbox.append more
  session : d.session = { c.session with outbox := d.session.outbox }

theorem PiledUp.refl (c : Connection) : c.PiledUp c := ⟨⟨[], c.inbox.append_nil.symm⟩, rfl⟩

theorem PiledUp.stuck (h : c.PiledUp d) (hc : c.Stuck e) : d.Stuck e := by
  obtain ⟨⟨more, hinbox⟩, hsession⟩ := h
  have hconfig : d.session.config = c.session.config := by rw [hsession]
  rw [Stuck, hconfig, hinbox]
  exact Inbox.next_append_of_rejected hc more

namespace Stuck

/-- Bytes are only put at the end of the inbox. -/
theorem receive_eq (h : c.Stuck e) (bytes : Bytes) :
    c.receive bytes =
      { connection := { c with inbox := c.inbox.append bytes }, result := .error e } :=
  receive_of_rejected (Inbox.next_append_of_rejected h bytes)

theorem piledUp_performAll (h : c.Stuck e) (ops : List Operation) :
    c.PiledUp (c.performAll ops).connection := by
  refine performAll_keeps (P := c.PiledUp) (fun {d d'} halike hd => ?_) (fun {d} bytes hd => ?_)
    (.refl c) ops
  · obtain ⟨hinbox, hsession⟩ := hd
    refine ⟨halike.inbox ▸ hinbox, ?_⟩
    rw [halike.session, hsession]
  · obtain ⟨more, hinbox⟩ := hd.inbox
    rw [(hd.stuck h).receive_eq]
    refine ⟨⟨more ++ bytes, ?_⟩, hd.session⟩
    rw [hinbox, Inbox.append_append]

theorem understood_append (h : c.Stuck e) (bytes : Bytes) :
    c.session.understood (c.inbox.append bytes) = [] := by
  have hn := Inbox.next_append_of_rejected h bytes
  rw [Session.understood]
  split <;> simp_all

theorem overheard_eq (h : c.Stuck e) : c.overheard = [] := by
  fun_induction overheard c with
  -- bytes were read, which are refused, so nothing else is read
  | case1 c b bs socket _ inbox fed =>
    have hfed : fed.result = .error e := by
      rw [show fed = _ from Session.feed_of_rejected (Inbox.next_append_of_rejected h (b :: bs))]
    rw [show c.session.understood inbox = [] from h.understood_append (b :: bs), hfed]
    rfl
  | case2 c socket _ ih => exact ih h
  | case3 => rfl

theorem understoodBy_eq (h : c.Stuck e) (op : Operation) : c.understoodBy op = [] := by
  cases op with
  | receive bytes => exact h.understood_append bytes
  | readable => exact h.overheard_eq
  | _ => rfl

/-- Nothing is understood any more, and nothing told. -/
theorem silent (h : c.Stuck e) (ops : List Operation) :
    (c.performAll ops).events = [] ∧ ∀ m, .understood m ∉ c.causesOf ops := by
  induction ops generalizing c with
  | nil => exact ⟨rfl, fun m hm => absurd hm List.not_mem_nil⟩
  | cons op ops ih =>
    have hpiled := h.piledUp_performAll [op]
    rw [connection_performAll_cons] at hpiled
    have hnext : (c.perform op).connection.Stuck e := hpiled.stuck h
    obtain ⟨hevents, hcauses⟩ := ih hnext
    refine ⟨?_, fun m hm => ?_⟩
    · rw [events_performAll_cons, hevents, events_perform, h.understoodBy_eq]
      rfl
    · rw [causesOf, causes, h.understoodBy_eq] at hm
      rcases List.mem_append.1 hm with hnow | hlater
      · split at hnow <;> simp at hnow
      · exact hcauses m hlater

end Stuck

/-- **A bad header is final.** Do anything to a fresh connection, going on after failures, and then
receive bytes. If that fails at a header, then what the connection holds and what arrives are
complete frames that are handled, and bytes that start with the bad header.

* All that was done and told is what the frames before it did and told. No header is stored, and
  the inbox holds the bytes from the bad header on.
* Whatever is done later, these bytes stay at the front of the inbox, nothing is understood, nothing
  told, and nothing learned of the peer. To receive more fails with the same error and only puts
  the bytes at the end of the inbox. -/
theorem bad_header_final (socket : Socket) (peer : Address) (config : Configuration)
    (ops : List Operation) (bytes : Bytes) :
    let c := ((ofSocket socket peer config).performAll ops).connection
    let failed := c.receive bytes
    ∀ e, failed.result = .error e → e.OfHeader →
      ∃ before rest, c.inbox.buffer ++ bytes = before ++ rest ∧
        Wire.headerWidth ≤ rest.length ∧ Inbox.readHeader config.magic rest = .error e ∧
        c.emptied.Handles before ∧ failed = (c.emptied.receive before).refused rest e ∧
        failed.connection.inbox = { buffer := rest } ∧
        ∀ later : List Operation,
          let now := failed.connection.performAll later
          (∃ more, now.connection.inbox = { buffer := rest ++ more }) ∧
            now.connection.session =
              { failed.connection.session with outbox := now.connection.session.outbox } ∧
            now.events = [] ∧ (∀ m, .understood m ∉ failed.connection.causesOf later) ∧
            ∀ more, now.connection.receive more =
              { connection := { now.connection with inbox := now.connection.inbox.append more }
                result := .error e } := by
  intro c failed e hfailed hheader
  have hc : c.Tidy config := tidy_performAll socket peer config ops
  obtain ⟨before, rest, hsplit, hbefore, ⟨hle, hread, hrefused⟩ | hframe⟩ :=
    hc.exists_refusal hfailed
  · have hinbox : failed.connection.inbox = { buffer := rest } := by
      rw [show failed = _ from hrefused]
      exact hbefore.inbox_refused
    have hstuck : failed.connection.Stuck e := by
      rw [Stuck, hinbox, (hc.receive bytes).1.configured]
      exact Inbox.next_of_badHeader rfl hle hread
    refine ⟨before, rest, hsplit, hle, hread, hbefore, hrefused, hinbox, fun later => ?_⟩
    obtain ⟨hevents, hcauses⟩ := hstuck.silent later
    have hpiled := hstuck.piledUp_performAll later
    refine ⟨?_, hpiled.session, hevents, hcauses, (hpiled.stuck hstuck).receive_eq⟩
    obtain ⟨more, hmore⟩ := hpiled.inbox
    refine ⟨more, ?_⟩
    rw [hmore, hinbox]
    rfl
  · obtain ⟨header, payload, frame, left, -, -, hhandle, -⟩ := hframe
    exact absurd hheader (Session.ofPayload_of_handle hhandle).not_ofHeader

/-- The magic of another network in a header that arrived in pieces, after a good frame. -/
theorem foreign_header_final :
    let config := { Configuration.standard with verifyChecksum := false }
    let header (magic : Magic) : Header := {
      magic, command := Command.verack, payloadLength := 0, checksum := Octets.zero 4 }
    let stream := (header config.magic).encode ++ (header Network.signet.magic).encode
    let socket : Socket := { localEndpoint := .error .notConnected }
    let c := ((ofSocket socket Address.unspecified config).performAll
      [.receive (stream.take 30)]).connection
    let failed := c.receive (stream.drop 30)
    let e : ConnectionError := .magicMismatch config.magic Network.signet.magic
    failed.result = .error e ∧ e.OfHeader ∧
      ∀ later : List Operation,
        (failed.connection.performAll later).events = [] ∧ ∀ more,
          ((failed.connection.performAll later).connection.receive more).result = .error e := by
  intro config header stream socket c failed e
  have hfailed : failed.result = .error e := by decide +kernel
  have hheader : e.OfHeader := .foreign _ _
  obtain ⟨before, rest, -, -, -, -, -, -, hlater⟩ :=
    bad_header_final socket Address.unspecified config [.receive (stream.take 30)]
      (stream.drop 30) e hfailed hheader
  refine ⟨hfailed, hheader, fun later => ?_⟩
  obtain ⟨-, -, hevents, -, hmore⟩ := hlater later
  exact ⟨hevents, fun more => by rw [hmore]⟩

end Connection

end PeerCrawl
