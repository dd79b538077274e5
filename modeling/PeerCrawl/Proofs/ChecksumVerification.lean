import PeerCrawl.Proofs.Commands
import PeerCrawl.Proofs.Refusals

set_option autoImplicit false

/-! # What checking sums takes away

The configuration says whether the checksum of a payload is checked, and this matters in one place
only: a frame with a wrong sum is refused where it would have been interpreted. Up to such a frame a
session that checks and one that does not go the same way; there the one stops, and the other goes
on (`Session.feed_verifying`). What `Wire.frame` writes carries the sum that is looked for
(`Wire.Framed.next_frame`), so a stream of frames never gets there, wherever it is cut
(`Connection.receive_framed`). -/

namespace PeerCrawl

/-- The same session, which checks sums or does not. -/
def Session.verifying (s : Session) (check : Bool) : Session :=
  { s with config := { s.config with verifyChecksum := check } }

/-- The same, for a session that checks sums or does not. -/
def Handled.verifying (r : Handled) (check : Bool) : Handled :=
  { r with session := r.session.verifying check }

/-- The same, for a session that checks sums or does not. -/
def Fed.verifying (f : Fed) (check : Bool) : Fed :=
  { f with session := f.session.verifying check }

/-- The same connection, which checks sums or does not. -/
def Connection.verifying (c : Connection) (check : Bool) : Connection :=
  { c with session := c.session.verifying check }

/-- The second goes on where the first has stopped. -/
structure Fed.CutShort (f g : Fed) : Prop where
  events : f.events <+: g.events
  notices : f.notices <+: g.notices
  frames : f.session.outbox.frames <+: g.session.outbox.frames
  offset : g.session.outbox.offset = f.session.outbox.offset

theorem Fed.CutShort.after {f g : Fed} (h : f.CutShort g) (events : List PeerEvent)
    (notices : List ConnectionNotice) :
    (f.after events notices).CutShort (g.after events notices) where
  events := (List.prefix_append_right_inj events).2 h.events
  notices := (List.prefix_append_right_inj notices).2 h.notices
  frames := h.frames
  offset := h.offset

/-! ## One message, and all of them -/

namespace Session

variable {s : Session} {header : Header} {payload : Bytes}

/-- What a payload means does not depend on whether its sum is checked. -/
theorem interpret_verifying (s : Session) (check : Bool) (command : Command) (payload : Bytes) :
    (s.verifying check).interpret command payload =
      (s.interpret command payload).map (·.verifying check) := by
  unfold interpret
  split_ifs
  · unfold handleVersion
    cases Reader.versionPeek.value payload with
    | error e => rfl
    | ok declared =>
      simp only [bind, Except.bind]
      cases (Reader.versionMessage declared.1).value payload <;> rfl
  · rfl
  · unfold handlePing
    split_ifs
    · rfl
    · cases Reader.u64le.value payload <;> rfl
  · unfold handleAddresses
    rw [show (s.verifying check).streamVersion = s.streamVersion from rfl]
    cases (Reader.addressList s.streamVersion).value payload <;> rfl
  · rfl

theorem handle_verifying {check : Bool}
    (hsum : ¬ (check = true ∧ checksum payload ≠ header.checksum)) :
    (s.verifying check).handle header payload =
      ((s.interpret header.command payload).map (·.verifying check)).mapError .wire := by
  rw [← interpret_verifying]
  exact if_neg hsum

theorem handle_verifying_of_mismatch (hsum : checksum payload ≠ header.checksum) :
    (s.verifying true).handle header payload = .error (.checksumMismatch header.command) :=
  if_pos ⟨rfl, hsum⟩

/-- To feed a session only adds to what it owes. -/
theorem outbox_feed (s : Session) (i : Inbox) :
    s.outbox.frames <+: (s.feed i).session.outbox.frames ∧
      (s.feed i).session.outbox.offset = s.outbox.offset := by
  rw [(s.feed_understood i).1]
  exact ⟨List.prefix_append _ _, rfl⟩

/-- Both go the same way, or the one that checks sums stops at a wrong one. -/
theorem feed_verifying (s : Session) (i : Inbox) :
    (s.verifying false).feed i = ((s.verifying true).feed i).verifying false ∨
      (∃ command, ((s.verifying true).feed i).result = .error (.checksumMismatch command)) ∧
        ((s.verifying true).feed i).CutShort ((s.verifying false).feed i) := by
  -- one frame after the other, each of which leaves fewer bytes
  induction hb : i.buffer.length using Nat.strongRecOn generalizing s i with
  | _ n ih =>
    have hfront : ∀ check, i.next (s.verifying check).config.magic = i.next s.config.magic :=
      fun _ => rfl
    cases hn : i.next s.config.magic with
    | incomplete header =>
      rw [feed_of_incomplete ((hfront true).trans hn), feed_of_incomplete ((hfront false).trans hn)]
      exact .inl rfl
    | rejected e =>
      rw [feed_of_rejected ((hfront true).trans hn), feed_of_rejected ((hfront false).trans hn)]
      exact .inl rfl
    | frame header payload rest =>
      have hnext : ∀ check, i.next (s.verifying check).config.magic =
          .frame header payload rest := fun check => (hfront check).trans hn
      have hlt : rest.length < n := hb ▸ Inbox.length_rest_lt_of_next hn
      by_cases hsum : checksum payload = header.checksum
      · have hhandle : ∀ check, (s.verifying check).handle header payload =
            ((s.interpret header.command payload).map (·.verifying check)).mapError .wire :=
          fun check => handle_verifying fun h => h.2 hsum
        cases hread : s.interpret header.command payload with
        | error w =>
          rw [hread] at hhandle
          rw [feed_of_refused (hnext true) (hhandle true),
            feed_of_refused (hnext false) (hhandle false)]
          exact .inl rfl
        | ok r =>
          rw [hread] at hhandle
          rw [feed_of_handled (hnext true) (hhandle true),
            feed_of_handled (hnext false) (hhandle false)]
          rcases ih rest.length hlt r.session { buffer := rest } rfl with hsame | ⟨hstop, hcut⟩
          · exact .inl (congrArg (Fed.after · r.events r.notices) hsame)
          · exact .inr ⟨hstop, hcut.after r.events r.notices⟩
      · -- the one that checks has told nothing yet, and owes what it owed before
        rw [feed_of_refused (hnext true) (handle_verifying_of_mismatch hsum)]
        obtain ⟨hframes, hoffset⟩ := (s.verifying false).outbox_feed i
        refine .inr ⟨⟨header.command, rfl⟩, ?_⟩
        exact ⟨List.nil_prefix, List.nil_prefix, hframes, hoffset⟩

end Session

/-! ## Frames carry their checksums -/

theorem Inbox.ofHeader_of_rejected {i : Inbox} {magic : Magic} {e : ConnectionError}
    (h : i.next magic = .rejected e) : e.OfHeader := by
  have hnone := header_of_rejected h
  obtain ⟨buffer, header⟩ := i
  obtain rfl : header = none := hnone
  obtain ⟨hle, hread⟩ := readHeader_of_rejected h
  exact ofHeader_of_readHeader hle hread

namespace Reader

/-- If a header that was written can be read at all, its length and its sum are read back. -/
theorem header_of_encode {written found : Header}
    (h : header.value written.encode = .ok found) :
    found.payloadLength = written.payloadLength ∧ found.checksum = written.checksum := by
  let tail := Wire.u32le written.payloadLength ++ (written.checksum.bytes ++ [])
  have hsplit : written.encode = written.magic.bytes ++ (written.command.field.bytes ++ tail) := by
    simp only [Header.encode, List.append_assoc, List.append_nil, tail]
  have hrun : header.run written.encode = (.ok found, (header.run written.encode).2) :=
    Prod.ext h rfl
  rw [hsplit, header, run_bind_of_ok (octets_takes written.magic _)] at hrun
  obtain ⟨command, mid, hcommand, htail⟩ := run_bind_eq_ok hrun
  -- whatever command was read, it took the field that was written
  have hfield := (run_command_eq_ok.1 hcommand).2
  have hmid : tail = mid := List.append_inj_right hfield
    (written.command.field.length_eq.trans command.field.length_eq.symm)
  rw [← hmid, run_bind_of_ok (u32le_takes written.payloadLength _),
    run_bind_of_ok (octets_takes written.checksum []), run_pure, Prod.mk.injEq] at htail
  obtain rfl := Except.ok.inj htail.1
  exact ⟨rfl, rfl⟩

end Reader

/-- Frames one after the other, each with the magic of a network. -/
def Message.mixedStream (sent : List (Magic × Message)) : Bytes :=
  sent.flatMap fun (magic, m) => Wire.frame magic m.command m.payload

/-- The bytes start a stream of frames whose payloads a header can announce. -/
def Wire.Framed (b : Bytes) : Prop :=
  ∃ sent : List (Magic × Message),
    (∀ x ∈ sent, x.2.payload.length < 2 ^ 32) ∧ b <+: Message.mixedStream sent

/-- A frame that a header cuts off such a stream is one of those that were written. -/
theorem Wire.Framed.next_frame {magic : Magic} {header : Header} {b payload rest : Bytes}
    (h : Framed b) (hn : ({ buffer := b } : Inbox).next magic = .frame header payload rest) :
    checksum payload = header.checksum ∧ Framed rest := by
  obtain ⟨frame, rfl, hlength, hread, hpayload⟩ := Inbox.exists_frame_of_next hn
  obtain ⟨sent, hsent, hstart⟩ := h
  cases sent with
  | nil =>
    -- a frame has bytes, and nothing was written
    have hnil := congrArg List.length (List.prefix_nil.1 hstart)
    rw [List.length_append, hlength, List.length_nil] at hnil
    exact absurd hnil (by simp [headerWidth])
  | cons x later =>
    obtain ⟨network, m⟩ := x
    have hshort : m.payload.length < 2 ^ 32 := hsent (network, m) List.mem_cons_self
    let tail := Message.mixedStream later
    obtain ⟨missing, hstream⟩ : frame ++ rest <+: m.frame network ++ tail := hstart
    rw [List.append_assoc] at hstream
    have hwidth : (m.header network).encode.length = headerWidth := Header.length_encode _
    -- the header that was read is the one that was written, so the frames are of one length
    have hhead : frame.take headerWidth = (m.header network).encode := by
      have htake : (frame ++ (rest ++ missing)).take headerWidth = frame.take headerWidth :=
        List.take_append_of_le_length (by omega)
      rw [← htake, hstream, Message.frame_eq, List.append_assoc, ← hwidth, List.take_left]
    have hvalue := (Inbox.readHeader_eq_ok_iff.1 hread).1
    rw [hhead] at hvalue
    obtain ⟨hcount, hsum⟩ := Reader.header_of_encode hvalue
    have hannounced : header.payloadLength.toNat = m.payload.length := by
      rw [hcount]
      exact UInt32.toNat_ofNat_of_lt' hshort
    have hlengths : frame.length = (m.frame network).length := by
      rw [hlength, hannounced, Message.length_frame]
    obtain ⟨rfl, hrest⟩ := List.append_inj hstream hlengths
    refine ⟨?_, later, fun x hx => hsent x (List.mem_cons_of_mem _ hx), missing, hrest⟩
    rw [hsum, ← hpayload, Message.frame_eq, ← hwidth, List.drop_left]
    rfl

theorem Inbox.Sound.framed_of_frame {i : Inbox} {magic : Magic} {header : Header}
    {payload rest later : Bytes} (hi : i.Sound magic)
    (hn : i.next magic = .frame header payload rest) (h : Wire.Framed (i.buffer ++ later)) :
    checksum payload = header.checksum ∧ Wire.Framed (rest ++ later) :=
  h.next_frame ((hi.append later).next_eq.symm.trans (next_append_of_frame hn later))

/-! ## Receiving frames -/

/-- A session never refuses the checksum of such a frame, and what it leaves goes on as the stream
does. -/
theorem Session.feed_framed {s : Session} {i : Inbox} {later : Bytes}
    (hi : i.Sound s.config.magic) (h : Wire.Framed (i.buffer ++ later)) :
    (∀ command, (s.feed i).result ≠ .error (.checksumMismatch command)) ∧
      Wire.Framed ((s.feed i).inbox.buffer ++ later) := by
  fun_induction feed s i with
  | case1 s i header hn =>
    refine ⟨fun command he => ?_, h⟩
    cases he
  | case2 s i e hn =>
    refine ⟨fun command he => ?_, h⟩
    obtain rfl := Except.error.inj he
    cases Inbox.ofHeader_of_rejected hn
  | case3 s i header payload rest hn e he =>
    obtain ⟨hsum, hrest⟩ := hi.framed_of_frame hn h
    refine ⟨fun command herror => ?_, hrest⟩
    obtain rfl := Except.error.inj herror
    obtain ⟨-, hne, -⟩ | ⟨w, -, hw⟩ := handle_fails he
    · exact hne hsum
    · cases hw
  | case4 s i header payload rest hn r hr ih =>
    exact ih (Inbox.sound_of_none rfl) (hi.framed_of_frame hn h).2

namespace Connection

variable {c : Connection} {config : Configuration}

theorem receive_framed {b later : Bytes} (hc : c.Tidy config)
    (h : Wire.Framed (c.inbox.buffer ++ (b ++ later))) :
    (∀ command, (c.receive b).result ≠ .error (.checksumMismatch command)) ∧
      Wire.Framed ((c.receive b).connection.inbox.buffer ++ later) := by
  rw [← List.append_assoc] at h
  have hsound := hc.short.sound.append b
  rw [← hc.configured] at hsound
  exact Session.feed_framed hsound h

/-- Pieces of such a stream are received one after the other, whether or not they fail. -/
theorem performAll_receive_framed {pieces : List Bytes} {later : Bytes} (hc : c.Tidy config)
    (h : Wire.Framed (c.inbox.buffer ++ (pieces.flatten ++ later))) :
    let now := (c.performAll (pieces.map .receive)).connection
    now.Tidy config ∧ Wire.Framed (now.inbox.buffer ++ later) := by
  induction pieces generalizing c with
  | nil => exact ⟨hc, h⟩
  | cons b pieces ih =>
    rw [List.flatten_cons, List.append_assoc] at h
    rw [List.map_cons, connection_performAll_cons]
    exact ih (hc.receive b).1 (receive_framed hc h).2

/-- **To check sums only takes away.** Let a connection check checksums, and another one, which is
the same otherwise, not check them, and let both receive the same bytes.

* If the first does not fail at a checksum, then both have the same result, tell the same, owe the
  same and end up the same.
* If it does, then what it has told is the start of what the other has told, and its answers are the
  first of the other's.
* A connection with an empty inbox is sent frames that `Wire.frame` has written, with any magic,
  command and payload that a header can announce, in any pieces. Then it never fails at a checksum,
  though it may fail otherwise and go on. -/
theorem verification_only_removes (c : Connection) :
    (∀ bytes,
      let on := (c.verifying true).receive bytes
      let off := (c.verifying false).receive bytes
      ((∀ command, on.result ≠ .error (.checksumMismatch command)) →
          off = { on with connection := on.connection.verifying false }) ∧
        ∀ command, on.result = .error (.checksumMismatch command) →
          on.events <+: off.events ∧ on.notices <+: off.notices ∧
            ∃ replies more,
              on.connection.session.outbox =
                { c.session.outbox with frames := c.session.outbox.frames ++ replies } ∧
              off.connection.session.outbox =
                { c.session.outbox with
                  frames := c.session.outbox.frames ++ (replies ++ more) }) ∧
      (c.inbox = {} → ∀ sent : List (Magic × Message),
        (∀ x ∈ sent, x.2.payload.length < 2 ^ 32) → ∀ (pieces : List Bytes) (b : Bytes),
          pieces.flatten ++ b <+: Message.mixedStream sent → ∀ command,
            (((c.verifying true).performAll (pieces.map .receive)).connection.receive b).result ≠
              .error (.checksumMismatch command)) := by
  refine ⟨fun bytes => ?_, fun hc sent hsent pieces b hstart => ?_⟩
  · intro on off
    have hfeed := c.session.feed_verifying (c.inbox.append bytes)
    obtain ⟨⟨replies, hreplies⟩, hoffset⟩ :=
      (c.session.verifying true).outbox_feed (c.inbox.append bytes)
    refine ⟨fun hsum => ?_, fun command hsum => ?_⟩
    · rcases hfeed with hsame | ⟨⟨command, hstop⟩, -⟩
      · let told (f : Fed) : Outcome Unit := {
          connection := { c with session := f.session, inbox := f.inbox }
          result := f.result
          events := f.events
          notices := f.notices }
        exact congrArg told hsame
      · exact absurd hstop (hsum command)
    · have hcut : ((c.session.verifying true).feed (c.inbox.append bytes)).CutShort
          ((c.session.verifying false).feed (c.inbox.append bytes)) := by
        rcases hfeed with hsame | ⟨-, hcut⟩
        · rw [hsame]
          exact ⟨List.prefix_rfl, List.prefix_rfl, List.prefix_rfl, rfl⟩
        · exact hcut
      obtain ⟨more, hmore⟩ := hcut.frames
      rw [← hreplies, List.append_assoc] at hmore
      exact ⟨hcut.events, hcut.notices, replies, more,
        congrArg₂ Outbox.mk hreplies.symm hoffset,
        congrArg₂ Outbox.mk hmore.symm (hcut.offset.trans hoffset)⟩
  · have htidy : (c.verifying true).Tidy (c.verifying true).session.config :=
      ⟨rfl, Inbox.short_of_none (congrArg Inbox.header hc)⟩
    have hframed :
        Wire.Framed ((c.verifying true).inbox.buffer ++ (pieces.flatten ++ (b ++ []))) := by
      refine ⟨sent, hsent, ?_⟩
      rw [List.append_nil, show (c.verifying true).inbox = {} from hc]
      exact hstart
    obtain ⟨hnow, hleft⟩ := performAll_receive_framed htidy hframed
    exact (receive_framed hnow hleft).1

/-- The second of three pings has a wrong checksum: whoever checks it answers one ping, and who does
not answers three. A ping that `Wire.frame` has written is accepted also in two pieces. -/
theorem verification_only_removes_second_ping :
    let c := ofSocket { localEndpoint := .error .notConnected } Address.unspecified .standard
    let magic := c.session.config.magic
    let ping : Message := ⟨Command.ping, [1, 2, 3, 4, 5, 6, 7, 8]⟩
    let wrong : Header := { ping.header magic with checksum := Octets.zero 4 }
    let good := ping.frame magic
    let on := (c.verifying true).receive (good ++ (wrong.encode ++ ping.payload ++ good))
    let off := (c.verifying false).receive (good ++ (wrong.encode ++ ping.payload ++ good))
    let once := (c.verifying true).receive good
    let first := ((c.verifying true).performAll [.receive (good.take 30)]).connection
    on.result = .error (.checksumMismatch Command.ping) ∧ off.result = .ok () ∧
      (on.connection.session.outbox.frames.length, off.connection.session.outbox.frames.length) =
        (1, 3) ∧
      on.connection.session.outbox.frames <+: off.connection.session.outbox.frames ∧
      (c.verifying false).receive good =
        { once with connection := once.connection.verifying false } ∧
      ∀ command, (first.receive (good.drop 30)).result ≠ .error (.checksumMismatch command) := by
  intro c magic ping wrong good on off once first
  have hboth : on.result = .error (.checksumMismatch Command.ping) ∧ off.result = .ok () ∧
      (on.connection.session.outbox.frames.length, off.connection.session.outbox.frames.length) =
        (1, 3) := by decide +kernel
  have hgood : once.result = .ok () := by decide +kernel
  obtain ⟨hruns, hframes⟩ := verification_only_removes c
  refine ⟨hboth.1, hboth.2.1, hboth.2.2, ?_, ?_, ?_⟩
  · obtain ⟨-, -, replies, more, hon, hoff⟩ := (hruns _).2 Command.ping hboth.1
    rw [show on.connection.session.outbox = _ from hon,
      show off.connection.session.outbox = _ from hoff]
    exact ⟨more, List.append_assoc _ _ _⟩
  · exact (hruns good).1 fun command hfail => absurd (hgood.symm.trans hfail) nofun
  · refine hframes rfl [(magic, ping)] ?_ [good.take 30] (good.drop 30) ?_
    · intro x hx
      rw [List.mem_singleton.1 hx]
      decide
    · rw [List.flatten_cons, List.flatten_nil, List.append_nil, List.take_append_drop,
        Message.mixedStream, List.flatMap_cons, List.flatMap_nil, List.append_nil]
      exact List.prefix_rfl

end Connection

end PeerCrawl
