import PeerCrawl.Connection.Session
import PeerCrawl.Proofs.Codec

set_option autoImplicit false

/-! # Messages and what they mean

What a message of a peer means depends on the messages before it only through the protocol version
in force: `Message.events` is what a message tells, `Message.replies` what it is answered, and
`Message.introduction` what it makes known of the peer. `Session.handle_of_decodes` says that a
session takes a message that can be understood in exactly this way. -/

namespace PeerCrawl

/-- A message, without the header that a frame puts in front. -/
structure Message where
  command : Command
  payload : Bytes
deriving DecidableEq

namespace Message

/-- The message as it travels. -/
def frame (magic : Magic) (m : Message) : Bytes := Wire.frame magic m.command m.payload

/-- The header of its frame. -/
def header (magic : Magic) (m : Message) : Header := .ofPayload magic m.command m.payload

/-- Messages one after the other, as they travel. -/
def stream (magic : Magic) (ms : List Message) : Bytes := ms.flatMap (frame magic)

/-- A message that a frame can carry to a peer: its command is the one of a name, and its payload
keeps the limit. -/
structure Sendable (m : Message) : Prop where
  named : ∃ name, Command.ofName name = .ok m.command
  length_le : m.payload.length ≤ Wire.maxPayload

/-! ## What a message means -/

/-- The version that a version payload declares. -/
def declaredVersion (payload : Bytes) : ProtocolVersion :=
  UInt32.ofNat (Bytes.ofLittleEndian (payload.take 4))

/-- The services that a version payload declares. -/
def declaredServices (payload : Bytes) : Services :=
  ⟨UInt64.ofNat (Bytes.ofLittleEndian ((payload.drop 4).take 8))⟩

/-- The version and the services that a version message makes known. -/
def introduction (m : Message) : Option (ProtocolVersion × Services) :=
  if m.command = Command.version then some (declaredVersion m.payload, declaredServices m.payload)
  else none

/-- The protocol version in force after a message. -/
def versionAfter (m : Message) (v : ProtocolVersion) : ProtocolVersion :=
  (m.introduction.map Prod.fst).getD v

/-- Whether a message can be understood while a protocol version is in force. -/
structure Decodes (m : Message) (v : ProtocolVersion) : Prop where
  version : m.command = Command.version →
    ∃ d, (Reader.versionMessage (declaredVersion m.payload)).value m.payload = .ok d
  ping : m.command = Command.ping → m.payload = [] ∨ 8 ≤ m.payload.length
  addr : m.command = Command.addr → ∃ as, (Reader.addressList v).value m.payload = .ok as

/-- Whether each of several messages can be understood when it arrives. -/
def DecodeInTurn : ProtocolVersion → List Message → Prop
  | _, [] => True
  | v, m :: ms => m.Decodes v ∧ DecodeInTurn (m.versionAfter v) ms

/-- What a version message tells about the peer. -/
def handshakeOf (peer : Address) (d : VersionMessage) : Handshake where
  address := peer.withServices d.services
  userAgent := d.userAgent
  version := d.version
  services := d.services
  startHeight := d.startHeight

/-- What a message tells: a version message a handshake, a list of addresses its records. -/
def events (peer : Address) (v : ProtocolVersion) (m : Message) : List PeerEvent :=
  if m.command = Command.version then
    match (Reader.versionMessage (declaredVersion m.payload)).value m.payload with
    | .ok d => [.handshake (handshakeOf peer d)]
    | .error _ => []
  else if m.command = Command.addr then
    match (Reader.addressList v).value m.payload with
    | .ok as => [.addresses as]
    | .error _ => []
  else []

/-- What messages tell, each read at the version in force when it arrives. -/
def eventsOf (peer : Address) : ProtocolVersion → List Message → List PeerEvent
  | _, [] => []
  | v, m :: ms => m.events peer v ++ eventsOf peer (m.versionAfter v) ms

/-- What a message is answered: a version message is acknowledged, and a ping gets its first eight
bytes back. -/
def replies (m : Message) : List Message :=
  if m.command = Command.version then [⟨Command.verack, []⟩]
  else if m.command = Command.ping ∧ m.payload ≠ [] then [⟨Command.pong, m.payload.take 8⟩]
  else []

/-- The last introduction among several messages. -/
def lastIntroduction (ms : List Message) : Option (ProtocolVersion × Services) :=
  (ms.filterMap introduction).getLast?

/-! ## Introductions and answers of several messages -/

theorem lastIntroduction_append (ms₁ ms₂ : List Message) :
    lastIntroduction (ms₁ ++ ms₂) = (lastIntroduction ms₂).or (lastIntroduction ms₁) := by
  rw [lastIntroduction, List.filterMap_append, List.getLast?_append]
  rfl

theorem lastIntroduction_singleton (m : Message) : lastIntroduction [m] = m.introduction := by
  cases h : m.introduction <;> simp [lastIntroduction, h]

theorem stream_append (magic : Magic) (ms₁ ms₂ : List Message) :
    stream magic (ms₁ ++ ms₂) = stream magic ms₁ ++ stream magic ms₂ := List.flatMap_append

theorem stream_cons (magic : Magic) (m : Message) (ms : List Message) :
    stream magic (m :: ms) = m.frame magic ++ stream magic ms := List.flatMap_cons

theorem frame_eq (magic : Magic) (m : Message) :
    m.frame magic = (m.header magic).encode ++ m.payload := rfl

theorem length_frame (magic : Magic) (m : Message) :
    (m.frame magic).length = Wire.headerWidth + m.payload.length := by
  rw [frame_eq, List.length_append, Header.length_encode]

theorem frame_ne_nil (magic : Magic) (m : Message) : m.frame magic ≠ [] := by
  intro h
  have hlen := length_frame magic m
  rw [h, List.length_nil, Wire.headerWidth] at hlen
  omega

/-! ## Reading what a version payload declares -/

theorem declared_of_versionPeek {payload : Bytes} {v : ProtocolVersion} {services : Services}
    (h : Reader.versionPeek.value payload = .ok (v, services)) :
    v = declaredVersion payload ∧ services = declaredServices payload := by
  obtain ⟨v', mid, hv, hrest⟩ := Reader.value_bind_eq_ok h
  obtain ⟨bits, mid', hbits, hrest⟩ := Reader.value_bind_eq_ok hrest
  have hpair := Except.ok.inj hrest
  simp only [Prod.mk.injEq] at hpair
  obtain ⟨n, rest, hn, hpure⟩ := Reader.run_bind_eq_ok hv
  obtain ⟨n', rest', hn', hpure'⟩ := Reader.run_bind_eq_ok hbits
  simp only [Reader.run_pure, Prod.mk.injEq, Except.ok.injEq] at hpure hpure'
  obtain ⟨-, hn, hrest₁⟩ := Reader.run_littleEndian_eq_ok hn
  obtain ⟨-, hn', -⟩ := Reader.run_littleEndian_eq_ok hn'
  refine ⟨?_, ?_⟩
  · rw [← hpair.1, ← hpure.1, hn, declaredVersion]
  · rw [← hpair.2, ← hpure'.1, hn', ← hpure.2, hrest₁, declaredServices]

theorem declared_of_versionMessage {payload : Bytes} {stream : ProtocolVersion}
    {d : VersionMessage} (h : (Reader.versionMessage stream).value payload = .ok d) :
    d.version = declaredVersion payload ∧ d.services = declaredServices payload :=
  declared_of_versionPeek (Reader.versionPeek_of_versionMessage h)

end Message

/-! ## Version messages as they are sent -/

namespace VersionMessage

/-- The message by which a node introduces itself: its payload is written at the version that it
declares. -/
def message (d : VersionMessage) : Message := ⟨Command.version, d.encode d.version⟩

theorem length_userAgent_le (d : VersionMessage) {stream : ProtocolVersion}
    (h : ProtocolVersion.extendedVersionMessage ≤ stream) :
    (Utf8.encode d.userAgent).length ≤ (d.encode stream).length := by
  simp only [encode, if_pos h, Wire.sizedText, List.length_append]
  omega

variable {d : VersionMessage}

/-- The receiver reads what the sender's version carries. -/
theorem value_message (h : d.message.payload.length ≤ Wire.maxPayload) :
    (Reader.versionMessage d.version).value d.message.payload = .ok (d.carried d.version) := by
  have hagent : ProtocolVersion.extendedVersionMessage ≤ d.version →
      (Utf8.encode d.userAgent).length < 2 ^ 64 := by
    intro hext
    have hle := Nat.le_trans (d.length_userAgent_le hext) h
    rw [Wire.maxPayload] at hle
    omega
  exact (Reader.versionMessage_takes d d.version hagent).value

theorem declared_message (h : d.message.payload.length ≤ Wire.maxPayload) :
    Message.declaredVersion d.message.payload = d.version ∧
      Message.declaredServices d.message.payload = d.services := by
  obtain ⟨hv, hs⟩ := Message.declared_of_versionMessage (value_message h)
  exact ⟨hv.symm, hs.symm⟩

theorem decodes_message (h : d.message.payload.length ≤ Wire.maxPayload) (v : ProtocolVersion) :
    d.message.Decodes v := by
  refine ⟨fun _ => ⟨d.carried d.version, ?_⟩, ?_, ?_⟩
  · rw [(declared_message h).1, value_message h]
  · intro hping
    have hne : Command.version ≠ Command.ping := by decide
    exact absurd hping hne
  · intro haddr
    have hne : Command.version ≠ Command.addr := by decide
    exact absurd haddr hne

theorem events_message (h : d.message.payload.length ≤ Wire.maxPayload) (peer : Address)
    (v : ProtocolVersion) :
    d.message.events peer v = [.handshake (Message.handshakeOf peer (d.carried d.version))] := by
  have hc : d.message.command = Command.version := rfl
  simp only [Message.events, if_pos hc, (declared_message h).1, value_message h]

end VersionMessage

/-! ## What a session makes of messages -/

namespace Session

/-- The session after messages of the peer: it knows the last introduction, and the answers are
queued. -/
def heard (s : Session) (ms : List Message) : Session :=
  { s with
    peerVersion := ((Message.lastIntroduction ms).map Prod.fst).or s.peerVersion
    peerServices := ((Message.lastIntroduction ms).map Prod.snd).or s.peerServices
    outbox := { s.outbox with
      frames := s.outbox.frames ++
        (ms.flatMap Message.replies).map (Message.frame s.config.magic) } }

@[simp] theorem peer_heard (s : Session) (ms : List Message) : (s.heard ms).peer = s.peer := rfl

@[simp] theorem config_heard (s : Session) (ms : List Message) : (s.heard ms).config = s.config :=
  rfl

@[simp] theorem heard_nil (s : Session) : s.heard [] = s := by
  simp [heard, Message.lastIntroduction]

theorem heard_append (s : Session) (ms₁ ms₂ : List Message) :
    s.heard (ms₁ ++ ms₂) = (s.heard ms₁).heard ms₂ := by
  simp only [heard, Message.lastIntroduction_append, Option.map_or, Option.or_assoc,
    List.flatMap_append, List.map_append, List.append_assoc]

theorem streamVersion_heard (s : Session) (m : Message) :
    (s.heard [m]).streamVersion = m.versionAfter s.streamVersion := by
  rw [streamVersion, heard, Message.lastIntroduction_singleton, Message.versionAfter]
  cases m.introduction <;> rfl

theorem queue_eq (s : Session) (command : Command) (payload : Bytes) :
    s.queue command payload = { s with outbox := { s.outbox with
      frames := s.outbox.frames ++ [Message.frame s.config.magic ⟨command, payload⟩] } } := by
  have hne : Wire.frame s.config.magic command payload ≠ [] :=
    Message.frame_ne_nil s.config.magic ⟨command, payload⟩
  rw [queue, Outbox.push, if_neg hne]
  rfl

variable {s : Session} {m : Message}

/-- A message that introduces nobody and is not answered changes nothing. -/
theorem heard_of_silent (hversion : ¬ m.command = Command.version) (hreplies : m.replies = []) :
    s.heard [m] = s := by
  rw [heard, Message.lastIntroduction_singleton, Message.introduction, if_neg hversion,
    List.flatMap_cons, hreplies]
  simp

theorem interpret_version (hc : m.command = Command.version) {d : VersionMessage}
    (hd : (Reader.versionMessage (Message.declaredVersion m.payload)).value m.payload = .ok d) :
    ∃ notices, s.interpret m.command m.payload = .ok
      { session := s.heard [m], events := m.events s.peer s.streamVersion, notices } := by
  have hpeek := Reader.versionPeek_of_versionMessage hd
  obtain ⟨hv, hs⟩ := Message.declared_of_versionMessage hd
  rw [interpret, if_pos hc]
  refine ⟨[.versionReceived (Message.handshakeOf s.peer d)], ?_⟩
  -- the session peeks at the version and then reads the message at it
  have hread : (Reader.versionMessage d.version).value m.payload = .ok d := by rw [hv, hd]
  simp only [handleVersion, hpeek, bind, Except.bind, hread, queue_eq]
  simp only [Message.events, if_pos hc, hd, heard, Message.lastIntroduction_singleton,
    Message.introduction, List.flatMap_cons, List.flatMap_nil, Message.replies, hv, hs,
    Message.handshakeOf]
  rfl

theorem interpret_ping (hc : m.command = Command.ping)
    (hping : m.payload = [] ∨ 8 ≤ m.payload.length) :
    ∃ notices, s.interpret m.command m.payload = .ok
      { session := s.heard [m], events := m.events s.peer s.streamVersion, notices } := by
  refine ⟨[], ?_⟩
  have hversion : ¬ m.command = Command.version := by rw [hc]; decide
  have haddr : ¬ m.command = Command.addr := by rw [hc]; decide
  have hverack : ¬ m.command = Command.verack := by rw [hc]; decide
  rw [interpret, if_neg hversion, if_neg hverack, if_pos hc, Message.events, if_neg hversion,
    if_neg haddr, handlePing]
  by_cases hnil : m.payload = []
  · have hreplies : m.replies = [] := by
      rw [Message.replies, if_neg hversion, if_neg (by simp [hnil])]
    rw [if_pos hnil, heard_of_silent hversion hreplies]
    rfl
  · have hlen : 8 ≤ m.payload.length := hping.resolve_left hnil
    have hreplies : m.replies = [⟨Command.pong, m.payload.take 8⟩] := by
      rw [Message.replies, if_neg hversion, if_pos ⟨hc, hnil⟩]
    have hnonce : Reader.u64le.value m.payload =
        .ok (UInt64.ofNat (Bytes.ofLittleEndian (m.payload.take 8))) := by
      rw [Reader.value, Reader.u64le, Reader.run_bind, Reader.run_littleEndian, if_pos hlen]
      rfl
    -- the eight bytes are read as a number and written back as they were
    have hecho : Wire.u64le (UInt64.ofNat (Bytes.ofLittleEndian (m.payload.take 8))) =
        m.payload.take 8 := by
      have htake : (m.payload.take 8).length = 8 := by rw [List.length_take, Nat.min_eq_left hlen]
      have hlt := Bytes.ofLittleEndian_lt (m.payload.take 8)
      have hback := Bytes.littleEndian_ofLittleEndian (m.payload.take 8)
      rw [htake] at hlt hback
      rw [Wire.u64le, UInt64.toNat_ofNat_of_lt' (by simpa using hlt), hback]
    rw [if_neg hnil, hnonce]
    simp only [bind, Except.bind, pure, Except.pure, hecho, queue_eq, heard,
      Message.lastIntroduction_singleton, Message.introduction, if_neg hversion,
      List.flatMap_cons, List.flatMap_nil, hreplies]
    rfl

theorem interpret_addr (hc : m.command = Command.addr) {as : List Address}
    (has : (Reader.addressList s.streamVersion).value m.payload = .ok as) :
    ∃ notices, s.interpret m.command m.payload = .ok
      { session := s.heard [m], events := m.events s.peer s.streamVersion, notices } := by
  have hversion : ¬ m.command = Command.version := by rw [hc]; decide
  have hping : ¬ m.command = Command.ping := by rw [hc]; decide
  have hverack : ¬ m.command = Command.verack := by rw [hc]; decide
  have hreplies : m.replies = [] := by
    rw [Message.replies, if_neg hversion, if_neg (by simp [hping])]
  refine ⟨as.map fun a => .addressReceived a s.peer, ?_⟩
  rw [interpret, if_neg hversion, if_neg hverack, if_neg hping, if_pos hc, Message.events,
    if_neg hversion, if_pos hc, handleAddresses, has, heard_of_silent hversion hreplies]
  rfl

/-- Every other message is acknowledged in the log only. -/
theorem interpret_other (hversion : ¬ m.command = Command.version)
    (hping : ¬ m.command = Command.ping) (haddr : ¬ m.command = Command.addr) :
    ∃ notices, s.interpret m.command m.payload = .ok
      { session := s.heard [m], events := m.events s.peer s.streamVersion, notices } := by
  have hreplies : m.replies = [] := by
    rw [Message.replies, if_neg hversion, if_neg (by simp [hping])]
  have hevents : m.events s.peer s.streamVersion = [] := by
    rw [Message.events, if_neg hversion, if_neg haddr]
  rw [interpret, if_neg hversion, hevents, heard_of_silent hversion hreplies]
  by_cases hverack : m.command = Command.verack
  · rw [if_pos hverack]
    exact ⟨_, rfl⟩
  · rw [if_neg hverack, if_neg hping, if_neg haddr]
    exact ⟨_, rfl⟩

theorem interpret_of_decodes (h : m.Decodes s.streamVersion) :
    ∃ notices, s.interpret m.command m.payload = .ok
      { session := s.heard [m], events := m.events s.peer s.streamVersion, notices } := by
  by_cases hversion : m.command = Command.version
  · obtain ⟨d, hd⟩ := h.version hversion
    exact interpret_version hversion hd
  by_cases hping : m.command = Command.ping
  · exact interpret_ping hping (h.ping hping)
  by_cases haddr : m.command = Command.addr
  · obtain ⟨as, has⟩ := h.addr haddr
    exact interpret_addr haddr has
  · exact interpret_other hversion hping haddr

/-- A payload that is understood and has the right checksum. -/
theorem handle_of_interpret {header : Header} {payload : Bytes} {r : Handled}
    (hsum : ¬ (s.config.verifyChecksum ∧ checksum payload ≠ header.checksum))
    (h : s.interpret header.command payload = .ok r) : s.handle header payload = .ok r := by
  rw [handle, if_neg hsum]
  exact congrArg (Except.mapError ConnectionError.wire) h

/-- The header that a frame puts in front has the right checksum. -/
theorem handle_of_decodes (h : m.Decodes s.streamVersion) :
    ∃ notices, s.handle (m.header s.config.magic) m.payload = .ok
      { session := s.heard [m], events := m.events s.peer s.streamVersion, notices } := by
  obtain ⟨notices, hi⟩ := interpret_of_decodes h
  have hsum : ¬ (s.config.verifyChecksum ∧
      checksum m.payload ≠ (m.header s.config.magic).checksum) := by
    rintro ⟨-, hne⟩
    exact hne rfl
  exact ⟨notices, handle_of_interpret hsum hi⟩

end Session

end PeerCrawl
