import PeerCrawl.Connection.Session
import PeerCrawl.Proofs.Codec

set_option autoImplicit false

/-! # One version message at two versions

A later protocol version only adds fields at the end of a version message: its address records look
the same at every version, and what one gate lets through, the gates before it let through as well.
So a message that is written at a version starts with what an earlier version writes
(`VersionMessage.encode_prefix`), and bytes that read at a version read at every earlier one, with
zero for the fields that it does not have (`Reader.versionMessage_upTo`). A session may therefore
peek at the version first and then read the whole message at it
(`VersionMessage.forward_compatible`). -/

namespace PeerCrawl

namespace ProtocolVersion

/-- A version with the relay flag has the fields before it. -/
theorem extendedVersionMessage_le_of_relay {v : ProtocolVersion} (h : relay ≤ v) :
    extendedVersionMessage ≤ v :=
  UInt32.le_trans (by decide) h

end ProtocolVersion

/-! ## Writing -/

/-- The records of a version message are written alike at all versions. -/
theorem Wire.addressRecord_handshake (a : Address) (v w : ProtocolVersion) :
    addressRecord a (.handshake v) = addressRecord a (.handshake w) := rfl

/-- The records of a version message are read alike at all versions. -/
theorem Reader.addressRecord_handshake (v w : ProtocolVersion) :
    addressRecord (.handshake v) = addressRecord (.handshake w) := rfl

theorem Reader.versionExtension_handshake (v w : ProtocolVersion) :
    versionExtension (.handshake v) = versionExtension (.handshake w) := rfl

namespace VersionMessage

variable {v w : ProtocolVersion}

/-- What is written at a version starts with what is written at an earlier one. -/
theorem encode_prefix (m : VersionMessage) (h : v ≤ w) : m.encode v <+: m.encode w := by
  by_cases hrelay : ProtocolVersion.relay ≤ v
  · -- both versions have all fields
    have hext := ProtocolVersion.extendedVersionMessage_le_of_relay hrelay
    simp only [encode, if_pos hrelay, if_pos hext, if_pos (UInt32.le_trans hrelay h),
      if_pos (UInt32.le_trans hext h), Wire.addressRecord_handshake _ v w]
    exact List.prefix_rfl
  by_cases hext : ProtocolVersion.extendedVersionMessage ≤ v
  · simp only [encode, if_neg hrelay, if_pos hext, if_pos (UInt32.le_trans hext h),
      Wire.addressRecord_handshake _ v w, List.append_nil]
    exact List.prefix_append _ _
  · simp only [encode, if_neg hrelay, if_neg hext, Wire.addressRecord_handshake _ v w,
      List.append_nil]
    rw [List.append_assoc _ (if ProtocolVersion.extendedVersionMessage ≤ w then _ else _)]
    exact List.prefix_append _ _

/-- The fields from 106 on. -/
def extension (m : VersionMessage) : VersionExtension where
  receiver := m.receiver
  nonce := m.nonce
  userAgent := m.userAgent
  startHeight := m.startHeight

/-- The message with those fields only that a version has; the others are zero. -/
def upTo (m : VersionMessage) (v : ProtocolVersion) : VersionMessage :=
  let more := if ProtocolVersion.extendedVersionMessage ≤ v then m.extension else {}
  { m with
    receiver := more.receiver
    nonce := more.nonce
    userAgent := more.userAgent
    startHeight := more.startHeight
    relay := if ProtocolVersion.relay ≤ v then m.relay else false }

end VersionMessage

/-! ## Reading -/

namespace Reader

variable {α β : Type} {v w : ProtocolVersion} {b : Bytes} {d : VersionMessage}

theorem value_bind_of_ok {r : Reader α} {rest : Bytes} {a : α} (h : r.run b = (.ok a, rest))
    (next : α → Reader β) : (r >>= next).value b = (next a).value rest := by
  rw [value, run_bind_of_ok h, value]

/-- At an earlier version, the relay flag is read as well or reads as false. -/
theorem value_relayed_of_le {message : Bool → VersionMessage} (h : v ≤ w)
    (hd : (relayed w message).value b = .ok d) :
    ∃ relay, d = message relay ∧ (relayed v message).value b =
      .ok (message (if ProtocolVersion.relay ≤ v then relay else false)) := by
  obtain ⟨relay, rfl⟩ := value_relayed_eq_ok hd
  refine ⟨relay, rfl, ?_⟩
  by_cases hrelay : ProtocolVersion.relay ≤ v
  · rw [relayed, if_pos (UInt32.le_trans hrelay h)] at hd
    rw [relayed, if_pos hrelay, if_pos hrelay, hd]
  · rw [relayed, if_neg hrelay, if_neg hrelay]
    rfl

/-- What reads at a version reads at an earlier one, up to the fields that it has. -/
theorem versionMessage_upTo (h : v ≤ w) (hd : (versionMessage w).value b = .ok d) :
    (versionMessage v).value b = .ok (d.upTo v) := by
  rw [versionMessage_eq] at hd ⊢
  obtain ⟨⟨version, services⟩, mid, hpeek, hd⟩ := value_bind_eq_ok hd
  rw [value_bind_of_ok hpeek]
  obtain ⟨timestamp, mid, htimestamp, hd⟩ := value_bind_eq_ok hd
  dsimp only
  rw [value_bind_of_ok htimestamp]
  obtain ⟨sender, mid, hsender, hd⟩ := value_bind_eq_ok hd
  rw [addressRecord_handshake v w, value_bind_of_ok hsender]
  by_cases hext : ProtocolVersion.extendedVersionMessage ≤ v
  · rw [if_pos (UInt32.le_trans hext h)] at hd
    rw [if_pos hext]
    obtain ⟨more, mid, hmore, hd⟩ := value_bind_eq_ok hd
    obtain ⟨relay, rfl, hvalue⟩ := value_relayed_of_le h hd
    rw [versionExtension_handshake v w, value_bind_of_ok hmore, hvalue]
    simp only [VersionMessage.upTo, if_pos hext]
    rfl
  · -- nothing is read after the sender, whatever the later version has there
    have hrelay : ¬ ProtocolVersion.relay ≤ v := fun hrelay =>
      hext (ProtocolVersion.extendedVersionMessage_le_of_relay hrelay)
    rw [if_neg hext, relayed, if_neg hrelay]
    have hcommon : ∃ (more : VersionExtension) (relay : Bool), d = {
        version, services, timestamp, sender, receiver := more.receiver, nonce := more.nonce
        userAgent := more.userAgent, startHeight := more.startHeight, relay } := by
      split at hd
      · obtain ⟨more, mid, -, hd⟩ := value_bind_eq_ok hd
        exact ⟨more, value_relayed_eq_ok hd⟩
      · exact ⟨{}, value_relayed_eq_ok hd⟩
    obtain ⟨more, relay, rfl⟩ := hcommon
    simp only [VersionMessage.upTo, if_neg hext, if_neg hrelay]
    rfl

end Reader

/-! ## Introductions -/

/-- What a session makes of an introduction is what the message says when it is read at the version
that it declares itself. -/
theorem Session.handleVersion_reads {s : Session} {payload : Bytes} {r : Handled}
    (h : s.handleVersion payload = .ok r) :
    ∃ d, Reader.versionPeek.value payload = .ok (d.version, d.services) ∧
      (Reader.versionMessage d.version).value payload = .ok d ∧
      r.session.peerVersion = some d.version ∧ r.session.peerServices = some d.services ∧
      r.events = [.handshake {
        address := s.peer.withServices d.services, userAgent := d.userAgent, version := d.version
        services := d.services, startHeight := d.startHeight }] := by
  simp only [handleVersion, bind, Except.bind] at h
  split at h
  · cases h
  · next peeked hpeek =>
    split at h
    · cases h
    · next d hread =>
      -- the gate and the payload start with the same fields
      have hsame := Reader.versionPeek_of_versionMessage hread
      obtain rfl : peeked = (d.version, d.services) := Except.ok.inj (hpeek.symm.trans hsame)
      rw [← Except.ok.inj h]
      exact ⟨d, hpeek, hread, rfl, rfl, rfl⟩

namespace VersionMessage

/-- **A later version changes nothing about the fields of an earlier one.** Take two protocol
versions, the first not above the second.

* What a message is written as at the first starts what it is written as at the second.
* Bytes that read as a message at the second read at the first as the same message, but for what the
  first does not carry, which is zero: the fields from 106 on and the relay flag from 70001 on. To
  peek at the bytes gives the version and the services of the message.

Hence an introduction that a session understands was read at the version, and recorded with the
services, that it declares itself. -/
theorem forward_compatible (v w : ProtocolVersion) (h : v ≤ w) :
    (∀ m : VersionMessage, m.encode v <+: m.encode w) ∧
      (∀ b d, (Reader.versionMessage w).value b = .ok d →
        let extended := ProtocolVersion.extendedVersionMessage ≤ v
        (Reader.versionMessage v).value b = .ok { d with
            receiver := if extended then d.receiver else { raw := Octets.zero 16, port := 0 }
            nonce := if extended then d.nonce else 0
            userAgent := if extended then d.userAgent else ""
            startHeight := if extended then d.startHeight else 0
            relay := if ProtocolVersion.relay ≤ v then d.relay else false } ∧
          Reader.versionPeek.value b = .ok (d.version, d.services)) ∧
      ∀ (s : Session) (payload : Bytes) (r : Handled), s.handleVersion payload = .ok r →
        ∃ d, Reader.versionPeek.value payload = .ok (d.version, d.services) ∧
          (Reader.versionMessage d.version).value payload = .ok d ∧
          r.session.peerVersion = some d.version ∧ r.session.peerServices = some d.services ∧
          r.events = [.handshake {
            address := s.peer.withServices d.services, userAgent := d.userAgent
            version := d.version, services := d.services, startHeight := d.startHeight }] := by
  refine ⟨fun m => m.encode_prefix h, fun b d hd => ?_, fun s payload r hr =>
    Session.handleVersion_reads hr⟩
  intro extended
  refine ⟨?_, Reader.versionPeek_of_versionMessage hd⟩
  rw [Reader.versionMessage_upTo h hd]
  by_cases he : ProtocolVersion.extendedVersionMessage ≤ v
  · simp only [upTo, extended, if_pos he, extension]
  · simp only [upTo, extended, if_neg he]

/-- A message that was written at a version with the relay flag, read at the last version without
one and at the last one that ends after the sender. -/
theorem forward_compatible_across_gates :
    let m : VersionMessage := {
      version := 70015, services := ⟨9⟩, timestamp := 7, sender := Address.unspecified
      receiver := Address.unspecified, nonce := 5, userAgent := "/a:1/", startHeight := 9
      relay := true }
    let b := m.encode 70015
    let read := { m with
      sender := m.sender.withServices Services.none
      receiver := m.receiver.withServices Services.none }
    (70000 : ProtocolVersion) ≤ 70015 ∧ (105 : ProtocolVersion) ≤ 70015 ∧
      (Reader.versionMessage 70015).value b = .ok read ∧
      (Reader.versionMessage 70000).value b = .ok { read with relay := false } ∧
      (Reader.versionMessage 105).value b = .ok { read with
        receiver := { raw := Octets.zero 16, port := 0 }, nonce := 0, userAgent := ""
        startHeight := 0, relay := false } ∧
      m.encode 105 <+: b := by
  intro m b read
  have hread : (Reader.versionMessage 70015).value b = .ok read := by decide +kernel
  obtain ⟨-, hnoRelay, -⟩ := forward_compatible 70000 70015 (by decide)
  obtain ⟨hstart, hshort, -⟩ := forward_compatible 105 70015 (by decide)
  exact ⟨by decide, by decide, hread, (hnoRelay b read hread).1, (hshort b read hread).1,
    hstart m⟩

end VersionMessage

end PeerCrawl
