import PeerCrawl.Proofs.ReadErrors

set_option autoImplicit false

/-! # What is cut off cannot be read

`Reader.Settles r` says that bytes at the end change nothing about a read of `r`, unless it has
failed for want of bytes. Readers that are put together settle if their parts do, so the reader of
version messages does. A reader that takes exactly the bytes that were written must then ask for
more when the last of them are missing (`Reader.Takes.value_truncated`). With what a version message
reads as, that is its whole codec (`VersionMessage.encode_round_trip`). -/

namespace PeerCrawl

namespace Reader

variable {α β : Type}

/-- More bytes at the end change nothing about a read, unless it has failed for want of bytes. -/
def Settles (r : Reader α) : Prop := ∀ b more,
  (∃ e, r.value b = .error e ∧ e.IsEnd) ∨ r.run (b ++ more) = (r.value b, (r.run b).2 ++ more)

namespace Settles

theorem pure (a : α) : Settles (pure a : Reader α) := fun _ _ => .inr rfl

theorem fail (e : WireError) : Settles (Reader.fail e : Reader α) := fun _ _ => .inr rfl

theorem bind {r : Reader α} {next : α → Reader β} (h : r.Settles) (hnext : ∀ a, (next a).Settles) :
    (r >>= next).Settles := by
  intro b more
  rcases hr : r.run b with ⟨e | a, mid⟩
  · have hrun : (r >>= next).run b = (.error e, mid) := run_bind_of_error hr next
    rcases h b more with ⟨e', he', hend⟩ | hmore
    · rw [value, hr] at he'
      exact .inl ⟨e, by rw [value, hrun], Except.error.inj he' ▸ hend⟩
    · right
      rw [value, hr] at hmore
      rw [run_bind_of_error hmore, value, hrun]
  · have hrun : (r >>= next).run b = (next a).run mid := run_bind_of_ok hr next
    have hmore : r.run (b ++ more) = (.ok a, mid ++ more) := by
      rcases h b more with ⟨e, he, -⟩ | hmore
      · rw [value, hr] at he
        exact absurd he (by simp)
      · rw [hmore, value, hr]
    rw [value, hrun, run_bind_of_ok hmore]
    exact hnext a mid more

theorem ite {c : Prop} [Decidable c] {r r' : Reader α} (h : r.Settles) (h' : r'.Settles) :
    (if c then r else r').Settles := by
  split
  · exact h
  · exact h'

end Settles

/-! ## Words and texts -/

theorem octets_settles (n : Nat) : (octets n).Settles := by
  intro b more
  by_cases hshort : b.length < n
  · exact .inl ⟨_, congrArg Prod.fst (run_octets_short hshort), _, _, rfl⟩
  · right
    have hlen : (b.take n).length = n := by
      rw [List.length_take, Nat.min_eq_left (Nat.le_of_not_lt hshort)]
    have hread : ∀ rest, (octets n).run (b.take n ++ rest) = (.ok ⟨b.take n, hlen⟩, rest) :=
      run_octets_append ⟨b.take n, hlen⟩
    have hb := hread (b.drop n)
    rw [List.take_append_drop] at hb
    have hmore := hread (b.drop n ++ more)
    rw [← List.append_assoc, List.take_append_drop] at hmore
    rw [hmore, value, hb]

theorem take_settles (n : Nat) : (take n).Settles := (octets_settles n).bind fun _ => .pure _

theorem littleEndian_settles (width : Nat) : (littleEndian width).Settles :=
  (take_settles width).bind fun _ => .pure _

theorem u8_settles : u8.Settles := (littleEndian_settles 1).bind fun _ => .pure _

theorem u16be_settles : u16be.Settles :=
  ((take_settles 2).bind fun _ => .pure _).bind fun _ => .pure _

theorem u32le_settles : u32le.Settles := (littleEndian_settles 4).bind fun _ => .pure _

theorem u64le_settles : u64le.Settles := (littleEndian_settles 8).bind fun _ => .pure _

theorem extended_settles (width minimum : Nat) : (extended width minimum).Settles :=
  (littleEndian_settles width).bind fun _ => .ite (.fail _) (.pure _)

theorem compactSize_settles : compactSize.Settles :=
  u8_settles.bind fun _ =>
    .ite (extended_settles _ _) (.ite (extended_settles _ _)
      (.ite (extended_settles _ _) (.pure _)))

/-- The number of bytes that are left is not settled, but a text that fits into them is. -/
theorem sizedText_settles : sizedText.Settles := by
  refine compactSize_settles.bind fun size => ?_
  intro b more
  have htake := (take_settles size.toNat).bind (fun text => Settles.pure (Utf8.decodeLossy text))
  by_cases hshort : b.length < size.toNat
  · refine .inl ⟨.unexpectedEnd size.toNat b.length, ?_, _, _, rfl⟩
    rw [value, run_bind_of_ok (run_remaining b), if_pos hshort, run_fail]
  · have hlong : ¬ (b ++ more).length < size.toNat := by
      rw [List.length_append]
      omega
    rw [value, run_bind_of_ok (run_remaining b), if_neg hshort,
      run_bind_of_ok (run_remaining (b ++ more)), if_neg hlong]
    exact htake b more

/-! ## Version messages -/

theorem addressRecord_settles (e : AddressEncoding) : (addressRecord e).Settles := by
  have hrest : ∀ time, (recordAfter time).Settles := fun time =>
    u64le_settles.bind fun _ => (octets_settles 16).bind fun _ =>
      u16be_settles.bind fun _ => .pure _
  rw [addressRecord_eq]
  exact .ite ((u32le_settles.bind fun _ => .pure _).bind hrest) (hrest none)

theorem versionExtension_settles (records : AddressEncoding) : (versionExtension records).Settles :=
  (addressRecord_settles records).bind fun _ => u64le_settles.bind fun _ =>
    sizedText_settles.bind fun _ => u32le_settles.bind fun _ => .pure _

theorem relayed_settles (stream : ProtocolVersion) (message : Bool → VersionMessage) :
    (relayed stream message).Settles :=
  .ite ((u8_settles.bind fun _ => .pure _).bind fun _ => .pure _) (.pure _)

theorem versionMessage_settles (stream : ProtocolVersion) : (versionMessage stream).Settles := by
  rw [versionMessage_eq]
  exact (u32le_settles.bind fun _ => u64le_settles.bind fun _ => .pure _).bind fun _ =>
    (u64le_settles.bind fun _ => .pure _).bind fun _ =>
      (addressRecord_settles _).bind fun _ =>
        .ite ((versionExtension_settles _).bind fun _ => relayed_settles stream _)
          (relayed_settles stream _)

/-- If the end of what a reader takes is cut off, it asks for more. -/
theorem Takes.value_truncated {r : Reader α} {b p : Bytes} {a : α} (h : r.Takes b a)
    (hsettles : r.Settles) (hp : p <+: b) (hne : p ≠ b) :
    ∃ needed remaining, r.value p = .error (.unexpectedEnd needed remaining) := by
  obtain ⟨more, rfl⟩ := hp
  rcases hsettles p more with ⟨e, he, needed, remaining, rfl⟩ | hmore
  · exact ⟨needed, remaining, he⟩
  · -- otherwise the read of the whole would have left what was cut off
    have hwhole := h []
    rw [List.append_nil, hmore, Prod.mk.injEq, List.append_eq_nil_iff] at hwhole
    rw [hwhole.2.2, List.append_nil] at hne
    exact absurd rfl hne

end Reader

namespace VersionMessage

/-- **The codec of version messages.** What a version message was written as at a protocol version
reads back at that version, whatever follows it: of the addresses the host, the port and the
services, none where they were not known, and every other field as it was; but all that the version
does not carry, the fields from 106 on and the relay flag from 70001 on, reads as zero. If the end
is cut off anywhere, the read asks for more bytes. The user agent must be shorter than 2^64 bytes
where it is carried, as every text in memory is. -/
theorem encode_round_trip (m : VersionMessage) (stream : ProtocolVersion)
    (h : ProtocolVersion.extendedVersionMessage ≤ stream →
      (Utf8.encode m.userAgent).length < 2 ^ 64) :
    let carried (a : Address) : Address := {
      raw := a.raw, port := a.port, scope := 0
      services := some (a.services.getD Services.none), time := none }
    let extended := ProtocolVersion.extendedVersionMessage ≤ stream
    (∀ suffix, (Reader.versionMessage stream).run (m.encode stream ++ suffix) =
      (.ok {
        version := m.version
        services := m.services
        timestamp := m.timestamp
        sender := carried m.sender
        receiver := if extended then carried m.receiver else { raw := Octets.zero 16, port := 0 }
        nonce := if extended then m.nonce else 0
        userAgent := if extended then m.userAgent else ""
        startHeight := if extended then m.startHeight else 0
        relay := if ProtocolVersion.relay ≤ stream then m.relay else false }, suffix)) ∧
      ∀ p, p <+: m.encode stream → p ≠ m.encode stream → ∃ needed remaining,
        (Reader.versionMessage stream).value p = .error (.unexpectedEnd needed remaining) := by
  intro carried extended
  have htakes := Reader.versionMessage_takes m stream h
  refine ⟨fun suffix => ?_, fun p hp hne =>
    htakes.value_truncated (Reader.versionMessage_settles stream) hp hne⟩
  rw [htakes suffix]
  by_cases he : ProtocolVersion.extendedVersionMessage ≤ stream
  · simp only [VersionMessage.carried, extended, if_pos he]
    rfl
  · simp only [VersionMessage.carried, extended, if_neg he]
    rfl

/-- A message with a user agent outside of ASCII, at the first version that carries everything. -/
theorem encode_round_trip_complete :
    let m : VersionMessage := {
      version := 70015, services := ⟨1⟩, timestamp := -1, sender := Address.unspecified
      receiver := Address.unspecified.withTime 7, nonce := 5, userAgent := "/é:1/"
      startHeight := 9, relay := true }
    (Reader.versionMessage 70001).value (m.encode 70001) = .ok { m with
        sender := m.sender.withServices Services.none
        receiver := Address.unspecified.withServices Services.none } ∧
      ∃ needed remaining, (Reader.versionMessage 70001).value (m.encode 70001).dropLast =
        .error (.unexpectedEnd needed remaining) := by
  intro m
  obtain ⟨hread, hcut⟩ := encode_round_trip m 70001 fun _ => by decide +kernel
  refine ⟨?_, hcut _ (List.dropLast_prefix _) (by decide +kernel)⟩
  have hwhole := hread []
  rw [List.append_nil] at hwhole
  rw [Reader.value, hwhole]
  decide +kernel

end VersionMessage

end PeerCrawl
