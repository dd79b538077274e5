import PeerCrawl.Proofs.Codec

set_option autoImplicit false

/-! # Why reads fail

What a read complains of says what was read (`Reader.FailsOnly`). Words and records only want for
bytes, and what holds a compact size may also find it longer than it has to be. Only the command of
a header can be malformed, and a header that is complete complains of nothing else
(`Reader.header_fails`). -/

namespace PeerCrawl

namespace WireError

/-- A field was begun with too few bytes left. -/
def IsEnd (e : WireError) : Prop := ∃ needed remaining, e = .unexpectedEnd needed remaining

/-- A field was begun with too few bytes left, or a compact size is longer than it has to be. -/
def IsSize (e : WireError) : Prop := e.IsEnd ∨ ∃ n, e = .nonCanonicalVarInt n

theorem IsSize.ne_malformedCommand {e : WireError} (h : e.IsSize) : e ≠ .malformedCommand := by
  rcases h with ⟨needed, remaining, rfl⟩ | ⟨n, rfl⟩ <;> exact WireError.noConfusion

end WireError

namespace Reader

variable {α β : Type} {P : WireError → Prop}

/-! ## Errors of a kind -/

/-- Every error of the reader is of a kind. -/
def FailsOnly (P : WireError → Prop) (r : Reader α) : Prop :=
  ∀ b e rest, r.run b = (.error e, rest) → P e

namespace FailsOnly

theorem pure (a : α) : FailsOnly P (pure a : Reader α) := fun _ _ _ h => absurd h (by simp)

theorem fail {e : WireError} (h : P e) : FailsOnly P (Reader.fail e : Reader α) := by
  intro b e' rest hrun
  rw [run_fail, Prod.mk.injEq, Except.error.injEq] at hrun
  rw [← hrun.1]
  exact h

theorem bind {r : Reader α} {next : α → Reader β} (h : r.FailsOnly P)
    (hnext : ∀ a, (next a).FailsOnly P) : (r >>= next).FailsOnly P := by
  intro b e rest hrun
  rcases hr : r.run b with ⟨e' | a, mid⟩
  · rw [run_bind_of_error hr, Prod.mk.injEq, Except.error.injEq] at hrun
    rw [← hrun.1]
    exact h b e' mid hr
  · rw [run_bind_of_ok hr] at hrun
    exact hnext a mid e rest hrun

theorem ite {c : Prop} [Decidable c] {r r' : Reader α} (h : r.FailsOnly P)
    (h' : r'.FailsOnly P) : (if c then r else r').FailsOnly P := by
  split
  · exact h
  · exact h'

theorem times {r : Reader α} (h : r.FailsOnly P) (n : Nat) : (Reader.times r n).FailsOnly P := by
  induction n with
  | zero => exact pure []
  | succ n ih => exact h.bind fun a => ih.bind fun as => pure (a :: as)

theorem mono {Q : WireError → Prop} {r : Reader α} (h : r.FailsOnly P) (hPQ : ∀ e, P e → Q e) :
    r.FailsOnly Q :=
  fun b e rest hrun => hPQ e (h b e rest hrun)

/-- Beside compact sizes, a reader that only wants for bytes. -/
theorem sized {r : Reader α} (h : r.FailsOnly WireError.IsEnd) : r.FailsOnly WireError.IsSize :=
  h.mono fun _ => .inl

theorem value {r : Reader α} (h : r.FailsOnly P) {b : Bytes} {e : WireError}
    (he : r.value b = .error e) : P e :=
  h b e (r.run b).2 (Prod.ext he rfl)

end FailsOnly

/-! ## Words and records -/

theorem octets_failsOnly (n : Nat) : (octets n).FailsOnly WireError.IsEnd := by
  intro b e rest hrun
  rw [run, octets] at hrun
  split at hrun
  · exact absurd hrun (by simp)
  · rw [Prod.mk.injEq, Except.error.injEq] at hrun
    exact ⟨n, b.length, hrun.1.symm⟩

theorem take_failsOnly (n : Nat) : (take n).FailsOnly WireError.IsEnd :=
  (octets_failsOnly n).bind fun _ => .pure _

theorem littleEndian_failsOnly (width : Nat) : (littleEndian width).FailsOnly WireError.IsEnd :=
  (take_failsOnly width).bind fun _ => .pure _

theorem u8_failsOnly : u8.FailsOnly WireError.IsEnd :=
  (littleEndian_failsOnly 1).bind fun _ => .pure _

theorem u32le_failsOnly : u32le.FailsOnly WireError.IsEnd :=
  (littleEndian_failsOnly 4).bind fun _ => .pure _

theorem u64le_failsOnly : u64le.FailsOnly WireError.IsEnd :=
  (littleEndian_failsOnly 8).bind fun _ => .pure _

theorem u16be_failsOnly : u16be.FailsOnly WireError.IsEnd :=
  ((take_failsOnly 2).bind fun _ => .pure _).bind fun _ => .pure _

theorem bool_failsOnly : bool.FailsOnly WireError.IsEnd :=
  u8_failsOnly.bind fun _ => .pure _

theorem addressRecord_failsOnly (e : AddressEncoding) :
    (addressRecord e).FailsOnly WireError.IsEnd := by
  have hrest : ∀ time, (recordAfter time).FailsOnly WireError.IsEnd := fun time =>
    u64le_failsOnly.bind fun _ => (octets_failsOnly 16).bind fun _ =>
      u16be_failsOnly.bind fun _ => .pure _
  rw [addressRecord_eq]
  exact .ite ((u32le_failsOnly.bind fun _ => .pure _).bind hrest) (hrest none)

theorem versionPeek_failsOnly : versionPeek.FailsOnly WireError.IsEnd :=
  u32le_failsOnly.bind fun _ => u64le_failsOnly.bind fun _ => .pure _

/-! ## Payloads with compact sizes -/

theorem extended_failsOnly (width minimum : Nat) :
    (extended width minimum).FailsOnly WireError.IsSize :=
  (littleEndian_failsOnly width).sized.bind fun n => .ite (.fail (.inr ⟨n, rfl⟩)) (.pure _)

theorem compactSize_failsOnly : compactSize.FailsOnly WireError.IsSize :=
  u8_failsOnly.sized.bind fun _ =>
    .ite (extended_failsOnly _ _) (.ite (extended_failsOnly _ _)
      (.ite (extended_failsOnly _ _) (.pure _)))

theorem remaining_failsOnly : remaining.FailsOnly P := fun _ _ _ h =>
  absurd h (by simp [run, remaining])

theorem sizedText_failsOnly : sizedText.FailsOnly WireError.IsSize :=
  compactSize_failsOnly.bind fun size => remaining_failsOnly.bind fun left =>
    .ite (.fail (.inl ⟨size.toNat, left, rfl⟩)) ((take_failsOnly _).sized.bind fun _ => .pure _)

theorem addressList_failsOnly (v : ProtocolVersion) :
    (addressList v).FailsOnly fun e => e.IsSize ∨ ∃ n, e = .tooManyAddresses n :=
  (compactSize_failsOnly.mono fun _ => .inl).bind fun n =>
    .ite (.fail (.inr ⟨n.toNat, rfl⟩))
      ((((addressRecord_failsOnly _).times _).sized).mono fun _ => .inl)

theorem versionExtension_failsOnly (records : AddressEncoding) :
    (versionExtension records).FailsOnly WireError.IsSize :=
  (addressRecord_failsOnly records).sized.bind fun _ => u64le_failsOnly.sized.bind fun _ =>
    sizedText_failsOnly.bind fun _ => u32le_failsOnly.sized.bind fun _ => .pure _

theorem relayed_failsOnly (stream : ProtocolVersion) (message : Bool → VersionMessage) :
    (relayed stream message).FailsOnly WireError.IsEnd :=
  .ite (bool_failsOnly.bind fun _ => .pure _) (.pure _)

theorem versionMessage_failsOnly (stream : ProtocolVersion) :
    (versionMessage stream).FailsOnly WireError.IsSize := by
  rw [versionMessage_eq]
  exact versionPeek_failsOnly.sized.bind fun _ =>
    (u64le_failsOnly.sized.bind fun _ => .pure _).bind fun _ =>
      (addressRecord_failsOnly _).sized.bind fun _ =>
        .ite ((versionExtension_failsOnly _).bind fun _ => (relayed_failsOnly stream _).sized)
          (relayed_failsOnly stream _).sized

/-! ## Headers -/

/-- The reader takes `width` bytes; where there are as many, its errors are of a kind. -/
structure TakesWidth (width : Nat) (P : WireError → Prop) (r : Reader α) : Prop where
  taken : ∀ b a rest, r.run b = (.ok a, rest) → rest.length + width = b.length
  failed : ∀ b e rest, r.run b = (.error e, rest) → width ≤ b.length → P e

namespace TakesWidth

variable {m n : Nat}

theorem pure (a : α) : TakesWidth 0 P (pure a : Reader α) where
  taken b a' rest h := by
    rw [run_pure, Prod.mk.injEq] at h
    rw [← h.2, Nat.add_zero]
  failed b e rest h := absurd h (by simp)

theorem bind {r : Reader α} {next : α → Reader β} (h : r.TakesWidth m P)
    (hnext : ∀ a, (next a).TakesWidth n P) : (r >>= next).TakesWidth (m + n) P where
  taken b c rest hrun := by
    obtain ⟨a, mid, hr, hn⟩ := run_bind_eq_ok hrun
    have hfirst := h.taken b a mid hr
    have hsecond := (hnext a).taken mid c rest hn
    omega
  failed b e rest hrun hle := by
    rcases hr : r.run b with ⟨e' | a, mid⟩
    · rw [run_bind_of_error hr, Prod.mk.injEq, Except.error.injEq] at hrun
      rw [← hrun.1]
      exact h.failed b e' mid hr (by omega)
    · rw [run_bind_of_ok hr] at hrun
      have hfirst := h.taken b a mid hr
      exact (hnext a).failed mid e rest hrun (by omega)

end TakesWidth

theorem octets_takesWidth (n : Nat) : (octets n).TakesWidth n P where
  taken b a rest h := by
    rw [run, octets] at h
    split at h
    · next hlen =>
      rw [Prod.mk.injEq] at h
      rw [List.length_take] at hlen
      rw [← h.2, List.length_drop]
      omega
    · exact absurd h (by simp)
  failed b e rest h hle := by
    have hlen : (b.take n).length = n := by rw [List.length_take, Nat.min_eq_left hle]
    rw [run, octets, dif_pos hlen] at h
    exact absurd h (by simp)

theorem command_takesWidth : command.TakesWidth Wire.commandWidth (· = .malformedCommand) := by
  refine TakesWidth.bind (n := 0) (octets_takesWidth Wire.commandWidth) fun field => ?_
  cases hfield : Command.ofField field with
  | ok c => exact .pure c
  | error e =>
    have he : e = .malformedCommand := by
      rw [Command.ofField] at hfield
      split at hfield
      · exact absurd hfield (by simp)
      · exact (Except.error.inj hfield).symm
    refine ⟨fun b a rest h => absurd h (by simp), fun b e' rest h _ => ?_⟩
    rw [run_fail, Prod.mk.injEq, Except.error.injEq] at h
    rw [← h.1, he]

theorem u32le_takesWidth : u32le.TakesWidth 4 P :=
  (((octets_takesWidth 4).bind fun _ => .pure _).bind fun _ => .pure _).bind fun _ => .pure _

theorem header_takesWidth : header.TakesWidth Wire.headerWidth (· = .malformedCommand) :=
  (octets_takesWidth 4).bind fun _ => command_takesWidth.bind fun _ =>
    u32le_takesWidth.bind fun _ => (octets_takesWidth 4).bind fun _ => .pure _

/-- The only fault of a header that is complete is its command. -/
theorem header_fails {b : Bytes} {e : WireError} (hlen : Wire.headerWidth ≤ b.length)
    (h : header.value b = .error e) : e = .malformedCommand :=
  header_takesWidth.failed b e (header.run b).2 (Prod.ext h rfl) hlen

end Reader

end PeerCrawl
