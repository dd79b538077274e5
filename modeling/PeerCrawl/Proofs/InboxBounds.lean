import PeerCrawl.Proofs.Hearing
import PeerCrawl.Proofs.ReadInPlace

set_option autoImplicit false

/-! # How much an inbox holds

An inbox holds less than one frame once everything complete in it has been handled: less than a
header, or a good header (`Inbox.Sound`) and less than the payload that it announces
(`Inbox.Short`). This holds whatever is done to a connection and whatever arrives, so what a peer
sends never piles up (`Connection.inbox_bounded`). -/

namespace PeerCrawl

namespace Inbox

variable {i : Inbox} {magic : Magic} {header : Header} {buffer : Bytes}

/-! ## Good headers -/

/-- A header is good if it can be read, and has the right magic and no excessive length. -/
theorem readHeader_eq_ok_iff : readHeader magic buffer = .ok header ↔
    Reader.header.value (buffer.take Wire.headerWidth) = .ok header ∧ header.magic = magic ∧
      header.payloadLength.toNat ≤ Wire.maxPayload := by
  unfold readHeader
  cases hread : Reader.header.value (buffer.take Wire.headerWidth) with
  | error e => simp
  | ok h =>
    by_cases hmagic : h.magic = magic
    · by_cases hlength : Wire.maxPayload < h.payloadLength.toNat
      · simp only [hmagic, hlength, ne_eq, not_true_eq_false, if_true, if_false, reduceCtorEq,
          false_iff, Except.ok.injEq]
        rintro ⟨rfl, -, hle⟩
        omega
      · simp only [hmagic, hlength, ne_eq, not_true_eq_false, if_false, Except.ok.injEq]
        exact ⟨fun heq => ⟨heq, heq ▸ hmagic, heq ▸ Nat.not_lt.1 hlength⟩, fun hall => hall.1⟩
    · simp only [hmagic, ne_eq, not_false_eq_true, if_true, reduceCtorEq, Except.ok.injEq,
        false_iff]
      rintro ⟨rfl, hgood, -⟩
      exact hmagic hgood

/-- The header that is kept is the one at the front of the buffer, and is good. -/
def Sound (magic : Magic) (i : Inbox) : Prop :=
  ∀ header, i.header = some header →
    Wire.headerWidth ≤ i.buffer.length ∧ readHeader magic i.buffer = .ok header

/-- Nothing that is complete is left: less than a header, or a header and less than its frame. -/
structure Short (magic : Magic) (i : Inbox) : Prop where
  sound : i.Sound magic
  noFrame : ∀ header, i.header = some header →
    i.buffer.length < Wire.headerWidth + header.payloadLength.toNat

theorem sound_of_none (h : i.header = none) : i.Sound magic := fun _ hsome =>
  absurd (h.symm.trans hsome) nofun

theorem short_of_none (h : i.header = none) : i.Short magic :=
  ⟨sound_of_none h, fun _ hsome => absurd (h.symm.trans hsome) nofun⟩

theorem Sound.append (h : i.Sound magic) (b : Bytes) : (i.append b).Sound magic := by
  intro header hheader
  obtain ⟨hle, hread⟩ := h header hheader
  rw [buffer_append]
  exact ⟨by rw [List.length_append]; omega, by rw [readHeader_append hle, hread]⟩

/-- A sound inbox holds less than a header, a bad header, or a good one. -/
theorem Sound.cases (h : i.Sound magic) :
    i.header = none ∧ i.buffer.length < Wire.headerWidth ∧ i.next magic = .incomplete none ∨
    i.header = none ∧ Wire.headerWidth ≤ i.buffer.length ∧
      (∃ e, readHeader magic i.buffer = .error e ∧ i.next magic = .rejected e) ∨
    Wire.headerWidth ≤ i.buffer.length ∧
      ∃ header, readHeader magic i.buffer = .ok header ∧
        i.next magic = frameOf header i.buffer := by
  cases hi : i.header with
  | some stored =>
    obtain ⟨hle, hread⟩ := h stored hi
    exact .inr (.inr ⟨hle, stored, hread, next_of_header hi⟩)
  | none =>
    rcases Nat.lt_or_ge i.buffer.length Wire.headerWidth with hlt | hle
    · exact .inl ⟨rfl, hlt, next_of_lt hi hlt⟩
    · cases hread : readHeader magic i.buffer with
      | error e => exact .inr (.inl ⟨rfl, hle, e, rfl, next_of_badHeader hi hle hread⟩)
      | ok header => exact .inr (.inr ⟨hle, header, rfl, next_of_goodHeader hi hle hread⟩)

/-- It makes no difference whether the header of a sound inbox was read before. -/
theorem Sound.next_eq (h : i.Sound magic) :
    i.next magic = ({ buffer := i.buffer } : Inbox).next magic := by
  cases hi : i.header with
  | none => rw [next, next, hi]
  | some stored =>
    obtain ⟨hle, hread⟩ := h stored hi
    rw [next_of_header hi, next_of_goodHeader (i := { buffer := i.buffer }) rfl hle hread]

theorem length_lt_of_frameOf_incomplete {stored : Option Header}
    (h : frameOf header buffer = .incomplete stored) :
    buffer.length < Wire.headerWidth + header.payloadLength.toNat := by
  rcases Nat.lt_or_ge buffer.length (Wire.headerWidth + header.payloadLength.toNat) with hlt | hle
  · exact hlt
  · rw [frameOf_of_le hle] at h
    exact absurd h nofun

/-- What is left where nothing complete stands at the front. -/
theorem Sound.incomplete (h : i.Sound magic) {stored : Option Header}
    (hn : i.next magic = .incomplete stored) :
    Short magic { i with header := stored } ∧
      (stored = none → i.buffer.length < Wire.headerWidth) := by
  rcases h.cases with ⟨-, hlt, hnone⟩ | ⟨-, -, e, -, hbad⟩ | ⟨hle, header, hread, hgood⟩
  · obtain rfl : none = stored := Arrived.incomplete.inj (hnone.symm.trans hn)
    exact ⟨short_of_none rfl, fun _ => hlt⟩
  · exact absurd (hbad.symm.trans hn) nofun
  · have hframe := hgood.symm.trans hn
    obtain rfl := eq_of_frameOf_incomplete hframe
    refine ⟨⟨fun _ hsome => ?_, fun _ hsome => ?_⟩, nofun⟩
    · obtain rfl := Option.some.inj hsome
      exact ⟨hle, hread⟩
    · obtain rfl := Option.some.inj hsome
      exact length_lt_of_frameOf_incomplete hframe

/-- However the frame at the front goes on, an inbox that is short holds less than the longest. -/
theorem Short.length_lt (h : i.Short magic)
    (hnone : i.header = none → i.buffer.length < Wire.headerWidth) :
    i.buffer.length < Wire.headerWidth + Wire.maxPayload := by
  cases hi : i.header with
  | none => exact Nat.lt_add_right _ (hnone hi)
  | some header =>
    have hlt := h.noFrame header hi
    have hle := (readHeader_eq_ok_iff.1 (h.sound header hi).2).2.2
    omega

end Inbox

/-! ## Feeding -/

namespace Session

variable {s : Session} {i : Inbox}

theorem config_feed (s : Session) (i : Inbox) : (s.feed i).session.config = s.config := by
  rw [(s.feed_understood i).1, config_heard]

theorem config_of_handle {header : Header} {payload : Bytes} {r : Handled}
    (h : s.handle header payload = .ok r) : r.session.config = s.config := by
  rw [(handle_eq_ok h).2.1, config_heard]

/-- A feed leaves nothing complete behind, and after a failure no header. -/
theorem feed_short (h : i.Sound s.config.magic) :
    (s.feed i).inbox.Short s.config.magic ∧
      ((s.feed i).result = .ok () → (s.feed i).inbox.header = none →
        (s.feed i).inbox.buffer.length < Wire.headerWidth) := by
  fun_induction feed s i with
  | case1 s i header hn =>
    obtain ⟨hshort, hlt⟩ := h.incomplete hn
    exact ⟨hshort, fun _ => hlt⟩
  | case2 s i e hn =>
    refine ⟨Inbox.short_of_none (Inbox.header_of_rejected hn), fun hok => ?_⟩
    cases hok
  | case3 s i header payload rest hn e he =>
    refine ⟨Inbox.short_of_none rfl, fun hok => ?_⟩
    cases hok
  | case4 s i header payload rest hn r hr ih =>
    rw [config_of_handle hr] at ih
    exact ih (Inbox.sound_of_none rfl)

end Session

/-! ## Runs -/

namespace Connection

variable {c c' : Connection} {config : Configuration}

/-- The configuration is the one of the start, and nothing complete waits in the inbox. -/
structure Tidy (config : Configuration) (c : Connection) : Prop where
  configured : c.session.config = config
  short : c.inbox.Short config.magic

theorem Tidy.heardAlike (h : c.HeardAlike c') (hc : c.Tidy config) : c'.Tidy config := by
  refine ⟨?_, h.inbox ▸ hc.short⟩
  rw [h.session]
  exact hc.configured

theorem Tidy.receive (hc : c.Tidy config) (bytes : Bytes) :
    (c.receive bytes).connection.Tidy config ∧
      ((c.receive bytes).result = .ok () → (c.receive bytes).connection.inbox.header = none →
        (c.receive bytes).connection.inbox.buffer.length < Wire.headerWidth) := by
  have hsound := hc.short.sound.append bytes
  rw [← hc.configured] at hsound
  obtain ⟨hshort, hlt⟩ := Session.feed_short hsound
  rw [hc.configured] at hshort
  exact ⟨⟨(c.session.config_feed _).trans hc.configured, hshort⟩, hlt⟩

theorem tidy_performAll (socket : Socket) (peer : Address) (config : Configuration)
    (ops : List Operation) :
    ((ofSocket socket peer config).performAll ops).connection.Tidy config := by
  have hstart : (ofSocket socket peer config).Tidy config := ⟨rfl, Inbox.short_of_none rfl⟩
  exact performAll_keeps Tidy.heardAlike (fun bytes hc => (hc.receive bytes).1) hstart ops

/-- **An inbox is bounded.** Do anything to a fresh connection, going on after failures.

* A header that is stored is the one at the front of the buffer, and can be read there; it has the
  right magic and announces no excessive payload, which is not complete.
* After bytes are received without a failure, the buffer holds less than a header if none is
  stored, and at most 4,000,023 bytes in any case.
* To receive, whatever the connection is like and whatever arrives, no slice is taken that the
  buffer does not have, and nothing is counted from behind its end. -/
theorem inbox_bounded (socket : Socket) (peer : Address) (config : Configuration)
    (ops : List Operation) :
    let c := ((ofSocket socket peer config).performAll ops).connection
    (∀ header, c.inbox.header = some header →
        Wire.headerWidth ≤ c.inbox.buffer.length ∧
          Reader.header.value (c.inbox.buffer.take Wire.headerWidth) = .ok header ∧
          header.magic = config.magic ∧ header.payloadLength.toNat ≤ Wire.maxPayload ∧
          c.inbox.buffer.length < Wire.headerWidth + header.payloadLength.toNat) ∧
      (∀ bytes, (c.receive bytes).result = .ok () →
        ((c.receive bytes).connection.inbox.header = none →
            (c.receive bytes).connection.inbox.buffer.length < Wire.headerWidth) ∧
          (c.receive bytes).connection.inbox.buffer.length ≤ 4000023) ∧
      ∀ (c : Connection) (bytes : Bytes), c.receiveInPlace bytes = some (c.receive bytes) := by
  intro c
  have hc : c.Tidy config := tidy_performAll socket peer config ops
  refine ⟨fun header hheader => ?_, fun bytes hok => ?_, receiveInPlace_eq⟩
  · obtain ⟨hle, hread⟩ := hc.short.sound header hheader
    obtain ⟨hvalue, hmagic, hmax⟩ := Inbox.readHeader_eq_ok_iff.1 hread
    exact ⟨hle, hvalue, hmagic, hmax, hc.short.noFrame header hheader⟩
  · obtain ⟨htidy, hlt⟩ := hc.receive bytes
    have hbound := htidy.short.length_lt (hlt hok)
    have hsum : Wire.headerWidth + Wire.maxPayload = 4000024 := rfl
    exact ⟨hlt hok, by omega⟩

end Connection

end PeerCrawl
