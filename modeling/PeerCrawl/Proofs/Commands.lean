import PeerCrawl.Connection.Session
import PeerCrawl.Proofs.CompactSizes

set_option autoImplicit false

/-! # Commands and headers

A command that comes from a name or from a field has a printable name, and its field is that name
with zero bytes behind it (`Command.checked_iff`, `Command.ofField_eq_ok`). So commands, their
fields and their names are three forms of one thing (`Command.ofName_text`, `Command.eq_iff_text`),
and what a message means depends on the text of its command alone (`Session.interpret_text`). A
header with such a command is what its twenty-four bytes read as, and nothing else reads as a header
(`Reader.header_codec`). -/

namespace PeerCrawl

namespace Command

variable {c d : Command} {field : Octets Wire.commandWidth} {name : String}

/-- The command was made from a name or from a field, not from a literal. -/
def Checked (c : Command) : Prop :=
  (∃ name, ofName name = .ok c) ∨ ∃ field, ofField field = .ok c

/-! ## Names -/

theorem isPrintable_iff {b : UInt8} : isPrintable b = true ↔ 0x20 ≤ b ∧ b ≤ 0x7E := by
  rw [isPrintable, Bool.and_eq_true, decide_eq_true_iff, decide_eq_true_iff]

theorem toNat_lt_of_isPrintable {b : UInt8} (h : isPrintable b = true) : b.toNat < 0x80 :=
  Nat.lt_of_le_of_lt (UInt8.le_iff_toNat_le.1 (isPrintable_iff.1 h).2) (by decide)

theorem ofName_eq_ok :
    ofName name = .ok c ↔ c.name.all isPrintable = true ∧ Utf8.encode name = c.name := by
  constructor
  · intro h
    have hprintable := isPrintable_of_ofName h
    simp only [ofName] at h
    split_ifs at h
    exact ⟨hprintable, congrArg Command.name (Except.ok.inj h)⟩
  · rintro ⟨hprintable, hname⟩
    have hlength : (Utf8.encode name).length ≤ Wire.commandWidth := hname ▸ c.length_le
    simp only [ofName, dif_pos hlength]
    rw [if_pos (hname ▸ hprintable)]
    simp only [hname]

theorem text_of_encode (h : Utf8.encode name = c.name) : c.text = name := by
  rw [text, ← h, Utf8.decode?_encode, Option.getD_some]

/-- A printable name is the writing of its text. -/
theorem encode_text (h : c.name.all isPrintable = true) : Utf8.encode c.text = c.name := by
  have hname : Utf8.encode (Utf8.ascii c.name) = c.name := Utf8.encode_ascii fun b hb =>
    toNat_lt_of_isPrintable (List.all_eq_true.1 h b hb)
  rw [text_of_encode hname, hname]

/-! ## Fields -/

theorem bytes_field (c : Command) :
    c.field.bytes = c.name ++ List.replicate (Wire.commandWidth - c.name.length) 0 := rfl

/-- A name of known length can be cut off its field. -/
theorem eq_iff_field_eq : c = d ↔ c.field = d.field ∧ c.name.length = d.name.length := by
  refine ⟨fun h => h ▸ ⟨rfl, rfl⟩, fun ⟨hfield, hlength⟩ => ?_⟩
  have hbytes := congrArg Octets.bytes hfield
  rw [bytes_field, bytes_field] at hbytes
  have hname : c.name = d.name := List.append_inj_left hbytes hlength
  cases c
  cases d
  simpa using hname

/-- A field is that of its command, whose name is printable. -/
theorem ofField_eq_ok :
    ofField field = .ok c ↔ c.name.all isPrintable = true ∧ c.field = field := by
  constructor
  · intro h
    simp only [ofField] at h
    split_ifs at h with hgood
    obtain ⟨hprintable, hpadding⟩ := hgood
    have hsplit := List.takeWhile_append_dropWhile (p := (· ≠ 0)) (l := field.bytes)
    -- the padding has as many zero bytes as the name leaves room for
    have hlength := congrArg List.length hsplit
    rw [List.length_append, field.length_eq] at hlength
    have hzeros : field.bytes.dropWhile (· ≠ 0) =
        List.replicate (Wire.commandWidth - (field.bytes.takeWhile (· ≠ 0)).length) 0 := by
      refine List.eq_replicate_iff.2 ⟨by omega, fun b hb => ?_⟩
      exact eq_of_beq (List.all_eq_true.1 hpadding b hb)
    rw [← Except.ok.inj h]
    refine ⟨hprintable, Octets.ext_bytes ((bytes_field _).trans ?_)⟩
    rw [← hzeros, hsplit]
  · rintro ⟨hprintable, rfl⟩
    exact ofField_field hprintable

/-! ## Commands that were checked -/

theorem checked_iff : c.Checked ↔ c.name.all isPrintable = true := by
  constructor
  · rintro (⟨name, h⟩ | ⟨field, h⟩)
    · exact (ofName_eq_ok.1 h).1
    · exact (ofField_eq_ok.1 h).1
  · intro h
    exact .inr ⟨c.field, ofField_field h⟩

theorem ofName_text (h : c.Checked) : ofName c.text = .ok c :=
  ofName_eq_ok.2 ⟨checked_iff.1 h, encode_text (checked_iff.1 h)⟩

theorem text_of_ofName (h : ofName name = .ok c) : c.text = name :=
  text_of_encode (ofName_eq_ok.1 h).2

theorem eq_iff_text (hc : c.Checked) (hd : d.Checked) : c = d ↔ c.text = d.text := by
  refine ⟨fun h => h ▸ rfl, fun h => ?_⟩
  have hsame := ofName_text hc
  rw [h, ofName_text hd] at hsame
  exact (Except.ok.inj hsame).symm

/-- To compare with the command of a name is to compare with the name. -/
theorem eq_iff_text_of_ofName (hc : c.Checked) (hd : ofName name = .ok d) :
    c = d ↔ c.text = name := by
  rw [eq_iff_text hc (.inl ⟨name, hd⟩), text_of_ofName hd]

/-- The fields that hold a command are the printable names of at most twelve bytes with zero bytes
behind them. -/
theorem exists_ofField_iff : (∃ c, ofField field = .ok c) ↔
    ∃ name : Bytes, name.length ≤ Wire.commandWidth ∧ (∀ b ∈ name, 0x20 ≤ b ∧ b ≤ 0x7E) ∧
      field.bytes = name ++ List.replicate (Wire.commandWidth - name.length) 0 := by
  constructor
  · rintro ⟨c, h⟩
    obtain ⟨hprintable, rfl⟩ := ofField_eq_ok.1 h
    exact ⟨c.name, c.length_le,
      fun b hb => isPrintable_iff.1 (List.all_eq_true.1 hprintable b hb), rfl⟩
  · rintro ⟨name, hlength, hprintable, hfield⟩
    refine ⟨⟨name, hlength⟩, ofField_eq_ok.2 ⟨List.all_eq_true.2 fun b hb => ?_, ?_⟩⟩
    · exact isPrintable_iff.2 (hprintable b hb)
    · exact Octets.ext_bytes hfield.symm

end Command

/-! ## Messages -/

namespace Session

/-- What a message means is up to the text of its command. -/
theorem interpret_text (s : Session) {c : Command} (payload : Bytes) (h : c.Checked) :
    s.interpret c payload =
      if c.text = "version" then s.handleVersion payload
      else if c.text = "verack" then
        .ok { session := s, notices := [.verackReceived s.peer] }
      else if c.text = "ping" then s.handlePing payload
      else if c.text = "addr" then s.handleAddresses payload
      else .ok { session := s, notices := [.ignored c s.peer] } := by
  have hversion : Command.ofName "version" = .ok Command.version := rfl
  have hverack : Command.ofName "verack" = .ok Command.verack := rfl
  have hping : Command.ofName "ping" = .ok Command.ping := rfl
  have haddr : Command.ofName "addr" = .ok Command.addr := rfl
  simp only [interpret, Command.eq_iff_text_of_ofName h hversion,
    Command.eq_iff_text_of_ofName h hverack, Command.eq_iff_text_of_ofName h hping,
    Command.eq_iff_text_of_ofName h haddr]

end Session

/-! ## Headers -/

namespace Reader

variable {b rest : Bytes}

theorem run_command_eq_ok {c : Command} :
    command.run b = (.ok c, rest) ↔ c.Checked ∧ b = c.field.bytes ++ rest := by
  constructor
  · intro h
    obtain ⟨field, mid, hoctets, h⟩ := run_bind_eq_ok h
    cases hfield : Command.ofField field with
    | ok d =>
      rw [hfield] at h
      obtain ⟨hd, rfl⟩ := Prod.mk.inj h
      obtain rfl := Except.ok.inj hd
      refine ⟨.inr ⟨field, hfield⟩, ?_⟩
      rw [(Command.ofField_eq_ok.1 hfield).2]
      exact octets_undoes Wire.commandWidth b field mid hoctets
    | error e =>
      rw [hfield] at h
      exact absurd h (by simp)
  · rintro ⟨hchecked, rfl⟩
    exact command_takes (Command.checked_iff.1 hchecked) rest

theorem run_header_eq_ok {h : Header} :
    header.run b = (.ok h, rest) ↔ h.command.Checked ∧ b = h.encode ++ rest := by
  constructor
  · intro hrun
    obtain ⟨magic, mid₁, hmagic, hrun⟩ := run_bind_eq_ok hrun
    obtain ⟨command, mid₂, hcommand, hrun⟩ := run_bind_eq_ok hrun
    obtain ⟨payloadLength, mid₃, hlength, hrun⟩ := run_bind_eq_ok hrun
    obtain ⟨checksum, mid₄, hchecksum, hrun⟩ := run_bind_eq_ok hrun
    obtain ⟨hchecked, hmid⟩ := run_command_eq_ok.1 hcommand
    rw [run_pure, Prod.mk.injEq, Except.ok.injEq] at hrun
    obtain ⟨rfl, rfl⟩ := hrun
    refine ⟨hchecked, ?_⟩
    rw [octets_undoes 4 _ _ _ hmagic, hmid, u32le_undoes _ _ _ hlength,
      octets_undoes 4 _ _ _ hchecksum]
    simp only [Header.encode, List.append_assoc]
  · rintro ⟨hchecked, rfl⟩
    exact header_takes (Command.checked_iff.1 hchecked) rest

theorem value_header_eq_ok {h : Header} : header.value b = .ok h ↔
    h.command.Checked ∧ Wire.headerWidth ≤ b.length ∧ h.encode = b.take Wire.headerWidth := by
  constructor
  · intro hvalue
    have hrun : header.run b = (.ok h, (header.run b).2) := Prod.ext hvalue rfl
    obtain ⟨hchecked, hb⟩ := run_header_eq_ok.1 hrun
    refine ⟨hchecked, ?_, ?_⟩
    · rw [hb, List.length_append, h.length_encode]
      exact Nat.le_add_right _ _
    · rw [hb, List.take_left' h.length_encode]
  · rintro ⟨hchecked, -, hencode⟩
    have hb : b = h.encode ++ b.drop Wire.headerWidth := by
      rw [hencode, List.take_append_drop]
    rw [value, run_header_eq_ok.2 ⟨hchecked, hb⟩]

/-- **The codec of headers and commands.** Say that a command was checked if it comes from a name or
from a field.

* A header with a checked command reads back from its encoding, whatever follows it.
* Bytes that read as a header are at least twenty-four, the command is a checked one, and the first
  twenty-four bytes are the encoding of the header.
* A field holds a command just if it is a name of at most twelve printable bytes with zero bytes
  behind it. Then the text of the command makes the same command, and its field is the one it came
  from.
* A name that makes a command comes back from the field of that command.
* Commands are equal just if their fields and the lengths of their names are. Checked commands are
  equal just if their texts are, so that what a message means depends on the text of its command. -/
theorem header_codec :
    (∀ h : Header, h.command.Checked → ∀ suffix,
      header.value (h.encode ++ suffix) = .ok h) ∧
    (∀ (b : Bytes) (h : Header), header.value b = .ok h →
      h.command.Checked ∧ 24 ≤ b.length ∧ h.encode = b.take 24) ∧
    (∀ field : Octets 12,
      ((∃ c, Command.ofField field = .ok c) ↔
        ∃ name : Bytes, name.length ≤ 12 ∧ (∀ b ∈ name, 0x20 ≤ b ∧ b ≤ 0x7E) ∧
          field.bytes = name ++ List.replicate (12 - name.length) 0) ∧
      ∀ c, Command.ofField field = .ok c → Command.ofName c.text = .ok c ∧ c.field = field) ∧
    (∀ name c, Command.ofName name = .ok c → Command.ofField c.field = .ok c ∧ c.text = name) ∧
    (∀ c d : Command, (c = d ↔ c.field = d.field ∧ c.name.length = d.name.length) ∧
      (c.Checked → d.Checked → (c = d ↔ c.text = d.text))) ∧
    ∀ (s : Session) (c : Command) (payload : Bytes), c.Checked → s.interpret c payload =
      if c.text = "version" then s.handleVersion payload
      else if c.text = "verack" then .ok { session := s, notices := [.verackReceived s.peer] }
      else if c.text = "ping" then s.handlePing payload
      else if c.text = "addr" then s.handleAddresses payload
      else .ok { session := s, notices := [.ignored c s.peer] } := by
  refine ⟨fun h hchecked suffix => ?_, fun b h hvalue => value_header_eq_ok.1 hvalue,
    fun field => ⟨Command.exists_ofField_iff, fun c hc => ?_⟩, fun name c hc => ?_,
    fun c d => ⟨Command.eq_iff_field_eq, Command.eq_iff_text⟩,
    fun s c payload hc => s.interpret_text payload hc⟩
  · rw [value, run_header_eq_ok.2 ⟨hchecked, rfl⟩]
  · exact ⟨Command.ofName_text (.inr ⟨field, hc⟩), (Command.ofField_eq_ok.1 hc).2⟩
  · exact ⟨Command.ofField_field (Command.ofName_eq_ok.1 hc).1, Command.text_of_ofName hc⟩

/-- A command that fills its field, and another one that is known. -/
theorem header_codec_full_field :
    let c : Command := ⟨[0x61, 0x62, 0x63, 0x64, 0x65, 0x66, 0x67, 0x68, 0x69, 0x6A, 0x6B, 0x6C],
      by decide⟩
    let h : Header := {
      magic := Network.bitcoin.magic, command := c, payloadLength := 5, checksum := Octets.zero 4 }
    Command.ofName "abcdefghijkl" = .ok c ∧ header.value (h.encode ++ [7]) = .ok h ∧
      (h.encode ++ [7]).take 24 = h.encode ∧ Command.ofField c.field = .ok c ∧
      Command.ofName c.text = .ok c ∧ c ≠ Command.ping := by
  intro c h
  have hname : Command.ofName "abcdefghijkl" = .ok c := by decide +kernel
  have hping : Command.ofName "ping" = .ok Command.ping := rfl
  obtain ⟨hread, hwritten, hfield, hback, hequal, -⟩ := header_codec
  have hvalue := hread h (.inl ⟨_, hname⟩) [7]
  obtain ⟨hc, htext⟩ := hback _ _ hname
  refine ⟨hname, hvalue, (hwritten _ _ hvalue).2.2.symm, hc, ((hfield c.field).2 c hc).1, ?_⟩
  rw [Ne, (hequal c Command.ping).2 (.inl ⟨_, hname⟩) (.inl ⟨_, hping⟩), htext,
    (hback _ _ hping).2]
  decide

end Reader

end PeerCrawl
