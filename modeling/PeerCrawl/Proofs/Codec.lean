import Mathlib.Tactic.SplitIfs
import PeerCrawl.Proofs.Utf8
import PeerCrawl.Wire.Header
import PeerCrawl.Wire.VersionMessage

set_option autoImplicit false

/-! # What is written can be read

`Reader.Takes r b a` says that `r` takes exactly the bytes `b` from the front, whatever follows
them, and gives `a`. Readers that are put together take the bytes of their parts, one part after the
other (`Reader.Takes.bind`), so each reader takes what the writer of the same shape has written:
words, compact sizes, texts, address records, version messages and headers. -/

namespace PeerCrawl

namespace Bytes

/-! ## Numbers in fields -/

/-- Reading back a written number keeps what fits into the field. -/
theorem ofLittleEndian_littleEndian_mod (width n : Nat) :
    ofLittleEndian (littleEndian width n) = n % 256 ^ width := by
  induction width generalizing n with
  | zero => simp [littleEndian, ofLittleEndian, Nat.mod_one]
  | succ width ih =>
    have hbyte : (UInt8.ofNat n).toNat = n % 256 := by simp
    rw [littleEndian, ofLittleEndian, ih, hbyte, Nat.pow_succ, Nat.mul_comm (256 ^ width) 256,
      Nat.mod_mul]

theorem ofLittleEndian_littleEndian {width n : Nat} (h : n < 256 ^ width) :
    ofLittleEndian (littleEndian width n) = n := by
  rw [ofLittleEndian_littleEndian_mod, Nat.mod_eq_of_lt h]

theorem ofLittleEndian_lt (b : Bytes) : ofLittleEndian b < 256 ^ b.length := by
  induction b with
  | nil => simp [ofLittleEndian]
  | cons x rest ih =>
    have hx : x.toNat < 256 := x.toNat_lt
    simp only [ofLittleEndian, List.length_cons, Nat.pow_succ]
    omega

theorem ofBigEndian_bigEndian {width n : Nat} (h : n < 256 ^ width) :
    ofBigEndian (bigEndian width n) = n := by
  simp [ofBigEndian, bigEndian, ofLittleEndian_littleEndian h]

end Bytes

/-! ## Forms of a compact size -/

namespace Wire

/-- The wider forms of a number: the marker, the width of the field behind it, and the least number
that takes this form. -/
inductive Extension : UInt8 → Nat → Nat → Prop
  | two : Extension 0xFD 2 0xFD
  | four : Extension 0xFE 4 0x10000
  | eight : Extension 0xFF 8 0x100000000

variable {marker : UInt8} {width minimum n : Nat}

theorem Extension.lt_two_pow (h : Extension marker width minimum) (hn : n < 256 ^ width) :
    n < 2 ^ 64 := by
  cases h <;> omega

/-- The compact size of a number, by the range that it is in. -/
theorem compactSize_ofNat (h : n < 2 ^ 64) : compactSize (UInt64.ofNat n) =
    if n < 0xFD then [UInt8.ofNat n]
    else if n < 0x10000 then 0xFD :: Bytes.littleEndian 2 n
    else if n < 0x100000000 then 0xFE :: Bytes.littleEndian 4 n
    else 0xFF :: Bytes.littleEndian 8 n := by
  have hback : (UInt64.ofNat n).toNat = n := UInt64.toNat_ofNat_of_lt' h
  simp only [compactSize, UInt64.lt_iff_toNat_lt, UInt64.le_iff_toNat_le, hback,
    UInt64.reduceToNat, u16le, u32le, u64le, UInt64.toNat_toUInt16, UInt64.toNat_toUInt32]
  by_cases hone : n < 0xFD
  · rw [if_pos hone, if_pos hone, UInt64.toUInt8_ofNat']
  rw [if_neg hone, if_neg hone]
  by_cases htwo : n < 0x10000
  · rw [if_pos (Nat.le_of_lt_succ htwo), if_pos htwo, Nat.mod_eq_of_lt htwo]
  rw [if_neg (mt Nat.lt_succ_of_le htwo), if_neg htwo]
  by_cases hfour : n < 0x100000000
  · rw [if_pos (Nat.le_of_lt_succ hfour), if_pos hfour, Nat.mod_eq_of_lt hfour]
  rw [if_neg (mt Nat.lt_succ_of_le hfour), if_neg hfour]

/-- A number takes the form whose range it is in. -/
theorem Extension.compactSize_eq (h : Extension marker width minimum) (hmin : minimum ≤ n)
    (hn : n < 256 ^ width) :
    compactSize (UInt64.ofNat n) = marker :: Bytes.littleEndian width n := by
  rw [compactSize_ofNat (h.lt_two_pow hn)]
  cases h with
  | two => rw [if_neg (Nat.not_lt.2 hmin), if_pos (show n < 0x10000 from hn)]
  | four =>
    rw [if_neg (Nat.not_lt.2 (Nat.le_trans (by decide) hmin)), if_neg (Nat.not_lt.2 hmin),
      if_pos (show n < 0x100000000 from hn)]
  | eight =>
    rw [if_neg (Nat.not_lt.2 (Nat.le_trans (by decide) hmin)),
      if_neg (Nat.not_lt.2 (Nat.le_trans (by decide) hmin)), if_neg (Nat.not_lt.2 hmin)]

/-- A number that is not its own first byte is in the range of one form. -/
theorem exists_extension (h : 0xFD ≤ n) (hn : n < 2 ^ 64) :
    ∃ marker width minimum, Extension marker width minimum ∧ minimum ≤ n ∧ n < 256 ^ width := by
  by_cases htwo : n < 0x10000
  · exact ⟨_, _, _, .two, h, htwo⟩
  by_cases hfour : n < 0x100000000
  · exact ⟨_, _, _, .four, Nat.le_of_not_lt htwo, hfour⟩
  · exact ⟨_, _, _, .eight, Nat.le_of_not_lt hfour, hn⟩

end Wire

/-! ## Readers -/

namespace Reader

variable {α β : Type}

/-- The reader takes exactly these bytes, whatever follows, and gives the value. -/
def Takes (r : Reader α) (b : Bytes) (a : α) : Prop := ∀ rest, r.run (b ++ rest) = (.ok a, rest)

namespace Takes

theorem pure (a : α) : Takes (pure a : Reader α) [] a := fun _ => rfl

theorem bind {r : Reader α} {next : α → Reader β} {b₁ b₂ : Bytes} {a : α} {c : β}
    (h₁ : r.Takes b₁ a) (h₂ : (next a).Takes b₂ c) : (r >>= next).Takes (b₁ ++ b₂) c := by
  intro rest
  rw [List.append_assoc, run_bind_of_ok (h₁ (b₂ ++ rest)), h₂ rest]

/-- A step that reads nothing more. -/
theorem bind_nil {r : Reader α} {next : α → Reader β} {b : Bytes} {a : α} {c : β}
    (h₁ : r.Takes b a) (h₂ : (next a).Takes [] c) : (r >>= next).Takes b c := by
  have h := h₁.bind h₂
  rwa [List.append_nil] at h

/-- The last step of a reader, which reads nothing more. -/
theorem bind_pure {r : Reader α} {b : Bytes} {a : α} (h : r.Takes b a) (f : α → β) :
    Takes (r >>= fun a => Pure.pure (f a)) b (f a) := by
  intro rest
  rw [run_bind_of_ok (h rest), run_pure]

theorem value {r : Reader α} {b : Bytes} {a : α} (h : r.Takes b a) : r.value b = .ok a := by
  have hrun := h []
  rw [List.append_nil] at hrun
  rw [Reader.value, hrun]

end Takes

theorem run_bind_eq_ok {r : Reader α} {next : α → Reader β} {b rest : Bytes} {c : β}
    (h : (r >>= next).run b = (.ok c, rest)) :
    ∃ a mid, r.run b = (.ok a, mid) ∧ (next a).run mid = (.ok c, rest) := by
  rw [run_bind] at h
  rcases hr : r.run b with ⟨_ | a, mid⟩
  · rw [hr] at h
    exact absurd h (by simp)
  · rw [hr] at h
    exact ⟨a, mid, rfl, h⟩

theorem value_bind_eq_ok {r : Reader α} {next : α → Reader β} {b : Bytes} {c : β}
    (h : (r >>= next).value b = .ok c) :
    ∃ a mid, r.run b = (.ok a, mid) ∧ (next a).value mid = .ok c := by
  have hrun : (r >>= next).run b = (.ok c, ((r >>= next).run b).2) := Prod.ext h rfl
  obtain ⟨a, mid, hr, hn⟩ := run_bind_eq_ok hrun
  exact ⟨a, mid, hr, congrArg Prod.fst hn⟩

/-! ## Words -/

/-- A read of a fixed width takes its bytes or moves nothing. -/
theorem run_take (n : Nat) (b : Bytes) : (take n).run b =
    if n ≤ b.length then (.ok (b.take n), b.drop n)
    else (.error (.unexpectedEnd n b.length), b) := by
  by_cases h : n ≤ b.length
  · have hlen : (b.take n).length = n := by rw [List.length_take, Nat.min_eq_left h]
    rw [if_pos h, take, run_bind, run, octets, dif_pos hlen]
    rfl
  · rw [if_neg h, take, run_bind_of_error (run_octets_short (Nat.lt_of_not_le h))]

theorem run_littleEndian (width : Nat) (b : Bytes) : (littleEndian width).run b =
    if width ≤ b.length then (.ok (Bytes.ofLittleEndian (b.take width)), b.drop width)
    else (.error (.unexpectedEnd width b.length), b) := by
  rw [littleEndian, run_bind, run_take]
  by_cases h : width ≤ b.length
  · rw [if_pos h, if_pos h]
    rfl
  · rw [if_neg h, if_neg h]

theorem run_littleEndian_eq_ok {width n : Nat} {b rest : Bytes}
    (h : (littleEndian width).run b = (.ok n, rest)) :
    width ≤ b.length ∧ n = Bytes.ofLittleEndian (b.take width) ∧ rest = b.drop width := by
  rw [run_littleEndian] at h
  split_ifs at h with hlen
  · simp only [Prod.mk.injEq, Except.ok.injEq] at h
    exact ⟨hlen, h.1.symm, h.2.symm⟩
  · exact absurd h (by simp)

theorem octets_takes {n : Nat} (o : Octets n) : (octets n).Takes o.bytes o := run_octets_append o

theorem take_takes (b : Bytes) : (take b.length).Takes b b :=
  (octets_takes ⟨b, rfl⟩).bind_pure Octets.bytes

theorem littleEndian_takes {width n : Nat} (h : n < 256 ^ width) :
    (littleEndian width).Takes (Bytes.littleEndian width n) n := by
  have htake := take_takes (Bytes.littleEndian width n)
  rw [Bytes.length_littleEndian] at htake
  have hread := htake.bind_pure Bytes.ofLittleEndian
  rwa [Bytes.ofLittleEndian_littleEndian h] at hread

theorem bigEndian_takes {width n : Nat} (h : n < 256 ^ width) :
    (bigEndian width).Takes (Bytes.bigEndian width n) n := by
  have htake := take_takes (Bytes.bigEndian width n)
  rw [Bytes.length_bigEndian] at htake
  have hread := htake.bind_pure Bytes.ofBigEndian
  rwa [Bytes.ofBigEndian_bigEndian h] at hread

theorem u8_takes (n : UInt8) : u8.Takes [n] n := by
  have hbyte : Bytes.littleEndian 1 n.toNat = [n] := by
    rw [Bytes.littleEndian, Bytes.littleEndian, UInt8.ofNat_toNat]
  have hread := (littleEndian_takes (show n.toNat < 256 ^ 1 from n.toNat_lt)).bind_pure UInt8.ofNat
  rwa [hbyte, UInt8.ofNat_toNat] at hread

theorem run_u8_cons (n : UInt8) (tail : Bytes) : u8.run (n :: tail) = (.ok n, tail) :=
  u8_takes n tail

theorem u16be_takes (n : UInt16) : u16be.Takes (Wire.u16be n) n := by
  have hread :=
    (bigEndian_takes (show n.toNat < 256 ^ 2 from n.toNat_lt)).bind_pure UInt16.ofNat
  rwa [UInt16.ofNat_toNat] at hread

theorem u32le_takes (n : UInt32) : u32le.Takes (Wire.u32le n) n := by
  have hread :=
    (littleEndian_takes (show n.toNat < 256 ^ 4 from n.toNat_lt)).bind_pure UInt32.ofNat
  rwa [UInt32.ofNat_toNat] at hread

theorem u64le_takes (n : UInt64) : u64le.Takes (Wire.u64le n) n := by
  have hread :=
    (littleEndian_takes (show n.toNat < 256 ^ 8 from n.toNat_lt)).bind_pure UInt64.ofNat
  rwa [UInt64.ofNat_toNat] at hread

theorem i64le_takes (n : Int64) : i64le.Takes (Wire.i64le n) n :=
  (u64le_takes n.toUInt64).bind_pure UInt64.toInt64

theorem bool_takes (b : Bool) : bool.Takes (Wire.bool b) b := by
  cases b
  · exact (u8_takes 0).bind_pure (· != 0)
  · exact (u8_takes 1).bind_pure (· != 0)

/-! ## Compact sizes and texts -/

theorem extended_takes {width minimum n : Nat} (hmin : minimum ≤ n) (h : n < 256 ^ width) :
    (extended width minimum).Takes (Bytes.littleEndian width n) (UInt64.ofNat n) := by
  refine (littleEndian_takes h).bind_nil ?_
  rw [if_neg (Nat.not_lt.2 hmin)]
  exact Takes.pure _

section CompactSize

variable {marker : UInt8} {width minimum : Nat}

theorem run_compactSize_of_lt {first : UInt8} (h : first.toNat < 0xFD) (tail : Bytes) :
    compactSize.run (first :: tail) = (.ok first.toUInt64, tail) := by
  have hne : ∀ m : UInt8, 0xFD ≤ m.toNat → first ≠ m := by
    rintro m hm rfl
    exact absurd h (Nat.not_lt.2 hm)
  rw [compactSize, run_bind_of_ok (run_u8_cons first tail), if_neg (hne _ (by decide)),
    if_neg (hne _ (by decide)), if_neg (hne _ (by decide)), run_pure]

theorem run_compactSize_of_extension (h : Wire.Extension marker width minimum) (tail : Bytes) :
    compactSize.run (marker :: tail) = (extended width minimum).run tail := by
  rw [compactSize, run_bind_of_ok (run_u8_cons marker tail)]
  cases h <;> rfl

theorem compactSize_takes (n : UInt64) : compactSize.Takes (Wire.compactSize n) n := by
  intro rest
  have hn := n.toNat_lt
  have hback : UInt64.ofNat n.toNat = n := UInt64.ofNat_toNat
  by_cases hsmall : n.toNat < 0xFD
  · have hbyte : (UInt8.ofNat n.toNat).toNat = n.toNat :=
      UInt8.toNat_ofNat_of_lt' (Nat.lt_trans hsmall (by decide))
    have hwritten := Wire.compactSize_ofNat hn
    rw [if_pos hsmall, hback] at hwritten
    rw [hwritten, List.singleton_append, run_compactSize_of_lt (hbyte.trans_lt hsmall),
      ← UInt64.ofNat_uInt8ToNat, hbyte, hback]
  · obtain ⟨marker, width, minimum, hform, hmin, hlt⟩ :=
      Wire.exists_extension (Nat.le_of_not_lt hsmall) hn
    have hwritten := hform.compactSize_eq hmin hlt
    have hread := extended_takes hmin hlt rest
    rw [hback] at hwritten hread
    rw [hwritten, List.cons_append, run_compactSize_of_extension hform, hread]

end CompactSize

theorem run_remaining (b : Bytes) : remaining.run b = (.ok b.length, b) := rfl

/-- The length of a text has to fit into the largest compact size. -/
theorem sizedText_takes {s : String} (h : (Utf8.encode s).length < 2 ^ 64) :
    sizedText.Takes (Wire.sizedText s) s := by
  have hsize : (UInt64.ofNat (Utf8.encode s).length).toNat = (Utf8.encode s).length :=
    UInt64.toNat_ofNat_of_lt' h
  have htext := take_takes (Utf8.encode s)
  intro rest
  have hleft : ¬ (Utf8.encode s ++ rest).length < (Utf8.encode s).length := by
    rw [List.length_append]
    omega
  rw [Wire.sizedText, List.append_assoc, sizedText,
    run_bind_of_ok (compactSize_takes _ (Utf8.encode s ++ rest)),
    run_bind_of_ok (run_remaining _), hsize, if_neg hleft, run_bind_of_ok (htext rest),
    Utf8.decodeLossy_encode, run_pure]

end Reader

/-! ## Address records -/

/-- What a record of an encoding keeps of an address. -/
def Address.recorded (a : Address) (e : AddressEncoding) : Address where
  raw := a.raw
  port := a.port
  services := some a.servicesOrNone
  time := if e.includesTime then some (a.time.getD Wire.defaultAddressTime) else none

namespace Reader

/-- What is read of a record after its time. -/
def recordAfter (time : Option UInt32) : Reader Address := do
  let services ← u64le
  let raw ← octets 16
  let port ← u16be
  return { raw, port, services := some ⟨services⟩, time }

theorem addressRecord_eq (e : AddressEncoding) : addressRecord e =
    if e.includesTime = true then (u32le >>= fun time => pure (some time)) >>= recordAfter
    else recordAfter none := by
  unfold addressRecord
  split <;> rfl

theorem addressRecord_takes (a : Address) (e : AddressEncoding) :
    (addressRecord e).Takes (Wire.addressRecord a e) (a.recorded e) := by
  have hrest : ∀ time : Option UInt32, (recordAfter time).Takes
      (Wire.u64le a.servicesOrNone.bits ++ (a.raw.bytes ++ Wire.u16be a.port))
      { raw := a.raw, port := a.port, services := some a.servicesOrNone, time } := fun time =>
    (u64le_takes _).bind ((octets_takes a.raw).bind ((u16be_takes a.port).bind_pure _))
  rw [addressRecord_eq]
  simp only [Wire.addressRecord, Address.recorded, List.append_assoc]
  by_cases h : e.includesTime = true
  · rw [if_pos h, if_pos h, if_pos h]
    exact ((u32le_takes _).bind_pure some).bind (hrest _)
  · rw [if_neg h, if_neg h, if_neg h, List.nil_append]
    exact hrest none

end Reader

/-! ## Version messages -/

/-- What a stream of a protocol version carries of a version message: the fields that it does not
have are zero. -/
def VersionMessage.carried (m : VersionMessage) (stream : ProtocolVersion) : VersionMessage :=
  let records := AddressEncoding.handshake stream
  let more : VersionExtension :=
    if ProtocolVersion.extendedVersionMessage ≤ stream then
      { receiver := m.receiver.recorded records, nonce := m.nonce, userAgent := m.userAgent
        startHeight := m.startHeight }
    else {}
  { m with
    sender := m.sender.recorded records
    receiver := more.receiver
    nonce := more.nonce
    userAgent := more.userAgent
    startHeight := more.startHeight
    relay := if ProtocolVersion.relay ≤ stream then m.relay else false }

namespace Reader

/-- The end of a version message, once everything before it was read. -/
def relayed (stream : ProtocolVersion) (message : Bool → VersionMessage) : Reader VersionMessage :=
  if ProtocolVersion.relay ≤ stream then bool >>= fun relay => pure (message relay)
  else pure (message false)

/-- With and without the fields from 106 on, a version message ends in the same way. -/
theorem versionMessage_eq (stream : ProtocolVersion) : versionMessage stream =
    (versionPeek >>= fun (version, services) => i64le >>= fun timestamp =>
      addressRecord (.handshake stream) >>= fun sender =>
        let message (more : VersionExtension) (relay : Bool) : VersionMessage := {
          version, services, timestamp, sender, receiver := more.receiver, nonce := more.nonce
          userAgent := more.userAgent, startHeight := more.startHeight, relay }
        if ProtocolVersion.extendedVersionMessage ≤ stream then
          versionExtension (.handshake stream) >>= fun more => relayed stream (message more)
        else relayed stream (message {})) := by
  unfold versionMessage relayed
  rfl

/-- The end of a version message is its relay flag or nothing. -/
theorem value_relayed_eq_ok {stream : ProtocolVersion} {message : Bool → VersionMessage}
    {b : Bytes} {d : VersionMessage} (h : (relayed stream message).value b = .ok d) :
    ∃ relay, d = message relay := by
  unfold relayed at h
  split at h
  · obtain ⟨relay, mid, -, hpure⟩ := value_bind_eq_ok h
    exact ⟨relay, (Except.ok.inj hpure).symm⟩
  · exact ⟨false, (Except.ok.inj h).symm⟩

/-- A version message starts with the version and the services that it declares. -/
theorem versionPeek_of_versionMessage {stream : ProtocolVersion} {b : Bytes} {d : VersionMessage}
    (h : (versionMessage stream).value b = .ok d) :
    versionPeek.value b = .ok (d.version, d.services) := by
  rw [versionMessage_eq] at h
  obtain ⟨⟨version, services⟩, mid, hpeek, hrest⟩ := value_bind_eq_ok h
  obtain ⟨timestamp, mid, -, hrest⟩ := value_bind_eq_ok hrest
  obtain ⟨sender, mid, -, hrest⟩ := value_bind_eq_ok hrest
  -- whichever fields follow, the first two are in the message as they were read
  dsimp only at hrest
  split at hrest
  · obtain ⟨more, mid, -, hrest⟩ := value_bind_eq_ok hrest
    obtain ⟨relay, rfl⟩ := value_relayed_eq_ok hrest
    rw [value, hpeek]
  · obtain ⟨relay, rfl⟩ := value_relayed_eq_ok hrest
    rw [value, hpeek]

theorem versionPeek_takes (version : ProtocolVersion) (services : Services) :
    versionPeek.Takes (Wire.u32le version ++ Wire.u64le services.bits) (version, services) :=
  (u32le_takes version).bind ((u64le_takes services.bits).bind_pure _)

theorem versionExtension_takes (receiver : Address) (nonce : UInt64) {userAgent : String}
    (startHeight : UInt32) (records : AddressEncoding)
    (h : (Utf8.encode userAgent).length < 2 ^ 64) :
    (versionExtension records).Takes
      (Wire.addressRecord receiver records ++
        (Wire.u64le nonce ++ (Wire.sizedText userAgent ++ Wire.u32le startHeight)))
      { receiver := receiver.recorded records, nonce, userAgent, startHeight } :=
  (addressRecord_takes receiver records).bind ((u64le_takes nonce).bind
    ((sizedText_takes h).bind ((u32le_takes startHeight).bind_pure _)))

theorem relayed_takes (stream : ProtocolVersion) (message : Bool → VersionMessage) (relay : Bool) :
    (relayed stream message).Takes (if ProtocolVersion.relay ≤ stream then Wire.bool relay else [])
      (message (if ProtocolVersion.relay ≤ stream then relay else false)) := by
  unfold relayed
  by_cases hr : ProtocolVersion.relay ≤ stream
  · rw [if_pos hr, if_pos hr, if_pos hr]
    exact (bool_takes relay).bind_pure message
  · rw [if_neg hr, if_neg hr, if_neg hr]
    exact .pure _

theorem versionMessage_takes (m : VersionMessage) (stream : ProtocolVersion)
    (h : ProtocolVersion.extendedVersionMessage ≤ stream →
      (Utf8.encode m.userAgent).length < 2 ^ 64) :
    (versionMessage stream).Takes (m.encode stream) (m.carried stream) := by
  rw [versionMessage_eq]
  simp only [VersionMessage.encode, VersionMessage.carried, List.append_assoc]
  rw [← List.append_assoc (Wire.u32le m.version)]
  refine (versionPeek_takes m.version m.services).bind ((i64le_takes m.timestamp).bind
    ((addressRecord_takes m.sender _).bind ?_))
  by_cases he : ProtocolVersion.extendedVersionMessage ≤ stream
  · simp only [if_pos he]
    exact (versionExtension_takes m.receiver m.nonce m.startHeight _ (h he)).bind
      (relayed_takes stream _ m.relay)
  · simp only [if_neg he]
    exact relayed_takes stream _ m.relay

end Reader

/-! ## Commands and headers -/

namespace Command

theorem isPrintable_ne_zero {b : UInt8} (h : isPrintable b = true) : b ≠ 0 := by
  rintro rfl
  exact absurd h (by decide)

/-- A printable name comes back from its field. -/
theorem ofField_field {c : Command} (h : c.name.all isPrintable = true) :
    ofField c.field = .ok c := by
  have hne : ∀ b ∈ c.name, decide (b ≠ 0) = true := by
    intro b hb
    exact decide_eq_true (isPrintable_ne_zero (List.all_eq_true.1 h b hb))
  have hpad : ∀ n, (List.replicate n (0 : UInt8)).takeWhile (· ≠ 0) = [] ∧
      (List.replicate n (0 : UInt8)).dropWhile (· ≠ 0) = List.replicate n 0 := by
    intro n
    cases n <;> simp [List.replicate_succ]
  have hname : c.field.bytes.takeWhile (· ≠ 0) = c.name := by
    rw [field, List.takeWhile_append_of_pos hne, (hpad _).1, List.append_nil]
  have hrest : c.field.bytes.dropWhile (· ≠ 0) =
      List.replicate (Wire.commandWidth - c.name.length) 0 := by
    rw [field, List.dropWhile_append_of_pos hne, (hpad _).2]
  have hok : (c.field.bytes.takeWhile (· ≠ 0)).all isPrintable ∧
      (c.field.bytes.dropWhile (· ≠ 0)).all (· == 0) := by
    rw [hname, hrest]
    exact ⟨h, by simp⟩
  simp only [ofField]
  rw [if_pos hok]
  simp only [hname]

theorem isPrintable_of_ofName {name : String} {c : Command} (h : ofName name = .ok c) :
    c.name.all isPrintable = true := by
  simp only [ofName] at h
  split_ifs at h with hlen hall
  simp only [Except.ok.injEq] at h
  rw [← h]
  exact hall

end Command

namespace Reader

theorem command_takes {c : Command} (h : c.name.all Command.isPrintable = true) :
    command.Takes c.field.bytes c := by
  refine (octets_takes c.field).bind_nil ?_
  rw [Command.ofField_field h]
  exact Takes.pure c

theorem header_takes {h : Header} (hc : h.command.name.all Command.isPrintable = true) :
    header.Takes h.encode h := by
  simp only [Header.encode, List.append_assoc]
  exact (octets_takes h.magic).bind ((command_takes hc).bind ((u32le_takes h.payloadLength).bind
    ((octets_takes h.checksum).bind_pure _)))

end Reader

end PeerCrawl
