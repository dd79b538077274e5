import PeerCrawl.Proofs.CompactSizes

set_option autoImplicit false

/-! # What a read comes to

A `Read` is one of the reads that decoders are made of. `Read.Spells` says which bytes it takes for
a value, and `Read.Fails` which bytes are gone when it fails: a read of a fixed width takes nothing
then, but a compact size may be gone in part or as a whole, and so is the size of a text that does
not follow it. Whatever the bytes are, one of the two describes what the read makes of them
(`Read.run_eq_ok`, `Read.run_eq_error`). -/

namespace PeerCrawl

/-- A read, by what it gives. -/
inductive Read : Type → Type where
  | take (n : Nat) : Read Bytes
  | array (n : Nat) : Read (Octets n)
  | u8 : Read UInt8
  | bool : Read Bool
  | u16le : Read UInt16
  | u16be : Read UInt16
  | u32le : Read UInt32
  | u64le : Read UInt64
  | i64le : Read Int64
  | compactSize : Read UInt64
  | sizedText : Read String

namespace Read

def reader : {α : Type} → Read α → Reader α
  | _, take n => Reader.take n
  | _, array n => Reader.octets n
  | _, u8 => Reader.u8
  | _, bool => Reader.bool
  | _, u16le => Reader.u16le
  | _, u16be => Reader.u16be
  | _, u32le => Reader.u32le
  | _, u64le => Reader.u64le
  | _, i64le => Reader.i64le
  | _, compactSize => Reader.compactSize
  | _, sizedText => Reader.sizedText

/-- The bytes are what the read takes for the value. -/
def Spells : {α : Type} → Read α → α → Bytes → Prop
  | _, take n, field, front => front = field ∧ field.length = n
  | _, array _, o, front => front = o.bytes
  | _, u8, n, front => front = [n]
  | _, bool, flag, front => ∃ n : UInt8, front = [n] ∧ flag = (n != 0)
  | _, u16le, n, front => front = Wire.u16le n
  | _, u16be, n, front => front = Wire.u16be n
  | _, u32le, n, front => front = Wire.u32le n
  | _, u64le, n, front => front = Wire.u64le n
  | _, i64le, n, front => front = Wire.i64le n
  | _, compactSize, n, front => front = Wire.compactSize n
  | _, sizedText, s, front => ∃ (size : UInt64) (utf8 : Bytes),
      front = Wire.compactSize size ++ utf8 ∧ utf8.length = size.toNat ∧ s = Utf8.decodeLossy utf8

/-- With fewer bytes than a field has, nothing is taken. -/
def Cut (width : Nat) (front rest : Bytes) (e : WireError) : Prop :=
  front = [] ∧ rest.length < width ∧ e = .unexpectedEnd width rest.length

/-- How a compact size fails: what is gone, what is left, and why. -/
inductive SizeFault : (front rest : Bytes) → WireError → Prop
  | nothing : SizeFault [] [] (.unexpectedEnd 1 0)
  | cut {marker : UInt8} {width minimum : Nat} {rest : Bytes}
      (h : Wire.Extension marker width minimum) (hshort : rest.length < width) :
      SizeFault [marker] rest (.unexpectedEnd width rest.length)
  | overlong {marker : UInt8} {width minimum : Nat} {field rest : Bytes}
      (h : Wire.Extension marker width minimum) (hlen : field.length = width)
      (hwide : (Wire.compactSize (UInt64.ofNat (Bytes.ofLittleEndian field))).length < 1 + width) :
      SizeFault (marker :: field) rest (.nonCanonicalVarInt (Bytes.ofLittleEndian field))

/-- The read fails when these bytes are gone and those are left. -/
def Fails : {α : Type} → Read α → (front rest : Bytes) → WireError → Prop
  | _, take n | _, array n => Cut n
  | _, u8 | _, bool => Cut 1
  | _, u16le | _, u16be => Cut 2
  | _, u32le => Cut 4
  | _, u64le | _, i64le => Cut 8
  | _, compactSize => SizeFault
  | _, sizedText => fun front rest e => SizeFault front rest e ∨
      ∃ size : UInt64, front = Wire.compactSize size ∧ rest.length < size.toNat ∧
        e = .unexpectedEnd size.toNat rest.length

end Read

namespace Reader

variable {α β : Type} {r : Reader α} {width : Nat} {b rest : Bytes}

/-! ## Fixed widths -/

/-- A reader of a fixed width takes its bytes or moves nothing. -/
structure FixedWidth (width : Nat) (r : Reader α) : Prop where
  short : ∀ b, b.length < width → r.run b = (.error (.unexpectedEnd width b.length), b)
  long : ∀ b, width ≤ b.length → ∃ a, r.run b = (.ok a, b.drop width)

theorem FixedWidth.bind_pure (h : r.FixedWidth width) (f : α → β) :
    FixedWidth width (r >>= fun a => Pure.pure (f a)) where
  short b hb := run_bind_of_error (h.short b hb) _
  long b hb := by
    obtain ⟨a, hrun⟩ := h.long b hb
    exact ⟨f a, run_bind_of_ok hrun _⟩

theorem FixedWidth.run_eq_error (h : r.FixedWidth width) {e : WireError} :
    r.run b = (.error e, rest) ↔ ∃ front, b = front ++ rest ∧ Read.Cut width front rest e := by
  constructor
  · intro hrun
    rcases Nat.lt_or_ge b.length width with hshort | hlong
    · rw [h.short b hshort, Prod.mk.injEq, Except.error.injEq] at hrun
      obtain ⟨rfl, rfl⟩ := hrun
      exact ⟨[], rfl, rfl, hshort, rfl⟩
    · obtain ⟨a, hok⟩ := h.long b hlong
      rw [hok] at hrun
      exact absurd hrun (by simp)
  · rintro ⟨front, rfl, rfl, hshort, rfl⟩
    exact h.short rest hshort

theorem octets_fixedWidth (n : Nat) : (octets n).FixedWidth n where
  short _ hb := run_octets_short hb
  long b hb := by
    have hlen : (b.take n).length = n := by rw [List.length_take, Nat.min_eq_left hb]
    refine ⟨⟨b.take n, hlen⟩, ?_⟩
    rw [run, octets, dif_pos hlen]

theorem take_fixedWidth (n : Nat) : (take n).FixedWidth n := (octets_fixedWidth n).bind_pure _

theorem littleEndian_fixedWidth (width : Nat) : (littleEndian width).FixedWidth width :=
  (take_fixedWidth width).bind_pure _

theorem u8_fixedWidth : u8.FixedWidth 1 := (littleEndian_fixedWidth 1).bind_pure _

theorem bool_fixedWidth : bool.FixedWidth 1 := u8_fixedWidth.bind_pure _

theorem u16le_fixedWidth : u16le.FixedWidth 2 := (littleEndian_fixedWidth 2).bind_pure _

theorem u16be_fixedWidth : u16be.FixedWidth 2 := ((take_fixedWidth 2).bind_pure _).bind_pure _

theorem u32le_fixedWidth : u32le.FixedWidth 4 := (littleEndian_fixedWidth 4).bind_pure _

theorem u64le_fixedWidth : u64le.FixedWidth 8 := (littleEndian_fixedWidth 8).bind_pure _

theorem i64le_fixedWidth : i64le.FixedWidth 8 := u64le_fixedWidth.bind_pure _

/-! ## Words as they are written -/

theorem u8_undoes : u8.Undoes fun n => [n] :=
  (littleEndian_undoes 1).bind_pure fun _ n _ _ => by simp only [Bytes.littleEndian]

theorem u16le_takes (n : UInt16) : u16le.Takes (Wire.u16le n) n := by
  have hread :=
    (littleEndian_takes (show n.toNat < 256 ^ 2 from n.toNat_lt)).bind_pure UInt16.ofNat
  rwa [UInt16.ofNat_toNat] at hread

theorem u16le_undoes : u16le.Undoes Wire.u16le :=
  (littleEndian_undoes 2).bind_pure fun b n rest h => by
    rw [Wire.u16le, UInt16.toNat_ofNat_of_lt' (lt_of_run_littleEndian h)]

theorem i64le_undoes : i64le.Undoes Wire.i64le :=
  u64le_undoes.bind_pure fun b n rest h => by
    rw [Wire.i64le, UInt64.toUInt64_toInt64]

/-- A reader that undoes a writing which it takes reads just what is written. -/
theorem run_eq_ok_iff {write : α → Bytes} (htakes : ∀ a, r.Takes (write a) a)
    (hundoes : r.Undoes write) {a : α} :
    r.run b = (.ok a, rest) ↔ ∃ front, b = front ++ rest ∧ front = write a := by
  constructor
  · intro hrun
    exact ⟨write a, hundoes b a rest hrun, rfl⟩
  · rintro ⟨front, rfl, rfl⟩
    exact htakes a rest

theorem run_take_eq_ok {n : Nat} {field : Bytes} :
    (take n).run b = (.ok field, rest) ↔
      ∃ front, b = front ++ rest ∧ front = field ∧ field.length = n := by
  constructor
  · intro hrun
    exact ⟨field, take_undoes n b field rest hrun, rfl, length_of_run_take hrun⟩
  · rintro ⟨front, rfl, rfl, rfl⟩
    exact take_takes front rest

/-- Several bytes stand for true. -/
theorem run_bool_eq_ok {flag : Bool} :
    bool.run b = (.ok flag, rest) ↔
      ∃ front, b = front ++ rest ∧ ∃ n : UInt8, front = [n] ∧ flag = (n != 0) := by
  constructor
  · intro hrun
    obtain ⟨n, mid, hn, hpure⟩ := run_bind_eq_ok hrun
    rw [run_pure, Prod.mk.injEq, Except.ok.injEq] at hpure
    obtain ⟨rfl, rfl⟩ := hpure
    exact ⟨[n], u8_undoes b n mid hn, n, rfl, rfl⟩
  · rintro ⟨front, rfl, n, rfl, rfl⟩
    exact (u8_takes n).bind_pure (· != 0) rest

/-! ## Compact sizes -/

theorem run_extended (width minimum : Nat) (b : Bytes) : (extended width minimum).run b =
    if width ≤ b.length then
      if Bytes.ofLittleEndian (b.take width) < minimum then
        (.error (.nonCanonicalVarInt (Bytes.ofLittleEndian (b.take width))), b.drop width)
      else (.ok (UInt64.ofNat (Bytes.ofLittleEndian (b.take width))), b.drop width)
    else (.error (.unexpectedEnd width b.length), b) := by
  rw [extended, run_bind, run_littleEndian]
  by_cases hlong : width ≤ b.length
  · rw [if_pos hlong, if_pos hlong]
    dsimp only
    split <;> rfl
  · rw [if_neg hlong, if_neg hlong]

theorem run_compactSize_eq_error {e : WireError} :
    compactSize.run b = (.error e, rest) ↔
      ∃ front, b = front ++ rest ∧ Read.SizeFault front rest e := by
  constructor
  · intro hrun
    cases b with
    | nil =>
      obtain ⟨he, hrest⟩ := Prod.mk.inj hrun
      rw [← Except.error.inj he, ← hrest]
      exact ⟨[], rfl, .nothing⟩
    | cons first tail =>
      rcases Wire.lt_or_extension first with hsmall | ⟨width, minimum, hform⟩
      · rw [run_compactSize_of_lt hsmall] at hrun
        exact absurd hrun (by simp)
      · rw [run_compactSize_of_extension hform, run_extended] at hrun
        split_ifs at hrun with hlong hmin
        · -- the field is complete, but its number has a shorter form
          obtain ⟨he, hrest⟩ := Prod.mk.inj hrun
          have hlen : (tail.take width).length = width := by
            rw [List.length_take, Nat.min_eq_left hlong]
          have hlt := Bytes.ofLittleEndian_lt (tail.take width)
          rw [hlen] at hlt
          refine ⟨first :: tail.take width, ?_, ?_⟩
          · rw [← hrest, List.cons_append, List.take_append_drop]
          · rw [← Except.error.inj he]
            exact .overlong hform hlen ((hform.length_compactSize_lt hlt).2 hmin)
        · exact absurd hrun (by simp)
        · obtain ⟨he, hrest⟩ := Prod.mk.inj hrun
          rw [← Except.error.inj he, ← hrest]
          exact ⟨[first], rfl, .cut hform (Nat.lt_of_not_le hlong)⟩
  · rintro ⟨front, rfl, hfault⟩
    cases hfault with
    | nothing => rfl
    | cut hform hshort =>
      rw [List.singleton_append, run_compactSize_of_extension hform, run_extended,
        if_neg (Nat.not_le.2 hshort)]
    | @overlong _ _ _ field _ hform hlen hwide =>
      have hlt := Bytes.ofLittleEndian_lt field
      rw [hlen] at hlt
      rw [List.cons_append, run_compactSize_of_extension hform,
        run_extended_of_le hlen ((hform.length_compactSize_lt hlt).1 hwide)]

/-! ## Texts -/

/-- The bytes that a size announces, as a text. -/
theorem run_sizedText_of_size (size : UInt64) (tail : Bytes) :
    sizedText.run (Wire.compactSize size ++ tail) =
      if tail.length < size.toNat then (.error (.unexpectedEnd size.toNat tail.length), tail)
      else (.ok (Utf8.decodeLossy (tail.take size.toNat)), tail.drop size.toNat) := by
  rw [sizedText, run_bind_of_ok (compactSize_takes size tail), run_bind_of_ok (run_remaining tail)]
  split
  · rfl
  · next hlong =>
    rw [run_bind, run_take, if_pos (Nat.le_of_not_lt hlong)]
    rfl

theorem run_sizedText_eq_ok {s : String} :
    sizedText.run b = (.ok s, rest) ↔ ∃ front, b = front ++ rest ∧
      ∃ (size : UInt64) (utf8 : Bytes), front = Wire.compactSize size ++ utf8 ∧
        utf8.length = size.toNat ∧ s = Utf8.decodeLossy utf8 := by
  constructor
  · intro hrun
    obtain ⟨size, mid, hsize, -⟩ := run_bind_eq_ok hrun
    obtain rfl := compactSize_undoes b size mid hsize
    rw [run_sizedText_of_size] at hrun
    split_ifs at hrun with hshort
    · exact absurd hrun (by simp)
    · obtain ⟨hs, hrest⟩ := Prod.mk.inj hrun
      have hlen : (mid.take size.toNat).length = size.toNat := by
        rw [List.length_take, Nat.min_eq_left (Nat.le_of_not_lt hshort)]
      refine ⟨Wire.compactSize size ++ mid.take size.toNat, ?_, size, _, rfl, hlen,
        (Except.ok.inj hs).symm⟩
      rw [← hrest, List.append_assoc, List.take_append_drop]
  · rintro ⟨front, rfl, size, utf8, rfl, hlen, rfl⟩
    rw [List.append_assoc, run_sizedText_of_size, if_neg (by simp [hlen]), List.take_left' hlen,
      List.drop_left' hlen]

theorem run_sizedText_eq_error {e : WireError} :
    sizedText.run b = (.error e, rest) ↔
      ∃ front, b = front ++ rest ∧ Read.Fails .sizedText front rest e := by
  constructor
  · intro hrun
    rcases hsize : compactSize.run b with ⟨e' | size, mid⟩
    · rw [sizedText, run_bind_of_error hsize, Prod.mk.injEq, Except.error.injEq] at hrun
      obtain ⟨rfl, rfl⟩ := hrun
      obtain ⟨front, hb, hfault⟩ := run_compactSize_eq_error.1 hsize
      exact ⟨front, hb, .inl hfault⟩
    · obtain rfl := compactSize_undoes b size mid hsize
      rw [run_sizedText_of_size] at hrun
      split_ifs at hrun with hshort
      · obtain ⟨he, hrest⟩ := Prod.mk.inj hrun
        rw [← Except.error.inj he, ← hrest]
        exact ⟨Wire.compactSize size, rfl, .inr ⟨size, rfl, hshort, rfl⟩⟩
      · exact absurd hrun (by simp)
  · rintro ⟨front, rfl, hfault | ⟨size, rfl, hshort, rfl⟩⟩
    · rw [sizedText, run_bind_of_error (run_compactSize_eq_error.2 ⟨front, rfl, hfault⟩)]
    · rw [run_sizedText_of_size, if_pos hshort]

end Reader

/-! ## Every read -/

namespace Read

variable {α : Type} {b rest : Bytes}

/-- A read gives a value just if it is in front, spelled as the read takes it. -/
theorem run_eq_ok (read : Read α) {a : α} :
    read.reader.run b = (.ok a, rest) ↔ ∃ front, b = front ++ rest ∧ read.Spells a front := by
  cases read with
  | take n => exact Reader.run_take_eq_ok
  | array n => exact Reader.run_eq_ok_iff Reader.octets_takes (Reader.octets_undoes n)
  | u8 => exact Reader.run_eq_ok_iff Reader.u8_takes Reader.u8_undoes
  | bool => exact Reader.run_bool_eq_ok
  | u16le => exact Reader.run_eq_ok_iff Reader.u16le_takes Reader.u16le_undoes
  | u16be => exact Reader.run_eq_ok_iff Reader.u16be_takes Reader.u16be_undoes
  | u32le => exact Reader.run_eq_ok_iff Reader.u32le_takes Reader.u32le_undoes
  | u64le => exact Reader.run_eq_ok_iff Reader.u64le_takes Reader.u64le_undoes
  | i64le => exact Reader.run_eq_ok_iff Reader.i64le_takes Reader.i64le_undoes
  | compactSize => exact Reader.run_eq_ok_iff Reader.compactSize_takes Reader.compactSize_undoes
  | sizedText => exact Reader.run_sizedText_eq_ok

/-- A read fails just if what is in front is gone as the read fails. -/
theorem run_eq_error (read : Read α) {e : WireError} :
    read.reader.run b = (.error e, rest) ↔
      ∃ front, b = front ++ rest ∧ read.Fails front rest e := by
  cases read with
  | take n => exact (Reader.take_fixedWidth n).run_eq_error
  | array n => exact (Reader.octets_fixedWidth n).run_eq_error
  | u8 => exact Reader.u8_fixedWidth.run_eq_error
  | bool => exact Reader.bool_fixedWidth.run_eq_error
  | u16le => exact Reader.u16le_fixedWidth.run_eq_error
  | u16be => exact Reader.u16be_fixedWidth.run_eq_error
  | u32le => exact Reader.u32le_fixedWidth.run_eq_error
  | u64le => exact Reader.u64le_fixedWidth.run_eq_error
  | i64le => exact Reader.i64le_fixedWidth.run_eq_error
  | compactSize => exact Reader.run_compactSize_eq_error
  | sizedText => exact Reader.run_sizedText_eq_error

end Read

end PeerCrawl
