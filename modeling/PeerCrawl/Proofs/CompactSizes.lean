import Mathlib.Order.Bounds.Defs
import PeerCrawl.Proofs.ReadErrors

set_option autoImplicit false

/-! # Compact sizes are canonical

`Reader.Undoes r write` says that the bytes that `r` takes from the front are always the writing of
the value that it gives. Words do that, and so do compact sizes: a byte string starts with the
compact size of a number, or with a wider form of one (`Wire.Overlong`), or it ends too early
(`Reader.sized`), and the read of a compact size tells the three apart. Hence no compact size starts
another one, and each is as short as its number allows (`Reader.compactSize_canonical`). -/

namespace PeerCrawl

namespace Wire

/-- The bytes start with a number in a form that is wider than its compact size. -/
def Overlong (b : Bytes) (n : Nat) : Prop :=
  ∃ marker width minimum field rest, Extension marker width minimum ∧
    b = marker :: (field ++ rest) ∧ field.length = width ∧ Bytes.ofLittleEndian field = n ∧
    (compactSize (UInt64.ofNat n)).length < 1 + width

/-- The bytes end inside a number: there are none, or the marker in front wants more bytes than
follow it. -/
inductive Unfinished : Bytes → (needed remaining : Nat) → Prop
  | nothing : Unfinished [] 1 0
  | marker {marker : UInt8} {width minimum : Nat} {rest : Bytes}
      (h : Extension marker width minimum) (hshort : rest.length < width) :
      Unfinished (marker :: rest) width rest.length

/-- A form of so many bytes has room for the number. -/
inductive Holds : (size n : Nat) → Prop
  | byte {n : Nat} (h : n < 0xFD) : Holds 1 n
  | extended {marker : UInt8} {width minimum n : Nat} (h : Extension marker width minimum)
      (hn : n < 256 ^ width) : Holds (1 + width) n

variable {marker : UInt8} {width minimum n : Nat}

/-- The first byte of a number is the number itself or a marker. -/
theorem lt_or_extension (first : UInt8) :
    first.toNat < 0xFD ∨ ∃ width minimum, Extension first width minimum := by
  have hbyte : first.toNat < 256 := first.toNat_lt
  by_cases hsmall : first.toNat < 0xFD
  · exact .inl hsmall
  · right
    have hmarker : first.toNat = 0xFD ∨ first.toNat = 0xFE ∨ first.toNat = 0xFF := by omega
    rcases hmarker with h | h | h
    · rw [show first = 0xFD from UInt8.toNat_inj.1 h]
      exact ⟨_, _, .two⟩
    · rw [show first = 0xFE from UInt8.toNat_inj.1 h]
      exact ⟨_, _, .four⟩
    · rw [show first = 0xFF from UInt8.toNat_inj.1 h]
      exact ⟨_, _, .eight⟩

/-- A form is wider than the compact size of a number just if the number does not take it. -/
theorem Extension.length_compactSize_lt (h : Extension marker width minimum)
    (hn : n < 256 ^ width) :
    (compactSize (UInt64.ofNat n)).length < 1 + width ↔ n < minimum := by
  constructor
  · intro hlt
    by_contra hmin
    rw [h.compactSize_eq (Nat.le_of_not_lt hmin) hn, List.length_cons,
      Bytes.length_littleEndian] at hlt
    omega
  · intro hmin
    rw [compactSize_ofNat (h.lt_two_pow hn)]
    cases h <;> split_ifs <;> simp

/-- The compact size of a number is the shortest form that has room for it. -/
theorem length_compactSize_isLeast (n : UInt64) :
    IsLeast {size | size ∈ [1, 3, 5, 9] ∧ Holds size n.toNat} (compactSize n).length := by
  have hn := n.toNat_lt
  have hlength := congrArg List.length (compactSize_ofNat hn)
  rw [UInt64.ofNat_toNat] at hlength
  rw [hlength]
  constructor
  · split_ifs with hone htwo hfour
    · exact ⟨by simp, .byte hone⟩
    · exact ⟨by simp, .extended .two htwo⟩
    · exact ⟨by simp, .extended .four hfour⟩
    · exact ⟨by simp, .extended .eight hn⟩
  · rintro size ⟨-, hholds⟩
    cases hholds with
    | byte hone => rw [if_pos hone]; rfl
    | extended h hwidth =>
      -- a shorter form would need the number to be below the least one of a wider form
      cases h <;> split_ifs <;>
        simp only [List.length_cons, List.length_nil, Bytes.length_littleEndian] <;> omega

end Wire

namespace Reader

variable {α β : Type}

/-- The bytes that the reader takes are the writing of the value that it gives. -/
def Undoes (r : Reader α) (write : α → Bytes) : Prop :=
  ∀ b a rest, r.run b = (.ok a, rest) → b = write a ++ rest

/-- The last step of a reader, which gives what was read in another form. -/
theorem Undoes.bind_pure {r : Reader α} {write : α → Bytes} {write' : β → Bytes} {f : α → β}
    (h : r.Undoes write)
    (hwrite : ∀ b a rest, r.run b = (.ok a, rest) → write' (f a) = write a) :
    Undoes (r >>= fun a => Pure.pure (f a)) write' := by
  intro b c rest hrun
  obtain ⟨a, mid, hr, hpure⟩ := run_bind_eq_ok hrun
  rw [run_pure, Prod.mk.injEq, Except.ok.injEq] at hpure
  rw [← hpure.1, ← hpure.2, hwrite b a mid hr]
  exact h b a mid hr

/-! ## Words -/

theorem octets_undoes (n : Nat) : (octets n).Undoes Octets.bytes := by
  intro b o rest h
  rw [run, octets] at h
  split at h
  · simp only [Prod.mk.injEq, Except.ok.injEq] at h
    rw [← h.1, ← h.2, List.take_append_drop]
  · exact absurd h (by simp)

theorem take_undoes (n : Nat) : (take n).Undoes id :=
  (octets_undoes n).bind_pure fun _ _ _ _ => rfl

theorem length_of_run_take {n : Nat} {b field rest : Bytes}
    (h : (take n).run b = (.ok field, rest)) : field.length = n := by
  obtain ⟨o, mid, -, hpure⟩ := run_bind_eq_ok h
  rw [run_pure, Prod.mk.injEq, Except.ok.injEq] at hpure
  rw [← hpure.1, o.length_eq]

theorem littleEndian_undoes (width : Nat) :
    (littleEndian width).Undoes (Bytes.littleEndian width) :=
  (take_undoes width).bind_pure fun b field rest h => by
    rw [← length_of_run_take h, Bytes.littleEndian_ofLittleEndian, id]

theorem bigEndian_undoes (width : Nat) : (bigEndian width).Undoes (Bytes.bigEndian width) :=
  (take_undoes width).bind_pure fun b field rest h => by
    rw [← length_of_run_take h, Bytes.bigEndian_ofBigEndian, id]

theorem lt_of_run_littleEndian {width n : Nat} {b rest : Bytes}
    (h : (littleEndian width).run b = (.ok n, rest)) : n < 256 ^ width := by
  obtain ⟨field, mid, hfield, hpure⟩ := run_bind_eq_ok h
  rw [run_pure, Prod.mk.injEq, Except.ok.injEq] at hpure
  rw [← hpure.1, ← length_of_run_take hfield]
  exact Bytes.ofLittleEndian_lt field

theorem lt_of_run_bigEndian {width n : Nat} {b rest : Bytes}
    (h : (bigEndian width).run b = (.ok n, rest)) : n < 256 ^ width := by
  obtain ⟨field, mid, hfield, hpure⟩ := run_bind_eq_ok h
  rw [run_pure, Prod.mk.injEq, Except.ok.injEq] at hpure
  rw [← hpure.1, ← length_of_run_take hfield, ← field.length_reverse]
  exact Bytes.ofLittleEndian_lt field.reverse

theorem u16be_undoes : u16be.Undoes Wire.u16be :=
  (bigEndian_undoes 2).bind_pure fun b n rest h => by
    rw [Wire.u16be, UInt16.toNat_ofNat_of_lt' (lt_of_run_bigEndian h)]

theorem u32le_undoes : u32le.Undoes Wire.u32le :=
  (littleEndian_undoes 4).bind_pure fun b n rest h => by
    rw [Wire.u32le, UInt32.toNat_ofNat_of_lt' (lt_of_run_littleEndian h)]

theorem u64le_undoes : u64le.Undoes Wire.u64le :=
  (littleEndian_undoes 8).bind_pure fun b n rest h => by
    rw [Wire.u64le, UInt64.toNat_ofNat_of_lt' (lt_of_run_littleEndian h)]

/-! ## Compact sizes -/

/-- What bytes start with, and what the read of a compact size makes of it. -/
inductive Sized (b : Bytes) : Prop
  | complete (n : UInt64) (rest : Bytes) (h : b = Wire.compactSize n ++ rest)
  | overlong (n : Nat) (h : Wire.Overlong b n)
  | cut (e : WireError) (h : compactSize.value b = .error e) (hend : e.IsEnd)

variable {b rest : Bytes} {n : Nat}

theorem run_extended_of_le {width minimum : Nat} {field : Bytes} (hlen : field.length = width)
    (hmin : Bytes.ofLittleEndian field < minimum) (rest : Bytes) :
    (extended width minimum).run (field ++ rest) =
      (.error (.nonCanonicalVarInt (Bytes.ofLittleEndian field)), rest) := by
  have hread := (littleEndian_takes (Bytes.ofLittleEndian_lt field)) rest
  rw [Bytes.littleEndian_ofLittleEndian, hlen] at hread
  rw [extended, run_bind_of_ok hread, if_pos hmin, run_fail]

theorem value_compactSize_of_overlong (h : Wire.Overlong b n) :
    compactSize.value b = .error (.nonCanonicalVarInt n) := by
  obtain ⟨marker, width, minimum, field, rest, hform, rfl, hlen, rfl, hwide⟩ := h
  have hlt : Bytes.ofLittleEndian field < 256 ^ width := hlen ▸ Bytes.ofLittleEndian_lt field
  rw [value, run_compactSize_of_extension hform,
    run_extended_of_le hlen ((hform.length_compactSize_lt hlt).1 hwide)]

theorem sized (b : Bytes) : Sized b := by
  cases b with
  | nil => exact .cut _ rfl ⟨_, _, rfl⟩
  | cons first tail =>
    rcases Wire.lt_or_extension first with hsmall | ⟨width, minimum, hform⟩
    · have hwritten := Wire.compactSize_ofNat (Nat.lt_trans hsmall (by decide))
      rw [if_pos hsmall, UInt64.ofNat_uInt8ToNat, UInt8.ofNat_toNat] at hwritten
      refine .complete first.toUInt64 tail ?_
      rw [hwritten, List.singleton_append]
    · rcases hread : (littleEndian width).run tail with ⟨e | n, rest⟩
      · refine .cut e ?_ (littleEndian_failsOnly width tail e rest hread)
        rw [value, run_compactSize_of_extension hform, extended, run_bind_of_error hread]
      · have hlt := lt_of_run_littleEndian hread
        obtain rfl := littleEndian_undoes width tail n rest hread
        by_cases hmin : n < minimum
        · refine .overlong n ⟨first, width, minimum, Bytes.littleEndian width n, rest, hform, rfl,
            Bytes.length_littleEndian width n, Bytes.ofLittleEndian_littleEndian hlt,
            (hform.length_compactSize_lt hlt).2 hmin⟩
        · refine .complete (UInt64.ofNat n) rest ?_
          rw [hform.compactSize_eq (Nat.le_of_not_lt hmin) hlt, List.cons_append]

theorem compactSize_undoes : compactSize.Undoes Wire.compactSize := by
  intro b n rest h
  cases sized b with
  | complete n' rest' hb =>
    rw [hb, compactSize_takes n' rest', Prod.mk.injEq, Except.ok.injEq] at h
    rw [hb, h.1, h.2]
  | overlong k hk =>
    have herror := value_compactSize_of_overlong hk
    rw [value, h] at herror
    exact absurd herror (by simp)
  | cut e he _ =>
    rw [value, h] at he
    exact absurd he (by simp)

/-! ## What the read of a compact size says -/

theorem run_compactSize_eq_ok {n : UInt64} :
    compactSize.run b = (.ok n, rest) ↔ b = Wire.compactSize n ++ rest := by
  refine ⟨compactSize_undoes b n rest, ?_⟩
  rintro rfl
  exact compactSize_takes n rest

theorem value_compactSize_eq_nonCanonical :
    compactSize.value b = .error (.nonCanonicalVarInt n) ↔ Wire.Overlong b n := by
  refine ⟨fun h => ?_, value_compactSize_of_overlong⟩
  cases sized b with
  | complete k rest hb =>
    rw [value, run_compactSize_eq_ok.2 hb] at h
    exact absurd h (by simp)
  | overlong k hk =>
    rw [value_compactSize_of_overlong hk] at h
    simp only [Except.error.injEq, WireError.nonCanonicalVarInt.injEq] at h
    exact h ▸ hk
  | cut e he hend =>
    obtain ⟨needed, remaining, rfl⟩ := hend
    rw [he] at h
    exact absurd h (by simp)

/-- An extension ends too early just if its field does. -/
theorem value_extended_eq_end {width minimum needed remaining : Nat} :
    (extended width minimum).value b = .error (.unexpectedEnd needed remaining) ↔
      b.length < width ∧ width = needed ∧ b.length = remaining := by
  rcases Nat.lt_or_ge b.length width with hshort | hlong
  · have hread := run_littleEndian width b
    rw [if_neg (Nat.not_le.2 hshort)] at hread
    rw [value, extended, run_bind_of_error hread]
    simp [hshort]
  · have hread := run_littleEndian width b
    rw [if_pos hlong] at hread
    rw [value, extended, run_bind_of_ok hread]
    split
    · simp [Nat.not_lt.2 hlong]
    · simp [Nat.not_lt.2 hlong]

theorem value_compactSize_eq_end {needed remaining : Nat} :
    compactSize.value b = .error (.unexpectedEnd needed remaining) ↔
      Wire.Unfinished b needed remaining := by
  constructor
  · intro h
    cases b with
    | nil =>
      obtain ⟨rfl, rfl⟩ := WireError.unexpectedEnd.inj (Except.error.inj h)
      exact .nothing
    | cons first tail =>
      rcases Wire.lt_or_extension first with hsmall | ⟨width, minimum, hform⟩
      · rw [value, run_compactSize_of_lt hsmall] at h
        exact absurd h (by simp)
      · rw [value, run_compactSize_of_extension hform] at h
        obtain ⟨hshort, rfl, rfl⟩ := value_extended_eq_end.1 h
        exact .marker hform hshort
  · rintro (_ | ⟨hform, hshort⟩)
    · rfl
    · rw [value, run_compactSize_of_extension hform]
      exact value_extended_eq_end.2 ⟨hshort, rfl, rfl⟩

/-- What a reader takes for one value does not start what it takes for another one. -/
theorem Takes.eq_of_start {r : Reader α} {b₁ b₂ : Bytes} {a₁ a₂ : α} (h₁ : r.Takes b₁ a₁)
    (h₂ : r.Takes b₂ a₂) (h : b₁ <+: b₂) : a₁ = a₂ := by
  obtain ⟨more, rfl⟩ := h
  have hwhole := h₂ []
  rw [List.append_nil, h₁ more] at hwhole
  exact Except.ok.inj (Prod.mk.inj hwhole).1

/-- **Compact sizes are canonical.** Take any byte string.

* The read of a compact size gives a number and leaves a rest just if the bytes are the compact size
  of that number followed by the rest.
* It complains of the form of a number just if the bytes start with that number in a form that is
  complete, but wider than its compact size.
* It asks for more bytes just if there are none, or fewer behind a marker than this announces.

So different numbers have different compact sizes, none of which starts another one, every number
reads back, and it takes the least of one, three, five and nine bytes that have room for it. -/
theorem compactSize_canonical :
    (∀ b : Bytes,
      (∀ n rest, compactSize.run b = (.ok n, rest) ↔ b = Wire.compactSize n ++ rest) ∧
        (∀ n, compactSize.value b = .error (.nonCanonicalVarInt n) ↔ Wire.Overlong b n) ∧
        ∀ needed remaining, compactSize.value b = .error (.unexpectedEnd needed remaining) ↔
          Wire.Unfinished b needed remaining) ∧
      Function.Injective Wire.compactSize ∧
      (∀ m n, Wire.compactSize m <+: Wire.compactSize n → m = n) ∧
      (∀ n, IsLeast {size | size ∈ [1, 3, 5, 9] ∧ Wire.Holds size n.toNat}
        (Wire.compactSize n).length) ∧
      ∀ n rest, compactSize.run (Wire.compactSize n ++ rest) = (.ok n, rest) := by
  have hprefix : ∀ m n, Wire.compactSize m <+: Wire.compactSize n → m = n := fun m n =>
    (compactSize_takes m).eq_of_start (compactSize_takes n)
  refine ⟨fun b => ⟨fun _ _ => run_compactSize_eq_ok, fun _ => value_compactSize_eq_nonCanonical,
    fun _ _ => value_compactSize_eq_end⟩, fun m n h => ?_, hprefix,
    Wire.length_compactSize_isLeast, compactSize_takes⟩
  exact hprefix m n (h ▸ List.prefix_rfl)

/-- Five behind the marker of a wider form, and a marker whose field is cut short. -/
example : compactSize.value [0xFD, 0x05, 0x00] = .error (.nonCanonicalVarInt 5) ∧
    compactSize.value [0xFE, 0x01] = .error (.unexpectedEnd 4 1) := by decide

end Reader

end PeerCrawl
