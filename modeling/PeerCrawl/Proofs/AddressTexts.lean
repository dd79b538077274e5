import PeerCrawl.Proofs.Hosts
import PeerCrawl.Proofs.IpTexts

set_option autoImplicit false

/-! # Texts of addresses

The text of an address is the text of its IP address, in brackets if that is of version 6, then a
colon and the port. It has no space, it starts with a digit or a bracket, and it ends with a digit,
so that it can be found among words. Two addresses have the same text just if they have the same
bytes and the same port (`Address.chars_inj`). -/

namespace PeerCrawl

namespace Address

open Text Ip

variable {a b : Address}

/-- The digits of the port. -/
def portChars (a : Address) : List Char := digits 10 a.port.toNat

@[simp]
theorem toList_text (a : Address) : a.text.toList = a.chars := String.toList_ofList

theorem isNumeral_portChars (a : Address) : IsNumeral 10 a.port.toNat a.portChars :=
  isNumeral_digits (by decide) (by decide) a.port.toNat

theorem port_eq_of_portChars (h : a.portChars = b.portChars) : a.port = b.port :=
  UInt16.toNat_inj.1 (a.isNumeral_portChars.unique (h ▸ b.isNumeral_portChars))

theorem chars_of_v4 {o : Octets 4} (h : a.ip = .v4 o) :
    a.chars = (Ip.v4 o).chars ++ ':' :: a.portChars := by
  rw [chars, h]
  rfl

theorem chars_of_v6 {o : Octets 16} (h : a.ip = .v6 o) :
    a.chars = '[' :: ((Ip.v6 o).chars ++ ']' :: ':' :: a.portChars) := by
  rw [chars, h]
  simp [portChars]

/-! ## Characters -/

/-- What a text of an address is made of. -/
def IsAddressChar (c : Char) : Prop := c ∈ ['.', ':', '[', ']'] ∨ IsLowerDigit c

/-- What a text of an address starts with. -/
def IsAddressStart (c : Char) : Prop := c = '[' ∨ IsLowerDigit c

instance : DecidablePred IsAddressChar := fun c =>
  inferInstanceAs (Decidable (c ∈ ['.', ':', '[', ']'] ∨ IsLowerDigit c))

instance : DecidablePred IsAddressStart := fun c =>
  inferInstanceAs (Decidable (c = '[' ∨ IsLowerDigit c))

theorem mem_v4_chars {o : Octets 4} : ∀ c ∈ (Ip.v4 o).chars, c = '.' ∨ IsLowerDigit c :=
  (joined_dotted o.bytes).mem

theorem mem_v6_chars {o : Octets 16} : ∀ c ∈ (Ip.v6 o).chars, c = ':' ∨ IsLowerDigit c :=
  (canonical_v6 o).mem

theorem isAddressChar_of_mem (a : Address) : ∀ c ∈ a.chars, IsAddressChar c := by
  intro c hc
  have hport : ∀ c ∈ a.portChars, IsLowerDigit c := a.isNumeral_portChars.lower
  cases h : a.ip with
  | v4 o =>
    have := mem_v4_chars (o := o) c
    rw [chars_of_v4 h, List.mem_append, List.mem_cons] at hc
    grind [IsAddressChar]
  | v6 o =>
    have := mem_v6_chars (o := o) c
    rw [chars_of_v6 h] at hc
    grind [IsAddressChar]

theorem exists_start (a : Address) : ∃ c rest, a.chars = c :: rest ∧ IsAddressStart c := by
  cases h : a.ip with
  | v4 o =>
    obtain ⟨n, ns, hns⟩ : ∃ n ns, o.bytes.map UInt8.toNat = n :: ns := by
      apply List.exists_cons_of_ne_nil
      rw [← List.length_pos_iff]
      simp [o.length_eq]
    obtain ⟨c, rest, hchars, hc⟩ := (hns ▸ joined_dotted o.bytes).exists_cons
    refine ⟨c, rest ++ ':' :: a.portChars, ?_, .inr hc⟩
    rw [chars_of_v4 h]
    exact congrArg (· ++ ':' :: a.portChars) hchars
  | v6 o => exact ⟨_, _, chars_of_v6 h, .inl rfl⟩

/-- An address ends with its port, behind a colon. -/
theorem exists_port (a : Address) : ∃ front, a.chars = front ++ ':' :: a.portChars := by
  cases h : a.ip with
  | v4 o => exact ⟨_, chars_of_v4 h⟩
  | v6 o =>
    refine ⟨'[' :: ((Ip.v6 o).chars ++ [']']), ?_⟩
    rw [chars_of_v6 h]
    simp

theorem ne_space_of_mem (a : Address) : ∀ c ∈ a.chars, c ≠ ' ' := by
  rintro c hc rfl
  exact absurd (a.isAddressChar_of_mem _ hc) (by decide)

theorem colon_mem (a : Address) : ':' ∈ a.chars := by
  obtain ⟨front, h⟩ := a.exists_port
  simp [h]

theorem getLast?_chars (a : Address) : a.chars.getLast? ≠ some ':' := by
  obtain ⟨front, h⟩ := a.exists_port
  obtain ⟨c, rest, hport⟩ := List.exists_cons_of_ne_nil a.isNumeral_portChars.ne_nil
  intro hlast
  have hlast : a.portChars.getLast? = some ':' := by
    rwa [h, hport, List.getLast?_append_cons, List.getLast?_cons_cons, ← hport] at hlast
  have hmem := List.mem_of_getLast? hlast
  exact absurd (a.isNumeral_portChars.lower _ hmem) (by decide)

/-! ## Equal texts -/

theorem chars_v4_ne_v6 {o : Octets 4} {o' : Octets 16} (h : a.ip = .v4 o) (h' : b.ip = .v6 o') :
    a.chars ≠ b.chars := by
  intro heq
  have hmem : '[' ∈ a.chars := by
    rw [heq, chars_of_v6 h']
    exact List.mem_cons_self
  rw [chars_of_v4 h, List.mem_append, List.mem_cons] at hmem
  rcases hmem with hmem | hmem | hmem
  · exact absurd (mem_v4_chars _ hmem) (by decide)
  · exact absurd hmem (by decide)
  · exact absurd (a.isNumeral_portChars.lower _ hmem) (by decide)

theorem chars_v4_inj {o o' : Octets 4} (h : a.ip = .v4 o) (h' : b.ip = .v4 o')
    (heq : a.chars = b.chars) : o = o' ∧ a.port = b.port := by
  have hcolon : ∀ o : Octets 4, ':' ∉ (Ip.v4 o).chars := fun o hmem =>
    absurd (mem_v4_chars _ hmem) (by decide)
  rw [chars_of_v4 h, chars_of_v4 h'] at heq
  obtain ⟨hip, hport⟩ := split_unique (hcolon o) (hcolon o') heq
  exact ⟨v4_chars_inj hip, port_eq_of_portChars hport⟩

theorem chars_v6_inj {o o' : Octets 16} (h : a.ip = .v6 o) (h' : b.ip = .v6 o')
    (heq : a.chars = b.chars) : o = o' ∧ a.port = b.port := by
  have hbracket : ∀ o : Octets 16, ']' ∉ (Ip.v6 o).chars := fun o hmem =>
    absurd (mem_v6_chars _ hmem) (by decide)
  rw [chars_of_v6 h, chars_of_v6 h'] at heq
  obtain ⟨hip, hport⟩ := split_unique (hbracket o) (hbracket o') (List.cons.inj heq).2
  exact ⟨v6_chars_inj hip, port_eq_of_portChars (List.cons.inj hport).2⟩

/-- Two addresses have the same text just if they have the same bytes and the same port. -/
theorem chars_inj : a.chars = b.chars ↔ a.raw = b.raw ∧ a.port = b.port := by
  constructor
  · intro heq
    rw [← ip_eq_iff]
    cases h : a.ip with
    | v4 o =>
      cases h' : b.ip with
      | v4 o' => exact (chars_v4_inj h h' heq).imp_left (congrArg Ip.v4)
      | v6 o' => exact absurd heq (chars_v4_ne_v6 h h')
    | v6 o =>
      cases h' : b.ip with
      | v4 o' => exact absurd heq.symm (chars_v4_ne_v6 h' h)
      | v6 o' => exact (chars_v6_inj h h' heq).imp_left (congrArg Ip.v6)
  · rintro ⟨hraw, hport⟩
    rw [chars, chars, ip_eq_iff.2 hraw, hport]

end Address

end PeerCrawl
