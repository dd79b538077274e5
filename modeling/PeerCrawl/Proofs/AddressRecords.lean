import PeerCrawl.Proofs.AddressLists

set_option autoImplicit false

/-! # The codec of address records

Whatever an encoding has, a record takes the width of that encoding: so many bytes are written
(`Wire.length_addressRecord`), and the read of a record fails just if there are fewer
(`Reader.addressRecord_ok_iff`). With what records read as, and what those that were read are
written as, that is the whole codec (`Reader.addressRecord_codec`). -/

namespace PeerCrawl

namespace Wire

@[simp] theorem length_u16be (n : UInt16) : (u16be n).length = 2 := by simp [u16be]

@[simp] theorem length_u32le (n : UInt32) : (u32le n).length = 4 := by simp [u32le]

@[simp] theorem length_u64le (n : UInt64) : (u64le n).length = 8 := by simp [u64le]

theorem length_addressRecord (a : Address) (e : AddressEncoding) :
    (addressRecord a e).length = e.width := by
  unfold addressRecord AddressEncoding.width
  split
  · simp [a.raw.length_eq]
  · simp [a.raw.length_eq]

end Wire

namespace Reader

variable {α : Type} {P : WireError → Prop} {r : Reader α} {width : Nat}

/-- A reader that takes a width, and fails for nothing else, succeeds just if that is there. -/
theorem TakesWidth.ok_iff (h : r.TakesWidth width fun _ => False) (b : Bytes) :
    (∃ a rest, r.run b = (.ok a, rest)) ↔ width ≤ b.length := by
  constructor
  · rintro ⟨a, rest, hrun⟩
    have htaken := h.taken b a rest hrun
    omega
  · intro hle
    rcases hrun : r.run b with ⟨e | a, rest⟩
    · exact (h.failed b e rest hrun hle).elim
    · exact ⟨a, rest, rfl⟩

/-! ## The width of a record -/

theorem u64le_takesWidth : u64le.TakesWidth 8 P :=
  (((octets_takesWidth 8).bind fun _ => .pure _).bind fun _ => .pure _).bind fun _ => .pure _

theorem u16be_takesWidth : u16be.TakesWidth 2 P :=
  (((octets_takesWidth 2).bind fun _ => .pure _).bind fun _ => .pure _).bind fun _ => .pure _

theorem recordAfter_takesWidth (time : Option UInt32) : (recordAfter time).TakesWidth 26 P :=
  u64le_takesWidth.bind fun _ => (octets_takesWidth 16).bind fun _ =>
    u16be_takesWidth.bind fun _ => .pure _

theorem addressRecord_takesWidth (e : AddressEncoding) :
    (addressRecord e).TakesWidth e.width P := by
  rw [addressRecord_eq, AddressEncoding.width]
  split
  · exact (u32le_takesWidth.bind fun _ => .pure _).bind recordAfter_takesWidth
  · exact recordAfter_takesWidth none

theorem addressRecord_ok_iff (e : AddressEncoding) (b : Bytes) :
    (∃ a rest, (addressRecord e).run b = (.ok a, rest)) ↔ e.width ≤ b.length :=
  (addressRecord_takesWidth e).ok_iff b

/-! ## The codec -/

/-- **The codec of address records.** Let an encoding have a place for the time or not, be for
keeping or for sending, and be of any version.

* An address is written in thirty bytes if the encoding includes the time, and in twenty-six
  otherwise. Whatever follows these bytes is left when they are read, and what is read has the host
  and the port of the address, no scope, its services or else none, and, just if the encoding
  includes the time, its time or else the usual one.
* Bytes read as a record just if there are as many; and what they read as is written as the very
  bytes that were taken. -/
theorem addressRecord_codec (e : AddressEncoding) :
    let width := if e.includesTime = true then 30 else 26
    (∀ (a : Address) suffix,
      (Wire.addressRecord a e).length = width ∧
        (addressRecord e).run (Wire.addressRecord a e ++ suffix) = (.ok {
          raw := a.raw, port := a.port, scope := 0
          services := some (a.services.getD Services.none)
          time := if e.includesTime = true then some (a.time.getD 100000000) else none }, suffix)) ∧
    ∀ b,
      ((∃ a rest, (addressRecord e).run b = (.ok a, rest)) ↔ width ≤ b.length) ∧
        ∀ a rest, (addressRecord e).run b = (.ok a, rest) → b = Wire.addressRecord a e ++ rest := by
  intro width
  refine ⟨fun a suffix => ⟨Wire.length_addressRecord a e, ?_⟩, fun b => ⟨?_, ?_⟩⟩
  · rw [addressRecord_takes a e suffix]
    rfl
  · exact addressRecord_ok_iff e b
  · intro a rest hrun
    exact addressRecord_undoes e b a rest hrun

end Reader

end PeerCrawl
