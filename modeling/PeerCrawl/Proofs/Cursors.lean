import PeerCrawl.Proofs.ReadInPlace
import PeerCrawl.Proofs.ReadOutcomes

set_option autoImplicit false

/-! # Reading at a cursor

Instead of cutting off what it takes, a read can leave the bytes as they are and move a cursor on.
Such a read takes slices of the bytes by their bounds, and counts what lies behind the cursor. A
slice that the bytes do not have, or a cursor behind the end, gives nothing at all, so there is an
outcome only if neither is ever asked for (`InPlace`). There always is one, and it is that of the
reader on the bytes behind the cursor (`Read.inPlace_refines`). So a sequence of reads, failed ones
included, moves the cursor forward and never behind the end, and each read takes what it decodes or
fails as `Read.Fails` says (`Cursor.reads_in_bounds`). -/

namespace PeerCrawl

namespace Reader

variable {α β : Type}

/-- Two last steps of a reader are one. -/
theorem bind_pure_bind_pure {γ : Type} (r : Reader α) (f : α → β) (g : β → γ) :
    ((r >>= fun a => pure (f a)) >>= fun c => pure (g c)) = r >>= fun a => pure (g (f a)) := by
  funext b
  show ((r >>= fun a => pure (f a)) >>= fun c => pure (g c)).run b =
    (r >>= fun a => pure (g (f a))).run b
  rcases hr : r.run b with ⟨e | a, rest⟩
  · rw [run_bind_of_error hr, run_bind_of_error (run_bind_of_error hr _)]
  · rw [run_bind_of_ok hr, run_bind_of_ok (run_bind_of_ok hr _)]

theorem littleEndian_eq (width : Nat) :
    littleEndian width = octets width >>= fun o => pure o.bytes.ofLittleEndian :=
  bind_pure_bind_pure (octets width) Octets.bytes Bytes.ofLittleEndian

theorem bigEndian_eq (width : Nat) :
    bigEndian width = octets width >>= fun o => pure o.bytes.ofBigEndian :=
  bind_pure_bind_pure (octets width) Octets.bytes Bytes.ofBigEndian

end Reader

/-- A place in a byte string, from which the next read goes on. -/
structure Cursor where
  bytes : Bytes
  place : Nat
deriving DecidableEq

/-- A read at a cursor: its value or error, and the cursor afterwards. There is no outcome if a
slice is missing. -/
def InPlace (α : Type) : Type := Cursor → Option (Except WireError α × Cursor)

namespace InPlace

variable {α β : Type}

/-- Read at a cursor. -/
def run (p : InPlace α) (c : Cursor) : Option (Except WireError α × Cursor) := p c

protected def pure (a : α) : InPlace α := fun c => some (.ok a, c)

protected def bind (p : InPlace α) (next : α → InPlace β) : InPlace β := fun c =>
  match p c with
  | none => none
  | some (.ok a, c') => next a c'
  | some (.error e, c') => some (.error e, c')

instance : Monad InPlace where
  pure := InPlace.pure
  bind := InPlace.bind

theorem run_bind (p : InPlace α) (next : α → InPlace β) (c : Cursor) :
    (p >>= next).run c = match p.run c with
      | none => none
      | some (.ok a, c') => (next a).run c'
      | some (.error e, c') => some (.error e, c') := rfl

def fail (e : WireError) : InPlace α := fun c => some (.error e, c)

/-- There is an outcome only with a value. -/
def require (a : Option α) : InPlace α := fun c => a.map fun a => (.ok a, c)

/-- How many bytes lie behind the cursor. -/
def remaining : InPlace Nat := fun c =>
  (c.bytes.countFrom? c.place).map fun left => (.ok left, c)

/-- The slice of the next `n` bytes. -/
def take (n : Nat) : InPlace Bytes := fun c =>
  (c.bytes.countFrom? c.place).bind fun left =>
    if left < n then some (.error (.unexpectedEnd n left), c)
    else (c.bytes.slice? c.place (c.place + n)).map fun field =>
      (.ok field, { c with place := c.place + n })

/-- The next `n` bytes, copied into a field of that width. There is no outcome if the slice has
another one. -/
def octets (n : Nat) : InPlace (Octets n) := do
  let field ← take n
  require (Octets.ofBytes? n field)

def littleEndian (width : Nat) : InPlace Nat := do return (← octets width).bytes.ofLittleEndian

def bigEndian (width : Nat) : InPlace Nat := do return (← octets width).bytes.ofBigEndian

def u8 : InPlace UInt8 := do return UInt8.ofNat (← littleEndian 1)

def bool : InPlace Bool := do return (← u8) != 0

def u16le : InPlace UInt16 := do return UInt16.ofNat (← littleEndian 2)

def u16be : InPlace UInt16 := do return UInt16.ofNat (← bigEndian 2)

def u32le : InPlace UInt32 := do return UInt32.ofNat (← littleEndian 4)

def u64le : InPlace UInt64 := do return UInt64.ofNat (← littleEndian 8)

def i64le : InPlace Int64 := do return (← u64le).toInt64

def extended (width minimum : Nat) : InPlace UInt64 := do
  let n ← littleEndian width
  if n < minimum then fail (.nonCanonicalVarInt n) else return UInt64.ofNat n

def compactSize : InPlace UInt64 := do
  let first ← u8
  if first = 0xFF then extended 8 0x100000000
  else if first = 0xFE then extended 4 0x10000
  else if first = 0xFD then extended 2 0xFD
  else return first.toUInt64

def sizedText : InPlace String := do
  let size ← compactSize
  let left ← remaining
  if left < size.toNat then fail (.unexpectedEnd size.toNat left)
  else return Utf8.decodeLossy (← take size.toNat)

/-! ## The readers in place -/

/-- Wherever the cursor stands, there is an outcome; it is that of the reader on the bytes behind
the cursor, which moves forward to what the reader leaves. -/
def Refines (p : InPlace α) (r : Reader α) : Prop :=
  ∀ b place, place ≤ b.length → ∃ result place', p.run ⟨b, place⟩ = some (result, ⟨b, place'⟩) ∧
    place ≤ place' ∧ place' ≤ b.length ∧ r.run (b.drop place) = (result, b.drop place')

namespace Refines

theorem pure (a : α) : Refines (pure a : InPlace α) (pure a) :=
  fun _ place hplace => ⟨.ok a, place, rfl, Nat.le_refl _, hplace, rfl⟩

theorem fail (e : WireError) : Refines (InPlace.fail e : InPlace α) (Reader.fail e) :=
  fun _ place hplace => ⟨.error e, place, rfl, Nat.le_refl _, hplace, rfl⟩

theorem bind {p : InPlace α} {r : Reader α} {next : α → InPlace β} {next' : α → Reader β}
    (h : p.Refines r) (hnext : ∀ a, (next a).Refines (next' a)) :
    Refines (p >>= next) (r >>= next') := by
  intro b place hplace
  obtain ⟨result, mid, hp, hforward, hwithin, hr⟩ := h b place hplace
  have hrun := run_bind p next ⟨b, place⟩
  rw [hp] at hrun
  cases result with
  | ok a =>
    obtain ⟨result, place', hn, hforward', hwithin', hr'⟩ := hnext a b mid hwithin
    refine ⟨result, place', hrun.trans hn, Nat.le_trans hforward hforward', hwithin', ?_⟩
    rw [Reader.run_bind_of_ok hr, hr']
  | error e => exact ⟨.error e, mid, hrun, hforward, hwithin, Reader.run_bind_of_error hr next'⟩

/-- The last step of a read, which gives what was read in another form. -/
theorem bind_pure {p : InPlace α} {r : Reader α} (h : p.Refines r) (f : α → β) :
    Refines (p >>= fun a => Pure.pure (f a)) (r >>= fun a => Pure.pure (f a)) :=
  h.bind fun a => pure (f a)

theorem ite {c : Prop} [Decidable c] {p p' : InPlace α} {r r' : Reader α} (h : p.Refines r)
    (h' : p'.Refines r') : (if c then p else p').Refines (if c then r else r') := by
  split
  · exact h
  · exact h'

end Refines

theorem remaining_refines : remaining.Refines Reader.remaining := by
  intro b place hplace
  refine ⟨.ok (b.length - place), place, ?_, Nat.le_refl _, hplace, ?_⟩
  · rw [run, remaining, Bytes.countFrom?_of_le hplace, Option.map_some]
  · rw [Reader.run_remaining, List.length_drop]

/-- The slice that is taken is there, because the bytes behind the cursor were counted. -/
theorem take_refines (n : Nat) : (take n).Refines (Reader.take n) := by
  intro b place hplace
  rw [run, take, Bytes.countFrom?_of_le hplace, Option.bind_some, Reader.run_take,
    List.length_drop, List.drop_drop]
  by_cases hshort : b.length - place < n
  · rw [if_pos hshort, if_neg (Nat.not_le.2 hshort)]
    exact ⟨_, place, rfl, Nat.le_refl _, hplace, rfl⟩
  · have hstop : place + n ≤ b.length := by omega
    rw [if_neg hshort, if_pos (Nat.le_of_not_lt hshort),
      Bytes.slice?_of_le (Nat.le_add_right _ _) hstop, Nat.add_sub_cancel_left]
    exact ⟨_, place + n, rfl, Nat.le_add_right _ _, hstop, rfl⟩

/-- The slice that is copied has the width of the field. -/
theorem octets_refines (n : Nat) : (octets n).Refines (Reader.octets n) := by
  intro b place hplace
  obtain ⟨result, place', htake, hforward, hwithin, hr⟩ := take_refines n b place hplace
  have hrun : (octets n).run ⟨b, place⟩ = _ := run_bind _ _ _
  rw [htake] at hrun
  cases result with
  | ok field =>
    obtain ⟨o, mid, ho, hpure⟩ := Reader.run_bind_eq_ok hr
    rw [Reader.run_pure, Prod.mk.injEq, Except.ok.injEq] at hpure
    obtain ⟨rfl, rfl⟩ := hpure
    have hwidth : Octets.ofBytes? n o.bytes = some o := dif_pos o.length_eq
    refine ⟨.ok o, place', ?_, hforward, hwithin, ho⟩
    dsimp only at hrun
    rw [hrun, hwidth]
    rfl
  | error e =>
    refine ⟨.error e, place', hrun, hforward, hwithin, ?_⟩
    rcases ho : (Reader.octets n).run (b.drop place) with ⟨e' | o, mid⟩
    · rw [Reader.take, Reader.run_bind_of_error ho, Prod.mk.injEq, Except.error.injEq] at hr
      rw [hr.1, hr.2]
    · rw [Reader.take, Reader.run_bind_of_ok ho] at hr
      exact absurd hr (by simp)

theorem littleEndian_refines (width : Nat) :
    (littleEndian width).Refines (Reader.littleEndian width) := by
  rw [Reader.littleEndian_eq]
  exact (octets_refines width).bind_pure _

theorem bigEndian_refines (width : Nat) : (bigEndian width).Refines (Reader.bigEndian width) := by
  rw [Reader.bigEndian_eq]
  exact (octets_refines width).bind_pure _

theorem u8_refines : u8.Refines Reader.u8 := (littleEndian_refines 1).bind_pure _

theorem u64le_refines : u64le.Refines Reader.u64le := (littleEndian_refines 8).bind_pure _

theorem extended_refines (width minimum : Nat) :
    (extended width minimum).Refines (Reader.extended width minimum) :=
  (littleEndian_refines width).bind fun _ => .ite (.fail _) (.pure _)

theorem compactSize_refines : compactSize.Refines Reader.compactSize :=
  u8_refines.bind fun _ => .ite (extended_refines _ _) (.ite (extended_refines _ _)
    (.ite (extended_refines _ _) (.pure _)))

theorem sizedText_refines : sizedText.Refines Reader.sizedText :=
  compactSize_refines.bind fun _ => remaining_refines.bind fun _ =>
    .ite (.fail _) ((take_refines _).bind_pure _)

end InPlace

namespace Read

def inPlace : {α : Type} → Read α → InPlace α
  | _, take n => InPlace.take n
  | _, array n => InPlace.octets n
  | _, u8 => InPlace.u8
  | _, bool => InPlace.bool
  | _, u16le => InPlace.u16le
  | _, u16be => InPlace.u16be
  | _, u32le => InPlace.u32le
  | _, u64le => InPlace.u64le
  | _, i64le => InPlace.i64le
  | _, compactSize => InPlace.compactSize
  | _, sizedText => InPlace.sizedText

theorem inPlace_refines {α : Type} (read : Read α) : read.inPlace.Refines read.reader := by
  cases read with
  | take n => exact InPlace.take_refines n
  | array n => exact InPlace.octets_refines n
  | u8 => exact InPlace.u8_refines
  | bool => exact InPlace.u8_refines.bind_pure _
  | u16le => exact (InPlace.littleEndian_refines 2).bind_pure _
  | u16be => exact (InPlace.bigEndian_refines 2).bind_pure _
  | u32le => exact (InPlace.littleEndian_refines 4).bind_pure _
  | u64le => exact InPlace.u64le_refines
  | i64le => exact InPlace.u64le_refines.bind_pure _
  | compactSize => exact InPlace.compactSize_refines
  | sizedText => exact InPlace.sizedText_refines

end Read

/-! ## Reads one after another -/

namespace Cursor

/-- The cursor after reads, each of which goes on where the one before has stopped, whether that has
failed or not. -/
def afterAll : List (Σ α, Read α) → Cursor → Option Cursor
  | [], c => some c
  | ⟨_, read⟩ :: reads, c => (read.inPlace.run c).bind fun (_, c') => afterAll reads c'

variable {b front rest : Bytes} {place place' : Nat}

theorem afterAll_within (reads : List (Σ α, Read α)) (h : place ≤ b.length) :
    ∃ place', afterAll reads ⟨b, place⟩ = some ⟨b, place'⟩ ∧ place ≤ place' ∧
      place' ≤ b.length := by
  induction reads generalizing place with
  | nil => exact ⟨place, rfl, Nat.le_refl _, h⟩
  | cons first reads ih =>
    obtain ⟨α, read⟩ := first
    obtain ⟨result, mid, hrun, hforward, hwithin, -⟩ := read.inPlace_refines b place h
    obtain ⟨place', hafter, hforward', hwithin'⟩ := ih hwithin
    refine ⟨place', ?_, Nat.le_trans hforward hforward', hwithin'⟩
    rw [afterAll, hrun, Option.bind_some]
    exact hafter

/-- What is left tells how far the cursor has come. -/
theorem place_eq_iff (h : b.drop place = front ++ rest) (hforward : place ≤ place')
    (hwithin : place' ≤ b.length) : place' = place + front.length ↔ b.drop place' = rest := by
  constructor
  · rintro rfl
    rw [← List.drop_drop, h, List.drop_left]
  · intro hrest
    have hlength := congrArg List.length h
    have hlength' := congrArg List.length hrest
    simp only [List.length_drop, List.length_append] at hlength hlength'
    omega

/-- **Reads stay in bounds and take front parts.** Take any bytes, and let reads of any kind and
width follow each other at a cursor that starts in front of them, going on after failures. Then the
cursor is never behind the end, no slice is missing, and the next read, whatever it is, has an
outcome.

* It moves the cursor forward, but not behind the end, and gives what the reader gives on the bytes
  behind the cursor, which leaves the bytes that are then behind it.
* For each way to split the bytes behind the cursor in two: it gives a value and has moved over the
  front part just if this is what the read takes for that value; and it fails with an error and has
  moved over the front part just if the read fails with that error when these bytes are gone and
  those are left. -/
theorem reads_in_bounds (b : Bytes) (reads : List (Σ α, Read α)) :
    ∃ place, afterAll reads ⟨b, 0⟩ = some ⟨b, place⟩ ∧ place ≤ b.length ∧
      ∀ {α : Type} (read : Read α), ∃ result place',
        read.inPlace.run ⟨b, place⟩ = some (result, ⟨b, place'⟩) ∧
          place ≤ place' ∧ place' ≤ b.length ∧
          read.reader.run (b.drop place) = (result, b.drop place') ∧
          ∀ front rest, b.drop place = front ++ rest →
            (∀ a, result = .ok a ∧ place' = place + front.length ↔ read.Spells a front) ∧
              ∀ e, result = .error e ∧ place' = place + front.length ↔
                read.Fails front rest e := by
  obtain ⟨place, hafter, -, hwithin⟩ := afterAll_within reads (Nat.zero_le b.length)
  refine ⟨place, hafter, hwithin, fun {α} read => ?_⟩
  obtain ⟨result, place', hrun, hforward, hwithin', hread⟩ :=
    read.inPlace_refines b place hwithin
  refine ⟨result, place', hrun, hforward, hwithin', hread, fun front rest hsplit => ?_⟩
  -- the outcome over the front part is that of the reader which leaves the rest
  have houtcome : ∀ outcome, result = outcome ∧ place' = place + front.length ↔
      read.reader.run (b.drop place) = (outcome, rest) := fun outcome => by
    rw [hread, Prod.mk.injEq, place_eq_iff hsplit hforward hwithin']
  constructor
  · intro a
    rw [houtcome, read.run_eq_ok]
    constructor
    · rintro ⟨front', hsplit', hspells⟩
      rwa [List.append_cancel_right (hsplit.symm.trans hsplit')]
    · intro hspells
      exact ⟨front, hsplit, hspells⟩
  · intro e
    rw [houtcome, read.run_eq_error]
    constructor
    · rintro ⟨front', hsplit', hfails⟩
      rwa [List.append_cancel_right (hsplit.symm.trans hsplit')]
    · intro hfails
      exact ⟨front, hsplit, hfails⟩

/-- A compact size whose field is cut short leaves that field to the next read, and a field of five
bytes takes none of fewer. -/
example : afterAll [⟨_, .compactSize⟩, ⟨_, .u8⟩, ⟨_, .take 5⟩] ⟨[0xFE, 0x01, 0x07], 0⟩ =
    some ⟨[0xFE, 0x01, 0x07], 2⟩ := by decide

end Cursor

end PeerCrawl
