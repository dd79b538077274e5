import PeerCrawl.Bytes.Basic
import PeerCrawl.Wire.Error

set_option autoImplicit false

/-! # Reading from the front of a byte string

A reader takes a value from the front of a byte string and says what is left, also when it fails:
the next reader goes on from there. A read of a fixed width takes its bytes or moves nothing. -/

namespace PeerCrawl

/-- A read: its value or error, and the bytes that are left. -/
def Reader (α : Type) : Type := Bytes → Except WireError α × Bytes

namespace Reader

variable {α β : Type}

/-- Read from a byte string. -/
def run (r : Reader α) (b : Bytes) : Except WireError α × Bytes := r b

/-- Read from a byte string and drop what is left. -/
def value (r : Reader α) (b : Bytes) : Except WireError α := (r.run b).1

protected def pure (a : α) : Reader α := fun b => (.ok a, b)

/-- Refuse, moving nothing. -/
def fail (e : WireError) : Reader α := fun b => (.error e, b)

/-- Read, and go on with the value from where the read stopped. -/
protected def bind (r : Reader α) (next : α → Reader β) : Reader β := fun b =>
  match r b with
  | (.ok a, rest) => next a rest
  | (.error e, rest) => (.error e, rest)

instance : Monad Reader where
  pure := Reader.pure
  bind := Reader.bind

@[simp] theorem run_pure (a : α) (b : Bytes) : (pure a : Reader α).run b = (.ok a, b) := rfl

@[simp] theorem run_fail (e : WireError) (b : Bytes) :
    (fail e : Reader α).run b = (.error e, b) := rfl

theorem run_bind (r : Reader α) (next : α → Reader β) (b : Bytes) :
    (r >>= next).run b = match r.run b with
      | (.ok a, rest) => (next a).run rest
      | (.error e, rest) => (.error e, rest) := rfl

theorem run_bind_of_ok {r : Reader α} {b rest : Bytes} {a : α} (h : r.run b = (.ok a, rest))
    (next : α → Reader β) : (r >>= next).run b = (next a).run rest := by
  rw [run_bind, h]

theorem run_bind_of_error {r : Reader α} {b rest : Bytes} {e : WireError}
    (h : r.run b = (.error e, rest)) (next : α → Reader β) :
    (r >>= next).run b = (.error e, rest) := by
  rw [run_bind, h]

/-- How many bytes are left. -/
def remaining : Reader Nat := fun b => (.ok b.length, b)

/-- The next `n` bytes. -/
def octets (n : Nat) : Reader (Octets n) := fun b =>
  if h : (b.take n).length = n then (.ok ⟨b.take n, h⟩, b.drop n)
  else (.error (.unexpectedEnd n b.length), b)

theorem run_octets_append {n : Nat} (o : Octets n) (rest : Bytes) :
    (octets n).run (o.bytes ++ rest) = (.ok o, rest) := by
  have hle : n ≤ o.bytes.length := Nat.le_of_eq o.length_eq.symm
  have hge : o.bytes.length ≤ n := Nat.le_of_eq o.length_eq
  have ht : (o.bytes ++ rest).take n = o.bytes := by
    rw [List.take_append_of_le_length hle, List.take_of_length_le hge]
  have hd : (o.bytes ++ rest).drop n = rest := by
    rw [List.drop_append_of_le_length hle, List.drop_of_length_le hge, List.nil_append]
  simp [run, octets, ht, hd, o.length_eq]

theorem run_octets_short {n : Nat} {b : Bytes} (h : b.length < n) :
    (octets n).run b = (.error (.unexpectedEnd n b.length), b) := by
  have : (b.take n).length ≠ n := by simp only [List.length_take]; omega
  simp only [run, octets, this, dif_neg, not_false_iff]

/-- The next `n` bytes. -/
def take (n : Nat) : Reader Bytes := do return (← octets n).bytes

/-- The next `width` bytes as a number, least significant byte first. -/
def littleEndian (width : Nat) : Reader Nat := do return (← take width).ofLittleEndian

/-- The next `width` bytes as a number, most significant byte first. -/
def bigEndian (width : Nat) : Reader Nat := do return (← take width).ofBigEndian

def u8 : Reader UInt8 := do return UInt8.ofNat (← littleEndian 1)

/-- One byte, which is false only when it is zero. -/
def bool : Reader Bool := do return (← u8) != 0

def u16le : Reader UInt16 := do return UInt16.ofNat (← littleEndian 2)

def u16be : Reader UInt16 := do return UInt16.ofNat (← bigEndian 2)

def u32le : Reader UInt32 := do return UInt32.ofNat (← littleEndian 4)

def u64le : Reader UInt64 := do return UInt64.ofNat (← littleEndian 8)

/-- Eight bytes as a two's complement number. -/
def i64le : Reader Int64 := do return (← u64le).toInt64

/-- Read as often as counted. -/
def times (r : Reader α) : Nat → Reader (List α)
  | 0 => pure []
  | n + 1 => do
    let a ← r
    let as ← times r n
    return a :: as

end Reader

end PeerCrawl
