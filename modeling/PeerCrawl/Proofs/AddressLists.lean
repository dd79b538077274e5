import PeerCrawl.Proofs.CompactSizes

set_option autoImplicit false

/-! # The grammar of address lists

A byte string reads as a list of addresses just if it starts with the writing of that list, and the
list is one that the encoding can carry: at most a thousand records, without scopes, with services,
and with times exactly where the version has them. Otherwise the failure says what is wrong: the
count is above the limit, or written too wide, or bytes are missing
(`Reader.addressList_grammar`). -/

namespace PeerCrawl

/-! ## Records -/

theorem AddressEncoding.includesTime_gossip {v : ProtocolVersion} :
    (AddressEncoding.gossip v).includesTime = true ↔ ProtocolVersion.addressTime ≤ v := by
  rw [includesTime, gossip, Bool.true_and, Bool.false_or]
  exact decide_eq_true_iff

/-- An encoding keeps an address as it is if that has no scope, but services, and a time just if the
encoding has one. -/
theorem Address.recorded_eq_self {a : Address} {e : AddressEncoding} :
    a.recorded e = a ↔ a.scope = 0 ∧ a.services.isSome = true ∧
      (a.time.isSome = true ↔ e.includesTime = true) := by
  obtain ⟨raw, port, scope, services, time⟩ := a
  simp only [recorded, servicesOrNone, Address.mk.injEq, true_and, eq_comm (a := (0 : UInt32))]
  refine and_congr_right fun _ => and_congr ?_ ?_
  · cases services <;> simp
  · cases e.includesTime <;> cases time <;> simp

/-! ## What bytes start with -/

namespace Wire

/-- The bytes start with the writing of a list that a version can carry as it is. -/
structure HoldsList (v : ProtocolVersion) (l : List Address) (b : Bytes) : Prop where
  few : l.length ≤ maxAddresses
  kept : ∀ a ∈ l, a.scope = 0 ∧ a.services.isSome = true ∧
    (a.time.isSome = true ↔ ProtocolVersion.addressTime ≤ v)
  written : addressList l v <+: b

/-- The bytes start with the compact size of a number above the limit of records. -/
def Overfull (b : Bytes) (n : Nat) : Prop :=
  maxAddresses < n ∧ ∃ count : UInt64, count.toNat = n ∧ compactSize count <+: b

end Wire

/-! ## Reading records -/

namespace Reader

variable {α : Type} {b rest : Bytes} {v : ProtocolVersion} {l : List Address} {n : Nat}

theorem run_recordAfter_eq_ok {time : Option UInt32} {a : Address}
    (h : (recordAfter time).run b = (.ok a, rest)) : a.time = time ∧
      b = Wire.u64le a.servicesOrNone.bits ++ a.raw.bytes ++ Wire.u16be a.port ++ rest := by
  obtain ⟨services, mid, hservices, h⟩ := run_bind_eq_ok h
  obtain ⟨raw, mid', hraw, h⟩ := run_bind_eq_ok h
  obtain ⟨port, mid'', hport, h⟩ := run_bind_eq_ok h
  rw [run_pure, Prod.mk.injEq, Except.ok.injEq] at h
  obtain ⟨rfl, rfl⟩ := h
  refine ⟨rfl, ?_⟩
  rw [u64le_undoes _ _ _ hservices, octets_undoes 16 _ _ _ hraw, u16be_undoes _ _ _ hport]
  simp only [Address.servicesOrNone, Option.getD_some, List.append_assoc]

theorem addressRecord_undoes (e : AddressEncoding) :
    (addressRecord e).Undoes fun a => Wire.addressRecord a e := by
  intro b a rest h
  rw [addressRecord_eq] at h
  show b = (if e.includesTime = true then _ else _) ++ _ ++ _ ++ _ ++ rest
  split at h
  · next hincludes =>
    obtain ⟨time, mid, htime, h⟩ := run_bind_eq_ok h
    obtain ⟨t, mid', ht, hpure⟩ := run_bind_eq_ok htime
    rw [run_pure, Prod.mk.injEq, Except.ok.injEq] at hpure
    obtain ⟨rfl, rfl⟩ := hpure
    obtain ⟨hsome, hmid⟩ := run_recordAfter_eq_ok h
    rw [if_pos hincludes, hsome, Option.getD_some, u32le_undoes b t mid' ht, hmid]
    simp only [List.append_assoc]
  · next hincludes =>
    rw [if_neg hincludes, List.nil_append]
    exact (run_recordAfter_eq_ok h).2

/-! ## Repeated reads -/

theorem run_times_eq_ok {r : Reader α} {write : α → Bytes} (h : r.Undoes write) {n : Nat}
    {as : List α} (hrun : (times r n).run b = (.ok as, rest)) :
    as.length = n ∧ b = as.flatMap write ++ rest := by
  induction n generalizing b as rest with
  | zero =>
    rw [times, run_pure, Prod.mk.injEq, Except.ok.injEq] at hrun
    rw [← hrun.1, ← hrun.2]
    exact ⟨rfl, rfl⟩
  | succ n ih =>
    obtain ⟨a, mid, ha, hrun⟩ := run_bind_eq_ok hrun
    obtain ⟨later, mid', hlater, hrun⟩ := run_bind_eq_ok hrun
    rw [run_pure, Prod.mk.injEq, Except.ok.injEq] at hrun
    obtain ⟨hlength, hmid⟩ := ih hlater
    rw [← hrun.1, ← hrun.2, h b a mid ha, hmid, hlength.symm]
    exact ⟨rfl, by rw [List.flatMap_cons, List.append_assoc]⟩

theorem times_takes {r : Reader α} {write : α → Bytes} {f : α → α}
    (h : ∀ a, r.Takes (write a) (f a)) (as : List α) :
    (times r as.length).Takes (as.flatMap write) (as.map f) := by
  induction as with
  | nil => exact .pure []
  | cons a as ih => exact (h a).bind (ih.bind_pure _)

/-! ## Lists -/

/-- A list reads as what the encoding keeps of its records. -/
theorem addressList_takes {l : List Address} (h : l.length ≤ Wire.maxAddresses) :
    (addressList v).Takes (Wire.addressList l v) (l.map fun a => a.recorded (.gossip v)) := by
  have hcount : (UInt64.ofNat l.length).toNat = l.length :=
    UInt64.toNat_ofNat_of_lt' (Nat.lt_of_le_of_lt h (by decide))
  refine (compactSize_takes _).bind ?_
  rw [hcount, if_neg (Nat.not_lt.2 h)]
  exact times_takes (fun a => addressRecord_takes a (.gossip v)) l

theorem run_addressList_eq_ok {l : List Address} (h : (addressList v).run b = (.ok l, rest)) :
    l.length ≤ Wire.maxAddresses ∧ b = Wire.addressList l v ++ rest := by
  obtain ⟨count, mid, hcount, hrun⟩ := run_bind_eq_ok h
  have hb := compactSize_undoes b count mid hcount
  split at hrun
  · exact absurd hrun (by simp)
  · next hfew =>
    obtain ⟨hlength, hmid⟩ := run_times_eq_ok (addressRecord_undoes (.gossip v)) hrun
    rw [hlength]
    refine ⟨Nat.le_of_not_lt hfew, ?_⟩
    rw [hb, hmid, Wire.addressList, hlength, UInt64.ofNat_toNat, List.append_assoc]

theorem value_addressList_of_compactSize {e : WireError} (h : compactSize.value b = .error e) :
    (addressList v).value b = .error e := by
  have hrun : compactSize.run b = (.error e, (compactSize.run b).2) := Prod.ext h rfl
  rw [value, addressList, run_bind_of_error hrun]

theorem value_addressList_of_overlong (h : Wire.Overlong b n) :
    (addressList v).value b = .error (.nonCanonicalVarInt n) :=
  value_addressList_of_compactSize (value_compactSize_of_overlong h)

/-- The count alone is above the limit. -/
theorem value_addressList_of_overfull (h : Wire.Overfull b n) :
    (addressList v).value b = .error (.tooManyAddresses n) := by
  obtain ⟨hmany, count, rfl, rest, rfl⟩ := h
  rw [value, addressList, run_bind_of_ok (compactSize_takes count rest), if_pos hmany, run_fail]

theorem value_addressList_of_holdsList (h : Wire.HoldsList v l b) :
    (addressList v).value b = .ok l := by
  obtain ⟨rest, hb⟩ := h.written
  have hkept : ∀ a ∈ l, a.recorded (.gossip v) = id a := fun a ha => by
    rw [id, Address.recorded_eq_self, AddressEncoding.includesTime_gossip]
    exact h.kept a ha
  rw [value, ← hb, addressList_takes h.few rest, List.map_congr_left hkept, List.map_id]

theorem holdsList_of_value_addressList (h : (addressList v).value b = .ok l) :
    Wire.HoldsList v l b := by
  have hrun : (addressList v).run b = (.ok l, ((addressList v).run b).2) := Prod.ext h rfl
  obtain ⟨hfew, hb⟩ := run_addressList_eq_ok hrun
  refine ⟨hfew, ?_, _, hb.symm⟩
  -- the same bytes read as what is kept of the records
  have hkept := addressList_takes (v := v) hfew ((addressList v).run b).2
  rw [← hb, hrun, Prod.mk.injEq, Except.ok.injEq] at hkept
  intro a ha
  rw [← AddressEncoding.includesTime_gossip, ← Address.recorded_eq_self]
  exact (List.map_inj_left.1 (hkept.1.symm.trans l.map_id.symm)) a ha

/-- Bytes, and what they read as. -/
inductive Listed (v : ProtocolVersion) (b : Bytes) : Except WireError (List Address) → Prop
  | complete (l : List Address) (h : Wire.HoldsList v l b) : Listed v b (.ok l)
  | overfull (n : Nat) (h : Wire.Overfull b n) : Listed v b (.error (.tooManyAddresses n))
  | overlong (n : Nat) (h : Wire.Overlong b n) : Listed v b (.error (.nonCanonicalVarInt n))
  | cut (needed remaining : Nat) : Listed v b (.error (.unexpectedEnd needed remaining))

theorem listed (v : ProtocolVersion) (b : Bytes) : Listed v b ((addressList v).value b) := by
  cases sized b with
  | overlong n h =>
    rw [value_addressList_of_overlong h]
    exact .overlong n h
  | cut e h hend =>
    obtain ⟨needed, remaining, rfl⟩ := hend
    rw [value_addressList_of_compactSize h]
    exact .cut needed remaining
  | complete count rest hb =>
    by_cases hmany : Wire.maxAddresses < count.toNat
    · have hfull : Wire.Overfull b count.toNat := ⟨hmany, count, rfl, rest, hb.symm⟩
      rw [value_addressList_of_overfull hfull]
      exact .overfull count.toNat hfull
    · have hvalue : (addressList v).value b =
          (times (addressRecord (.gossip v)) count.toNat).value rest := by
        rw [hb, value, addressList, run_bind_of_ok (compactSize_takes count rest), if_neg hmany,
          value]
      cases hrecords : (times (addressRecord (.gossip v)) count.toNat).value rest with
      | ok l =>
        rw [hrecords] at hvalue
        rw [hvalue]
        exact .complete l (holdsList_of_value_addressList hvalue)
      | error e =>
        obtain ⟨needed, remaining, rfl⟩ :=
          ((addressRecord_failsOnly (.gossip v)).times count.toNat).value hrecords
        rw [hvalue, hrecords]
        exact .cut needed remaining

theorem value_addressList_eq_ok : (addressList v).value b = .ok l ↔ Wire.HoldsList v l b :=
  ⟨holdsList_of_value_addressList, value_addressList_of_holdsList⟩

theorem value_addressList_eq_tooMany :
    (addressList v).value b = .error (.tooManyAddresses n) ↔ Wire.Overfull b n := by
  refine ⟨fun h => ?_, value_addressList_of_overfull⟩
  have hlisted := listed v b
  rw [h] at hlisted
  cases hlisted with
  | overfull _ hfull => exact hfull

theorem value_addressList_eq_nonCanonical :
    (addressList v).value b = .error (.nonCanonicalVarInt n) ↔ Wire.Overlong b n := by
  refine ⟨fun h => ?_, value_addressList_of_overlong⟩
  have hlisted := listed v b
  rw [h] at hlisted
  cases hlisted with
  | overlong _ hlong => exact hlong

theorem value_addressList_eq_end :
    (∃ needed remaining, (addressList v).value b = .error (.unexpectedEnd needed remaining)) ↔
      (∀ l, ¬ Wire.HoldsList v l b) ∧ (∀ n, ¬ Wire.Overfull b n) ∧ ∀ n, ¬ Wire.Overlong b n := by
  simp only [← value_addressList_eq_ok, ← value_addressList_eq_tooMany (v := v),
    ← value_addressList_eq_nonCanonical (v := v)]
  constructor
  · rintro ⟨needed, remaining, h⟩
    rw [h]
    exact ⟨nofun, nofun, nofun⟩
  · rintro ⟨hok, hmany, hlong⟩
    generalize hresult : (addressList v).value b = result
    cases (hresult ▸ listed v b : Listed v b result) with
    | complete l _ => exact absurd hresult (hok l)
    | overfull n _ => exact absurd hresult (hmany n)
    | overlong n _ => exact absurd hresult (hlong n)
    | cut needed remaining => exact ⟨needed, remaining, rfl⟩

/-- **The grammar of address lists.** At a protocol version, bytes read as a list of addresses just
if they start with the writing of that list, which has at most a thousand records, each without a
scope, with services, and with a time just if the version has times. They are refused for the number
of records just if they start with the compact size of a number above a thousand, and for the form
of that number just if they start with one in a wider form; in all other cases bytes are missing. So
a list of at most a thousand addresses reads back without scopes, with no services where they were
not known, and, where the version has times, with a usual time where it was not known. -/
theorem addressList_grammar (v : ProtocolVersion) :
    (∀ b,
      (∀ l, (addressList v).value b = .ok l ↔ Wire.HoldsList v l b) ∧
        (∀ n, (addressList v).value b = .error (.tooManyAddresses n) ↔ Wire.Overfull b n) ∧
        (∀ n, (addressList v).value b = .error (.nonCanonicalVarInt n) ↔ Wire.Overlong b n) ∧
        ((∃ needed remaining,
            (addressList v).value b = .error (.unexpectedEnd needed remaining)) ↔
          (∀ l, ¬ Wire.HoldsList v l b) ∧ (∀ n, ¬ Wire.Overfull b n) ∧
            ∀ n, ¬ Wire.Overlong b n)) ∧
      ∀ l : List Address, l.length ≤ Wire.maxAddresses →
        (addressList v).value (Wire.addressList l v) = .ok (l.map fun a => {
          raw := a.raw, port := a.port, scope := 0
          services := some (a.services.getD Services.none)
          time :=
            if ProtocolVersion.addressTime ≤ v then some (a.time.getD 100000000) else none }) := by
  refine ⟨fun b => ?_, fun l hfew => ?_⟩
  · exact ⟨fun _ => value_addressList_eq_ok, fun _ => value_addressList_eq_tooMany,
      fun _ => value_addressList_eq_nonCanonical, value_addressList_eq_end⟩
  · rw [(addressList_takes hfew).value]
    simp only [Address.recorded, AddressEncoding.includesTime_gossip]
    rfl

end Reader

end PeerCrawl
