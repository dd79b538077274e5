import PeerCrawl.Proofs.FrontierTraffic

set_option autoImplicit false

/-! # Hosts are IP addresses

Each sixteen byte form is that of one IP address (`Ip.octets16_ofOctets16`), so to compare two
addresses by their bytes is to compare their IP addresses (`Address.sameHost_iff_ip`,
`Address.compareHost_eq_iff`). Of the other direction, only the mapped range falls short: there a
version 6 address has the bytes of a version 4 address, and is taken for that one
(`Ip.ofOctets16_of_mapped`). So a frontier accepts every IP address that it is offered, and accepts
it once (`Address.hosts_are_ips`). -/

namespace PeerCrawl

theorem Bytes.compare_eq_iff {a b : Bytes} : a.compare b = .eq ↔ a = b := by
  induction a generalizing b with
  | nil => cases b <;> simp [Bytes.compare]
  | cons x xs ih =>
    cases b with
    | nil => simp [Bytes.compare]
    | cons y ys =>
      rw [Bytes.compare, List.cons.injEq]
      split
      · next hlt => simp [UInt8.ne_of_lt hlt]
      · next hge =>
        split
        · next hgt => simp [(UInt8.ne_of_lt hgt).symm]
        · next hle =>
          have heq : x = y := UInt8.le_antisymm (UInt8.not_lt.1 hle) (UInt8.not_lt.1 hge)
          rw [ih, and_iff_right heq]

/-! ## Sixteen byte forms -/

namespace Ip

variable {raw : Octets 16} {o : Octets 4}

theorem take_mapped (h : raw.bytes = mappedLead ++ o.bytes) : raw.bytes.take 12 = mappedLead := by
  rw [h]
  exact List.take_left' rfl

theorem drop_mapped (h : raw.bytes = mappedLead ++ o.bytes) : raw.bytes.drop 12 = o.bytes := by
  rw [h]
  exact List.drop_left' rfl

theorem isMapped_iff : isMapped raw = true ↔ ∃ o : Octets 4, raw.bytes = mappedLead ++ o.bytes := by
  rw [isMapped, beq_iff_eq]
  constructor
  · intro h
    refine ⟨⟨raw.bytes.drop 12, by simp [raw.length_eq]⟩, ?_⟩
    rw [← h, List.take_append_drop]
  · rintro ⟨o, h⟩
    exact take_mapped h

/-- A mapped form is that of a version 4 address. -/
theorem ofOctets16_of_mapped (h : raw.bytes = mappedLead ++ o.bytes) : ofOctets16 raw = v4 o := by
  rw [ofOctets16, if_pos (isMapped_iff.2 ⟨o, h⟩), v4.injEq]
  exact Octets.ext_bytes (drop_mapped h)

theorem ofOctets16_of_not_mapped (h : ∀ o : Octets 4, raw.bytes ≠ mappedLead ++ o.bytes) :
    ofOctets16 raw = v6 raw := by
  rw [ofOctets16, if_neg]
  rw [isMapped_iff]
  rintro ⟨o, ho⟩
  exact h o ho

/-- A sixteen byte form is that of its address. -/
theorem octets16_ofOctets16 (raw : Octets 16) : (ofOctets16 raw).octets16 = raw := by
  by_cases h : ∃ o : Octets 4, raw.bytes = mappedLead ++ o.bytes
  · obtain ⟨o, ho⟩ := h
    rw [ofOctets16_of_mapped ho]
    exact Octets.ext_bytes ho.symm
  · rw [ofOctets16_of_not_mapped (not_exists.1 h)]
    rfl

theorem ofOctets16_inj {raw' : Octets 16} : ofOctets16 raw = ofOctets16 raw' ↔ raw = raw' := by
  refine ⟨fun h => ?_, congrArg ofOctets16⟩
  rw [← octets16_ofOctets16 raw, h, octets16_ofOctets16]

end Ip

namespace Address

variable {a b : Address} {o : Octets 4} {raw : Octets 16}

/-! ## Hosts -/

theorem ip_eq_iff : a.ip = b.ip ↔ a.raw = b.raw := Ip.ofOctets16_inj

theorem sameHost_iff_ip : a.sameHost b = true ↔ a.ip = b.ip := sameHost_iff.trans ip_eq_iff.symm

theorem compareHost_eq_iff : a.compareHost b = .eq ↔ a.ip = b.ip := by
  rw [compareHost, Bytes.compare_eq_iff, ip_eq_iff]
  exact ⟨Octets.ext_bytes, congrArg Octets.bytes⟩

theorem raw_ofIp_ip (a : Address) (port : UInt16) : (ofIp a.ip port).raw = a.raw :=
  Ip.octets16_ofOctets16 a.raw

/-! ## Endpoints -/

theorem ip_ofEndpoint_v4 (o : Octets 4) (port : UInt16) : (ofEndpoint (.v4 o port)).ip = .v4 o :=
  Ip.ofOctets16_of_mapped rfl

theorem ip_ofEndpoint_mapped (h : raw.bytes = Ip.mappedLead ++ o.bytes) (port : UInt16)
    (flow scope : UInt32) : (ofEndpoint (.v6 raw port flow scope)).ip = .v4 o :=
  Ip.ofOctets16_of_mapped h

theorem ip_ofEndpoint_v6 (h : ∀ o : Octets 4, raw.bytes ≠ Ip.mappedLead ++ o.bytes) (port : UInt16)
    (flow scope : UInt32) : (ofEndpoint (.v6 raw port flow scope)).ip = .v6 raw :=
  Ip.ofOctets16_of_not_mapped h

theorem endpoint_of_ip_v4 (h : a.ip = .v4 o) : a.endpoint = .v4 o a.port := by
  rw [endpoint, h]

theorem endpoint_of_ip_v6 (h : a.ip = .v6 raw) : a.endpoint = .v6 raw a.port 0 a.scope := by
  rw [endpoint, h]

theorem ofEndpoint_endpoint (a : Address) :
    (ofEndpoint a.endpoint).raw = a.raw ∧ (ofEndpoint a.endpoint).port = a.port := by
  have hraw := Ip.octets16_ofOctets16 a.raw
  cases h : a.ip with
  | v4 o =>
    rw [endpoint_of_ip_v4 h]
    exact ⟨(congrArg Ip.octets16 h).symm.trans hraw, rfl⟩
  | v6 o =>
    rw [endpoint_of_ip_v6 h]
    exact ⟨(congrArg Ip.octets16 h).symm.trans hraw, rfl⟩

end Address

/-! ## Frontiers -/

theorem Frontier.offer_fresh_iff (f : Frontier) (a : Address) :
    (f.offer a).fresh = true ↔ ∀ b ∈ f.accepted, b.ip ≠ a.ip := by
  rcases f.offer_cases a with ⟨hknown, hfresh, -, -⟩ | ⟨hnew, hfresh, -, -⟩
  · obtain ⟨b, hb, hraw⟩ := Frontier.knows_iff.1 hknown
    rw [hfresh]
    exact iff_of_false Bool.false_ne_true fun h => h b hb (Address.ip_eq_iff.2 hraw)
  · rw [hfresh]
    refine iff_of_true rfl fun b hb hip => hnew ?_
    exact Frontier.knows_iff.2 ⟨b, hb, Address.ip_eq_iff.1 hip⟩

/-- The IP addresses that are accepted are those that were offered, each once. -/
theorem Accepts.ips {offered accepted : List Address} (h : Accepts offered accepted) :
    (accepted.map Address.ip).Nodup ∧
      ∀ ip, ip ∈ accepted.map Address.ip ↔ ip ∈ offered.map Address.ip := by
  constructor
  · exact List.pairwise_map.2 (h.distinct.imp fun hraw hip => hraw (Address.ip_eq_iff.1 hip))
  · intro ip
    rw [List.mem_map, List.mem_map]
    constructor
    · rintro ⟨a, ha, rfl⟩
      exact ⟨a, h.sublist.subset ha, rfl⟩
    · rintro ⟨a, ha, rfl⟩
      obtain ⟨b, hb, hraw⟩ := h.complete a ha
      exact ⟨b, hb, Address.ip_eq_iff.2 hraw⟩

namespace Address

/-- **Hosts are IP addresses.** Let addresses come from anywhere.

* Two of them name one host, and are equal in the order of hosts, just if they have the same IP
  address; and this, with any port, makes an address with the same bytes.
* An endpoint of version 4 comes back from its address, and so does one of version 6 with its scope,
  but without its flow label; only if it lies in the mapped range, the version 4 endpoint that it
  stands for comes back. The endpoint of an address makes an address with the same bytes and the
  same port.
* An endpoint of the mapped range has the IP address of the version 4 endpoint. A frontier accepts
  an offer just if it has not accepted its IP address before, so that, whatever its callers do, it
  has accepted the IP addresses that were offered, each once. -/
theorem hosts_are_ips :
    (∀ a b : Address, (a.sameHost b = true ↔ a.ip = b.ip) ∧
      (a.compareHost b = .eq ↔ a.ip = b.ip)) ∧
    (∀ (a : Address) port, (ofIp a.ip port).raw = a.raw) ∧
    (∀ o port, (ofEndpoint (.v4 o port)).endpoint = .v4 o port) ∧
    (∀ (raw : Octets 16) port flow scope,
      (∀ o : Octets 4, raw.bytes ≠ Ip.mappedLead ++ o.bytes) →
        (ofEndpoint (.v6 raw port flow scope)).endpoint = .v6 raw port 0 scope) ∧
    (∀ (raw : Octets 16) (o : Octets 4), raw.bytes = Ip.mappedLead ++ o.bytes →
      ∀ port flow scope, (ofEndpoint (.v6 raw port flow scope)).endpoint = .v4 o port ∧
        ∀ port', (ofEndpoint (.v6 raw port flow scope)).ip = (ofEndpoint (.v4 o port')).ip) ∧
    (∀ a : Address, (ofEndpoint a.endpoint).raw = a.raw ∧
      (ofEndpoint a.endpoint).port = a.port) ∧
    (∀ (f : Frontier) a, (f.offer a).fresh = true ↔ ∀ b ∈ f.accepted, b.ip ≠ a.ip) ∧
    ∀ reporting accesses,
      let x := (Exchange.fresh reporting).run accesses
      let accepted := x.shared.frontier.accepted.map Address.ip
      accepted.Nodup ∧ ∀ ip, ip ∈ accepted ↔ ip ∈ (offersIn x.log).map Address.ip := by
  refine ⟨fun a b => ⟨sameHost_iff_ip, compareHost_eq_iff⟩, raw_ofIp_ip, ?_, ?_, ?_,
    ofEndpoint_endpoint, Frontier.offer_fresh_iff, ?_⟩
  · intro o port
    exact endpoint_of_ip_v4 (ip_ofEndpoint_v4 o port)
  · intro raw port flow scope h
    exact endpoint_of_ip_v6 (ip_ofEndpoint_v6 h port flow scope)
  · intro raw o h port flow scope
    have hip := ip_ofEndpoint_mapped h port flow scope
    exact ⟨endpoint_of_ip_v4 hip, fun port' => hip.trans (ip_ofEndpoint_v4 o port').symm⟩
  · intro reporting accesses x
    have h : x.Consistent reporting := (Exchange.consistent_fresh reporting).run accesses
    rw [h.accepted]
    exact h.offered.ips

/-- A link-local endpoint keeps its scope, and one of the mapped range becomes that of version 4,
whose host is then known. -/
theorem hosts_are_ips_mapped :
    let near : Octets 16 := ⟨[0xFE, 0x80, 0, 0, 0, 0, 0, 0, 0, 0, 0, 0, 0, 0, 0, 1], rfl⟩
    let o : Octets 4 := ⟨[203, 0, 113, 9], rfl⟩
    let mapped : Octets 16 := (Ip.v4 o).octets16
    let f := ({} : Frontier).offer (ofEndpoint (.v4 o 8333))
    (∀ o : Octets 4, near.bytes ≠ Ip.mappedLead ++ o.bytes) ∧
      (ofEndpoint (.v6 near 8333 0 3)).endpoint = .v6 near 8333 0 3 ∧
      mapped.bytes = Ip.mappedLead ++ o.bytes ∧
      (ofEndpoint (.v6 mapped 18333 0 3)).endpoint = .v4 o 18333 ∧
      ¬ (f.frontier.offer (ofEndpoint (.v6 mapped 18333 0 3))).fresh = true := by
  intro near o mapped f
  obtain ⟨-, -, -, hkept, hmapped, -, hoffer, -⟩ := hosts_are_ips
  have hnear : ∀ o : Octets 4, near.bytes ≠ Ip.mappedLead ++ o.bytes := fun o h =>
    absurd (List.cons.inj h).1 (by decide)
  obtain ⟨hendpoint, hip⟩ := hmapped mapped o rfl 18333 0 3
  refine ⟨hnear, hkept near 8333 0 3 hnear, rfl, hendpoint, ?_⟩
  rw [hoffer]
  exact fun h => h _ List.mem_cons_self (hip 8333).symm

end Address

end PeerCrawl
