import PeerCrawl.Crawl.Frontier

set_option autoImplicit false

/-! # What a frontier accepts

A frontier accepts of every host the first address that it is offered, and nothing else:
`Accepts offered accepted` says so of a sequence of offers, and `Accepts.offer` that each further
offer keeps it. What an offer accepts waits behind everything else (`Frontier.offer_appends`). The
order of offers decides which address of a host is accepted and where it waits, but not which hosts
are (`Frontier.offerAll_perm`). -/

namespace PeerCrawl

namespace Address

theorem sameHost_iff {a b : Address} : a.sameHost b = true ↔ a.raw = b.raw := beq_iff_eq

end Address

/-- Of every host, the address that was offered first was accepted, in the order of the offers. -/
structure Accepts (offered accepted : List Address) : Prop where
  sublist : accepted.Sublist offered
  distinct : accepted.Pairwise fun a b => a.raw ≠ b.raw
  first : ∀ a ∈ accepted, offered.find? (fun b => b.sameHost a) = some a
  complete : ∀ a ∈ offered, ∃ b ∈ accepted, b.raw = a.raw

namespace Frontier

variable {f g k : Frontier} {a b : Address}

theorem knows_iff : f.knows a = true ↔ ∃ b ∈ f.accepted, b.raw = a.raw := by
  rw [knows, List.any_eq_true]
  simp only [Address.sameHost_iff]

theorem knows_iff_mem : f.knows a = true ↔ a.raw ∈ f.accepted.map Address.raw := by
  rw [knows_iff, List.mem_map]

/-! ## Offers -/

theorem offer_of_knows (h : f.knows a = true) : (f.offer a).frontier = f := by
  rw [offer, if_pos h]

theorem offer_of_new (h : ¬ f.knows a = true) :
    (f.offer a).frontier =
      { f with accepted := f.accepted ++ [a], pending := f.pending ++ [a] } := by
  rw [offer, if_neg h]

/-- What offers accept is new in the memory and at the end of what waits. -/
def Appends (f g : Frontier) (fresh : List Address) : Prop :=
  g.accepted = f.accepted ++ fresh ∧ g.pending = f.pending ++ fresh

theorem offer_appends (f : Frontier) (a : Address) :
    ∃ fresh, f.Appends (f.offer a).frontier fresh := by
  by_cases h : f.knows a = true
  · rw [offer_of_knows h]
    exact ⟨[], (List.append_nil _).symm, (List.append_nil _).symm⟩
  · rw [offer_of_new h]
    exact ⟨[a], rfl, rfl⟩

theorem offerAll_appends (f : Frontier) (offers : List Address) :
    ∃ fresh, f.Appends (f.offerAll offers).frontier fresh := by
  induction offers generalizing f with
  | nil => exact ⟨[], (List.append_nil _).symm, (List.append_nil _).symm⟩
  | cons a rest ih =>
    obtain ⟨first, haccepted, hpending⟩ := f.offer_appends a
    obtain ⟨later, haccepted', hpending'⟩ := ih (f.offer a).frontier
    refine ⟨first ++ later, ?_, ?_⟩
    · rw [offerAll, haccepted', haccepted, List.append_assoc]
    · rw [offerAll, hpending', hpending, List.append_assoc]

theorem offerAll_append (f : Frontier) (offers more : List Address) :
    (f.offerAll (offers ++ more)).frontier =
      ((f.offerAll offers).frontier.offerAll more).frontier := by
  induction offers generalizing f with
  | nil => rfl
  | cons a rest ih => exact ih (f.offer a).frontier

/-! ## The order of offers -/

/-- Two frontiers have accepted the same hosts, and the same hosts wait in them. -/
structure SameHosts (f g : Frontier) : Prop where
  accepted : (f.accepted.map Address.raw).Perm (g.accepted.map Address.raw)
  pending : (f.pending.map Address.raw).Perm (g.pending.map Address.raw)

theorem SameHosts.refl (f : Frontier) : f.SameHosts f := ⟨List.Perm.refl _, List.Perm.refl _⟩

theorem SameHosts.trans (h : f.SameHosts g) (h' : g.SameHosts k) : f.SameHosts k :=
  ⟨h.accepted.trans h'.accepted, h.pending.trans h'.pending⟩

/-- Addresses of one host meet with the same answer at both frontiers. -/
theorem SameHosts.knows (h : f.SameHosts g) (hraw : a.raw = b.raw) :
    f.knows a = true ↔ g.knows b = true := by
  rw [knows_iff_mem, knows_iff_mem, h.accepted.mem_iff, hraw]

theorem SameHosts.offer (h : f.SameHosts g) (hraw : a.raw = b.raw) :
    (f.offer a).frontier.SameHosts (g.offer b).frontier := by
  by_cases hknown : f.knows a = true
  · rw [offer_of_knows hknown, offer_of_knows ((h.knows hraw).1 hknown)]
    exact h
  · rw [offer_of_new hknown, offer_of_new (mt (h.knows hraw).2 hknown)]
    refine ⟨?_, ?_⟩
    · rw [List.map_append, List.map_append, List.map_singleton, List.map_singleton, hraw]
      exact h.accepted.append_right _
    · rw [List.map_append, List.map_append, List.map_singleton, List.map_singleton, hraw]
      exact h.pending.append_right _

theorem SameHosts.offerAll (h : f.SameHosts g) (offers : List Address) :
    (f.offerAll offers).frontier.SameHosts (g.offerAll offers).frontier := by
  induction offers generalizing f g with
  | nil => exact h
  | cons a rest ih => exact ih (h.offer rfl)

/-- An offer makes no other host known. -/
theorem knows_offer_other (h : a.raw ≠ b.raw) :
    (f.offer a).frontier.knows b = true ↔ f.knows b = true := by
  by_cases hknown : f.knows a = true
  · rw [offer_of_knows hknown]
  · rw [offer_of_new hknown, knows_iff_mem, knows_iff_mem, List.map_append, List.mem_append,
      List.map_singleton, List.mem_singleton, or_iff_left h.symm]

/-- Of two offers, either may come first: the one that comes second is accepted all the same, unless
both name one host. -/
theorem offer_comm (f : Frontier) (a b : Address) :
    ((f.offer a).frontier.offer b).frontier.SameHosts ((f.offer b).frontier.offer a).frontier := by
  by_cases hraw : a.raw = b.raw
  · exact ((SameHosts.refl f).offer hraw).offer hraw.symm
  · have hb' : (f.offer a).frontier.knows b = true ↔ f.knows b = true := knows_offer_other hraw
    have ha' : (f.offer b).frontier.knows a = true ↔ f.knows a = true :=
      knows_offer_other (Ne.symm hraw)
    by_cases ha : f.knows a = true
    · rw [offer_of_knows ha, offer_of_knows (ha'.2 ha)]
      exact SameHosts.refl _
    · by_cases hb : f.knows b = true
      · rw [offer_of_knows hb, offer_of_knows (hb'.2 hb)]
        exact SameHosts.refl _
      · rw [offer_of_new (mt hb'.1 hb), offer_of_new ha, offer_of_new (mt ha'.1 ha),
          offer_of_new hb]
        simp only [List.append_assoc]
        exact ⟨((List.Perm.swap b a []).append_left f.accepted).map Address.raw,
          ((List.Perm.swap b a []).append_left f.pending).map Address.raw⟩

/-- Whatever the order of offers, the same hosts are accepted, and the same hosts wait then. -/
theorem offerAll_perm {offers offers' : List Address} (h : offers.Perm offers') (f : Frontier) :
    (f.offerAll offers).frontier.SameHosts (f.offerAll offers').frontier := by
  induction h generalizing f with
  | nil => exact SameHosts.refl f
  | cons a _ ih => exact ih (f.offer a).frontier
  | swap a b rest => exact (f.offer_comm b a).offerAll rest
  | trans _ _ ih ih' => exact (ih f).trans (ih' f)

end Frontier

namespace Accepts

variable {offered : List Address} {f : Frontier}

theorem nil : Accepts [] [] :=
  ⟨List.Sublist.slnil, List.Pairwise.nil, by simp, by simp⟩

theorem find?_append {accepted : List Address} (h : Accepts offered accepted)
    (more : List Address) :
    ∀ a ∈ accepted, (offered ++ more).find? (fun b => b.sameHost a) = some a := by
  intro a ha
  rw [List.find?_append, h.first a ha]
  rfl

/-- A host that was accepted before is not accepted again. -/
theorem again {accepted : List Address} (h : Accepts offered accepted) {a : Address}
    (hknown : ∃ b ∈ accepted, b.raw = a.raw) : Accepts (offered ++ [a]) accepted := by
  refine ⟨h.sublist.trans (List.sublist_append_left _ _), h.distinct, h.find?_append [a], ?_⟩
  intro b hb
  rcases List.mem_append.1 hb with hold | hnew
  · exact h.complete b hold
  · rw [List.mem_singleton.1 hnew]
    exact hknown

/-- A host that was not accepted before was not offered before either. -/
theorem fresh {accepted : List Address} (h : Accepts offered accepted) {a : Address}
    (hnew : ¬ ∃ b ∈ accepted, b.raw = a.raw) : Accepts (offered ++ [a]) (accepted ++ [a]) := by
  -- had its host been offered before, one of that host would have been accepted
  have hnone : offered.find? (fun b => b.sameHost a) = none := by
    rw [List.find?_eq_none]
    intro b hb hsame
    obtain ⟨c, hc, hraw⟩ := h.complete b hb
    exact hnew ⟨c, hc, hraw.trans (Address.sameHost_iff.1 hsame)⟩
  refine ⟨h.sublist.append_right [a], ?_, ?_, ?_⟩
  · rw [List.pairwise_append]
    refine ⟨h.distinct, List.pairwise_singleton _ _, ?_⟩
    intro b hb c hc hraw
    rw [List.mem_singleton.1 hc] at hraw
    exact hnew ⟨b, hb, hraw⟩
  · intro b hb
    rcases List.mem_append.1 hb with hold | hlast
    · exact h.find?_append [a] b hold
    · rw [List.mem_singleton.1 hlast, List.find?_append, hnone, Option.none_or]
      exact List.find?_cons_of_pos (Address.sameHost_iff.2 rfl)
  · intro b hb
    rcases List.mem_append.1 hb with hold | hlast
    · obtain ⟨c, hc, hraw⟩ := h.complete b hold
      exact ⟨c, List.mem_append_left _ hc, hraw⟩
    · exact ⟨a, List.mem_append_right _ (List.mem_singleton_self a),
        by rw [List.mem_singleton.1 hlast]⟩

theorem offer (h : Accepts offered f.accepted) (a : Address) :
    Accepts (offered ++ [a]) (f.offer a).frontier.accepted := by
  by_cases hknown : f.knows a = true
  · rw [Frontier.offer_of_knows hknown]
    exact h.again (Frontier.knows_iff.1 hknown)
  · rw [Frontier.offer_of_new hknown]
    exact h.fresh fun hex => hknown (Frontier.knows_iff.2 hex)

theorem offerAll (h : Accepts offered f.accepted) (offers : List Address) :
    Accepts (offered ++ offers) (f.offerAll offers).frontier.accepted := by
  induction offers generalizing f offered with
  | nil => rw [List.append_nil]; exact h
  | cons a rest ih =>
    have hrest := ih (h.offer a)
    rw [List.append_assoc] at hrest
    exact hrest

end Accepts

end PeerCrawl
