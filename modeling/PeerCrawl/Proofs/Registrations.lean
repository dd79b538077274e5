import Mathlib.Data.List.Nodup
import PeerCrawl.Proofs.CallHistory

set_option autoImplicit false

/-! # Sockets that are registered

`NetworkStack.Tracks` says of the live connections, given by their slots, that they are exactly
those whose sockets are registered, and that no socket and no tag was registered twice. Calls that
neither register nor forget anything keep it, and there is one lemma for each way in which a slot
comes or goes. What it says about single sockets follows: each that was registered is forgotten once
its connection is gone (`NetworkStack.Tracks.count_forgotten`), and no other ever is. -/

namespace PeerCrawl

namespace NetworkStack

/-- The slots are the sockets that are registered, with their tags. The next socket and the next tag
come after all that were registered so far, successfully or not. -/
structure Tracks (n : NetworkStack) (slots : List (Nat × Tag)) (nextTag : Nat) : Prop where
  registered : n.registered = slots
  increasing : n.attempts.Pairwise fun a b => a.1 < b.1 ∧ a.2.number < b.2.number
  bounded : ∀ slot ∈ n.attempts, slot.1 < n.opened ∧ slot.2.number < nextTag
  once : n.deregistrations.Nodup
  known : ∀ socket ∈ n.deregistrations, socket ∈ n.registrations.map Prod.fst

variable {n n' : NetworkStack} {slots : List (Nat × Tag)} {slot : Nat × Tag} {nextTag : Nat}

namespace Tracks

/-! ## Single sockets -/

theorem sublist (h : n.Tracks slots nextTag) : slots.Sublist n.attempts := by
  rw [← h.registered]
  exact n.registered_sublist

theorem sockets_nodup (h : n.Tracks slots nextTag) : (n.attempts.map Prod.fst).Nodup := by
  rw [List.Nodup, List.pairwise_map]
  exact h.increasing.imp fun hlt => Nat.ne_of_lt hlt.1

theorem tags_nodup (h : n.Tracks slots nextTag) : (n.attempts.map Prod.snd).Nodup := by
  rw [List.Nodup, List.pairwise_map]
  refine h.increasing.imp ?_
  intro a b hlt heq
  exact Nat.ne_of_lt hlt.2 (congrArg Tag.number heq)

/-- A live connection is known by its socket as well as by its tag. -/
theorem socket_iff_tag (h : n.Tracks slots nextTag) {slot' : Nat × Tag} (hslot : slot ∈ slots)
    (hslot' : slot' ∈ slots) : slot.1 = slot'.1 ↔ slot.2 = slot'.2 := by
  have hmem := h.sublist.subset hslot
  have hmem' := h.sublist.subset hslot'
  constructor
  · intro heq
    rw [List.inj_on_of_nodup_map h.sockets_nodup hmem hmem' heq]
  · intro heq
    rw [List.inj_on_of_nodup_map h.tags_nodup hmem hmem' heq]

/-- A socket that was registered is forgotten once if its connection is gone, and never before. -/
theorem count_forgotten (h : n.Tracks slots nextTag) (hslot : slot ∈ n.registrations) :
    n.deregistrations.count slot.1 = if slot.2 ∈ slots.map Prod.snd then 0 else 1 := by
  have hlive : slot ∈ slots ↔ slot.1 ∉ n.deregistrations := by
    rw [← h.registered, NetworkStack.registered, List.mem_filter]
    simp [hslot]
  split
  · next htag =>
    obtain ⟨slot', hslot', htag⟩ := List.mem_map.1 htag
    have heq : slot' = slot := List.inj_on_of_nodup_map h.tags_nodup (h.sublist.subset hslot')
      (n.registrations_sublist.subset hslot) htag
    rw [heq] at hslot'
    exact List.count_eq_zero_of_not_mem (hlive.1 hslot')
  · next htag =>
    refine List.count_eq_one_of_mem h.once (not_not.1 fun hnot => htag ?_)
    exact List.mem_map_of_mem (hlive.2 hnot)

theorem not_forgotten_of_rejected (h : n.Tracks slots nextTag) (hslot : slot ∈ n.rejections) :
    slot.1 ∉ n.deregistrations := by
  intro hmem
  have hnodup := h.sockets_nodup
  rw [← (n.registrations_append_rejections.map Prod.fst).nodup_iff, List.map_append] at hnodup
  exact List.disjoint_of_nodup_append hnodup (h.known _ hmem) (List.mem_map_of_mem hslot)

/-! ## Calls -/

/-- Calls that neither register nor forget anything. -/
theorem of_same (h : n.Tracks slots nextTag) (hattempts : n'.attempts = n.attempts)
    (hregistrations : n'.registrations = n.registrations)
    (hderegistrations : n'.deregistrations = n.deregistrations) (hopened : n'.opened = n.opened) :
    n'.Tracks slots nextTag := by
  refine ⟨?_, ?_, ?_, ?_, ?_⟩
  · rw [NetworkStack.registered, hregistrations, hderegistrations]
    exact h.registered
  · rw [hattempts]
    exact h.increasing
  · rw [hattempts, hopened]
    exact h.bounded
  · rw [hderegistrations]
    exact h.once
  · rw [hderegistrations, hregistrations]
    exact h.known

/-- A connection is closed. -/
theorem of_forgotten (h : n.Tracks slots nextTag) {socket : Nat} {tag : Tag}
    (hslot : (socket, tag) ∈ slots) (hattempts : n'.attempts = n.attempts)
    (hregistrations : n'.registrations = n.registrations)
    (hderegistrations : n'.deregistrations = n.deregistrations ++ [socket])
    (hopened : n'.opened = n.opened) : n'.Tracks (slots.filter (·.2 ≠ tag)) nextTag := by
  have hregistered : (socket, tag) ∈ n.registered := by
    rw [h.registered]
    exact hslot
  obtain ⟨hknown, hnew⟩ := List.mem_filter.1 hregistered
  refine ⟨?_, ?_, ?_, ?_, ?_⟩
  · have hsame : n'.registered = n.registered.filter fun r => r.1 ≠ socket := by
      rw [NetworkStack.registered, hregistrations, hderegistrations, NetworkStack.registered,
        List.filter_filter]
      refine List.filter_congr fun r _ => ?_
      simp [not_or, and_comm]
    rw [hsame, h.registered]
    refine List.filter_congr fun r hr => ?_
    rw [decide_eq_decide, not_iff_not]
    exact h.socket_iff_tag hr hslot
  · rw [hattempts]
    exact h.increasing
  · rw [hattempts, hopened]
    exact h.bounded
  · rw [hderegistrations]
    exact h.once.append (List.nodup_singleton _) (List.disjoint_singleton.2 (by simpa using hnew))
  · rw [hderegistrations, hregistrations]
    intro other hmem
    rcases List.mem_append.1 hmem with hold | hlast
    · exact h.known other hold
    · rw [List.mem_singleton.1 hlast]
      exact List.mem_map_of_mem hknown

theorem increasing_append (h : n.Tracks slots nextTag) :
    (n.attempts ++ [(n.opened, (⟨nextTag⟩ : Tag))]).Pairwise fun a b =>
      a.1 < b.1 ∧ a.2.number < b.2.number := by
  rw [List.pairwise_append]
  refine ⟨h.increasing, List.pairwise_singleton _ _, ?_⟩
  intro slot hslot last hlast
  rw [List.mem_singleton.1 hlast]
  exact h.bounded slot hslot

theorem bounded_append (h : n.Tracks slots nextTag) :
    ∀ slot ∈ n.attempts ++ [(n.opened, (⟨nextTag⟩ : Tag))],
      slot.1 < n.opened + 1 ∧ slot.2.number < nextTag + 1 := by
  intro slot hslot
  rcases List.mem_append.1 hslot with hold | hlast
  · have hlt := h.bounded slot hold
    exact ⟨Nat.lt_succ_of_lt hlt.1, Nat.lt_succ_of_lt hlt.2⟩
  · rw [List.mem_singleton.1 hlast]
    exact ⟨Nat.lt_succ_self _, Nat.lt_succ_self _⟩

/-- The registration of a new connection fails. -/
theorem of_rejected (h : n.Tracks slots nextTag)
    (hattempts : n'.attempts = n.attempts ++ [(n.opened, ⟨nextTag⟩)])
    (hregistrations : n'.registrations = n.registrations)
    (hderegistrations : n'.deregistrations = n.deregistrations)
    (hopened : n'.opened = n.opened + 1) : n'.Tracks slots (nextTag + 1) := by
  refine ⟨?_, ?_, ?_, ?_, ?_⟩
  · rw [NetworkStack.registered, hregistrations, hderegistrations]
    exact h.registered
  · rw [hattempts]
    exact h.increasing_append
  · rw [hattempts, hopened]
    exact h.bounded_append
  · rw [hderegistrations]
    exact h.once
  · rw [hderegistrations, hregistrations]
    exact h.known

/-- A new connection is registered. -/
theorem of_registered (h : n.Tracks slots nextTag)
    (hattempts : n'.attempts = n.attempts ++ [(n.opened, ⟨nextTag⟩)])
    (hregistrations : n'.registrations = n.registrations ++ [(n.opened, ⟨nextTag⟩)])
    (hderegistrations : n'.deregistrations = n.deregistrations)
    (hopened : n'.opened = n.opened + 1) :
    n'.Tracks (slots ++ [(n.opened, ⟨nextTag⟩)]) (nextTag + 1) := by
  -- the new socket was not forgotten, for it was not registered before
  have hnew : n.opened ∉ n.deregistrations := by
    intro hmem
    obtain ⟨slot, hslot, hsocket⟩ := List.mem_map.1 (h.known _ hmem)
    exact Nat.ne_of_lt (h.bounded slot (n.registrations_sublist.subset hslot)).1 hsocket
  refine ⟨?_, ?_, ?_, ?_, ?_⟩
  · rw [NetworkStack.registered, hregistrations, hderegistrations, List.filter_append,
      List.filter_cons_of_pos (by simpa using hnew), List.filter_nil,
      ← NetworkStack.registered, h.registered]
  · rw [hattempts]
    exact h.increasing_append
  · rw [hattempts, hopened]
    exact h.bounded_append
  · rw [hderegistrations]
    exact h.once
  · rw [hderegistrations, hregistrations, List.map_append]
    intro socket hmem
    exact List.mem_append_left _ (h.known socket hmem)

end Tracks

end NetworkStack

end PeerCrawl
