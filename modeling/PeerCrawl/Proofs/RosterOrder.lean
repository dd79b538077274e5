import Mathlib.Data.List.Nodup
import PeerCrawl.Crawl.Roster

set_option autoImplicit false

/-! # Rosters in order

A roster to which connections were only added, and from which they were only removed, is
`Roster.Ordered`: its connections stand under increasing tags, the order of eviction names exactly
those, and the next tag is above all of them. Then a tag has one connection at most
(`Roster.get?_of_mem`), the first connection is the oldest one (`Roster.Ordered.without_first`), and
who is live under which tag leaves nothing else open (`Roster.Ordered.eq_of_get?`). -/

namespace PeerCrawl

namespace Roster

variable {r : Roster} {tag other : Tag} {c : Connection}

/-! ## Looking up -/

/-- The tags of the live connections. -/
def tags (r : Roster) : List Tag := r.connections.map Prod.fst

theorem mem_of_get? (h : r.get? tag = some c) : (tag, c) ∈ r.connections := by
  obtain ⟨entry, hfind, rfl⟩ := Option.map_eq_some_iff.1 h
  have htag : entry.1 = tag := by simpa using List.find?_some hfind
  rw [← htag]
  exact List.mem_of_find?_eq_some hfind

theorem mem_tags_of_get? (h : r.get? tag = some c) : tag ∈ r.tags :=
  List.mem_map_of_mem (mem_of_get? h)

theorem get?_eq_none_iff : r.get? tag = none ↔ tag ∉ r.tags := by
  rw [get?, Option.map_eq_none_iff, List.find?_eq_none, tags, List.mem_map]
  constructor
  · rintro h ⟨entry, hmem, htag⟩
    exact h entry hmem (decide_eq_true htag)
  · intro h entry hmem htag
    exact h ⟨entry, hmem, of_decide_eq_true htag⟩

theorem get?_of_mem (h : r.tags.Nodup) (hmem : (tag, c) ∈ r.connections) :
    r.get? tag = some c := by
  cases hget : r.get? tag with
  | none => exact absurd (List.mem_map_of_mem hmem) (get?_eq_none_iff.1 hget)
  | some c' =>
    have heq := List.inj_on_of_nodup_map h (mem_of_get? hget) hmem rfl
    rw [(Prod.mk.inj heq).2]

/-! ## Changing one connection -/

theorem get?_modify_self (h : r.get? tag = some c) (change : Connection → Connection) :
    (r.modify tag change).get? tag = some (change c) := by
  obtain ⟨connections, eviction, nextTag⟩ := r
  simp only [get?, modify] at h ⊢
  induction connections with
  | nil => exact absurd h (by simp)
  | cons entry rest ih =>
    by_cases htag : entry.1 = tag
    · rw [List.find?_cons_of_pos (by simpa using htag), Option.map_some, Option.some.injEq] at h
      rw [List.map_cons, if_pos htag, List.find?_cons_of_pos (by simp), ← h]
      rfl
    · rw [List.find?_cons_of_neg (by simpa using htag)] at h
      rw [List.map_cons, if_neg htag, List.find?_cons_of_neg (by simpa using htag)]
      exact ih h

theorem get?_modify_other (h : other ≠ tag) (change : Connection → Connection) :
    (r.modify tag change).get? other = r.get? other := by
  obtain ⟨connections, eviction, nextTag⟩ := r
  simp only [get?, modify]
  induction connections with
  | nil => rfl
  | cons entry rest ih =>
    rw [List.map_cons]
    by_cases htag : entry.1 = tag
    · have hother : ¬ entry.1 = other := fun heq => h (heq.symm.trans htag)
      rw [if_pos htag, List.find?_cons_of_neg (by simpa using h.symm),
        List.find?_cons_of_neg (by simpa using hother)]
      exact ih
    · rw [if_neg htag]
      by_cases hother : entry.1 = other
      · rw [List.find?_cons_of_pos (by simpa using hother),
          List.find?_cons_of_pos (by simpa using hother)]
      · rw [List.find?_cons_of_neg (by simpa using hother),
          List.find?_cons_of_neg (by simpa using hother)]
        exact ih

theorem tags_modify (r : Roster) (tag : Tag) (change : Connection → Connection) :
    (r.modify tag change).tags = r.tags := by
  rw [tags, modify, List.map_map, tags]
  refine List.map_congr_left fun entry _ => ?_
  by_cases h : entry.1 = tag <;> simp [h]

theorem get?_modify (r : Roster) (tag : Tag) (change : Connection → Connection) (other : Tag) :
    (r.modify tag change).get? other =
      (r.get? other).map fun c => if tag = other then change c else c := by
  by_cases h : tag = other
  · subst h
    cases hget : r.get? tag with
    | none =>
      rw [get?_eq_none_iff] at hget
      rw [Option.map_none, get?_eq_none_iff, tags_modify]
      exact hget
    | some c => rw [get?_modify_self hget, Option.map_some, if_pos rfl]
  · rw [get?_modify_other (Ne.symm h)]
    simp [h]

/-! ## Removing -/

/-- The roster without a connection. -/
def without (r : Roster) (tag : Tag) : Roster :=
  { r with
    connections := r.connections.filter (·.1 ≠ tag), eviction := r.eviction.erase tag }

theorem remove_of_get? (h : r.get? tag = some c) : r.remove tag = (some c, r.without tag) := by
  rw [remove, h]
  rfl

theorem get?_without_self (r : Roster) (tag : Tag) : (r.without tag).get? tag = none := by
  rw [get?_eq_none_iff, tags, without]
  simp

theorem get?_without_other (h : other ≠ tag) : (r.without tag).get? other = r.get? other := by
  rw [get?, get?, without, List.find?_filter]
  refine congrArg (fun found => (r.connections.find? found).map Prod.snd) ?_
  funext entry
  by_cases hother : entry.1 = other
  · simp [hother, h]
  · simp [hother]

/-! ## Order -/

/-- What adding and removing connections keeps true of a roster. -/
structure Ordered (r : Roster) : Prop where
  eviction : r.eviction = r.tags
  increasing : r.tags.Pairwise fun a b => a.number < b.number
  bounded : ∀ tag ∈ r.tags, tag.number < r.nextTag

theorem Ordered.nodup (h : r.Ordered) : r.tags.Nodup :=
  h.increasing.imp fun hlt heq => Nat.ne_of_lt hlt (congrArg Tag.number heq)

theorem tags_without (r : Roster) (tag : Tag) :
    (r.without tag).tags = r.tags.filter (· ≠ tag) := by
  rw [tags, without, tags, List.filter_map]
  rfl

theorem ordered_without (h : r.Ordered) (tag : Tag) : (r.without tag).Ordered := by
  refine ⟨?_, ?_, ?_⟩
  · rw [tags_without, Roster.without, h.eviction, h.nodup.erase_eq_filter]
    refine List.filter_congr fun other _ => ?_
    by_cases heq : other = tag <;> simp [heq]
  · rw [tags_without]
    exact h.increasing.filter _
  · intro other hmem
    rw [tags_without] at hmem
    exact h.bounded other (List.mem_filter.1 hmem).1

/-- The tag that is given next belongs to nobody yet. -/
theorem Ordered.next_fresh (h : r.Ordered) : (⟨r.nextTag⟩ : Tag) ∉ r.tags := fun hmem =>
  Nat.lt_irrefl _ (h.bounded _ hmem)

/-- A connection that was just added is found. -/
theorem get?_add_self (h : (⟨r.nextTag⟩ : Tag) ∉ r.tags) (c : Connection) :
    (r.add c).2.get? ⟨r.nextTag⟩ = some c := by
  have hnone := get?_eq_none_iff.2 h
  rw [get?, Option.map_eq_none_iff] at hnone
  rw [get?, add, List.find?_append, hnone, Option.none_or,
    List.find?_cons_of_pos (by simp)]
  rfl

theorem Ordered.get?_add (h : r.Ordered) (c : Connection) :
    (r.add c).2.get? ⟨r.nextTag⟩ = some c :=
  get?_add_self h.next_fresh c

theorem get?_add_other (h : other ≠ ⟨r.nextTag⟩) (c : Connection) :
    (r.add c).2.get? other = r.get? other := by
  rw [get?, add, List.find?_append, List.find?_cons_of_neg (by simpa using h.symm),
    List.find?_nil, Option.or_none]
  rfl

/-- Removing a connection that was just added undoes all but the tag. -/
theorem Ordered.without_add (h : r.Ordered) (c : Connection) :
    (r.add c).2.without ⟨r.nextTag⟩ = { r with nextTag := r.nextTag + 1 } := by
  have hconnections : r.connections.filter (·.1 ≠ ⟨r.nextTag⟩) = r.connections :=
    List.filter_eq_self.2 fun entry hmem => decide_eq_true fun heq =>
      h.next_fresh (heq ▸ List.mem_map_of_mem hmem)
  have heviction : (⟨r.nextTag⟩ : Tag) ∉ r.eviction := h.eviction ▸ h.next_fresh
  rw [without, add]
  simp only [List.filter_append, hconnections, List.erase_append_right _ heviction]
  simp

/-- The first connection is the oldest one, and the one that is evicted first. -/
theorem Ordered.without_first (h : r.Ordered) {rest : List (Tag × Connection)}
    (hr : r.connections = (tag, c) :: rest) :
    r.evict = (some tag, { r with eviction := r.eviction.tail }) ∧
      { r with eviction := r.eviction.tail }.without tag = r.without tag ∧
      (r.without tag).connections = rest ∧ ∀ entry ∈ rest, tag.number < entry.1.number := by
  have htags : r.tags = tag :: rest.map Prod.fst := by rw [tags, hr, List.map_cons]
  have hincreasing := h.increasing
  have hnodup := h.nodup
  rw [htags] at hincreasing hnodup
  have hnot : tag ∉ rest.map Prod.fst := (List.nodup_cons.1 hnodup).1
  have heviction : r.eviction = tag :: rest.map Prod.fst := h.eviction.trans htags
  refine ⟨?_, ?_, ?_, ?_⟩
  · rw [evict, heviction]
    rfl
  · rw [without, without, heviction, List.tail_cons, List.erase_cons_head,
      List.erase_of_not_mem hnot]
  · rw [without, hr, List.filter_cons_of_neg (by simp)]
    exact List.filter_eq_self.2 fun entry hmem => decide_eq_true fun heq =>
      hnot (heq ▸ List.mem_map_of_mem hmem)
  · intro entry hmem
    exact (List.pairwise_cons.1 hincreasing).1 entry.1 (List.mem_map_of_mem hmem)

theorem Ordered.connections_increasing (h : r.Ordered) :
    r.connections.Pairwise fun a b => a.1.number < b.1.number := by
  have hincreasing := h.increasing
  rw [tags, List.pairwise_map] at hincreasing
  exact hincreasing

/-- Rosters in order are the same if the same connections are live in both. -/
theorem Ordered.eq_of_get? {r' : Roster} (h : r.Ordered) (h' : r'.Ordered)
    (hget : ∀ tag, r.get? tag = r'.get? tag) (hnext : r.nextTag = r'.nextTag) : r = r' := by
  have hmem : ∀ entry, entry ∈ r.connections ↔ entry ∈ r'.connections := fun (tag, c) =>
    ⟨fun hin => mem_of_get? ((hget tag).symm.trans (get?_of_mem h.nodup hin)),
      fun hin => mem_of_get? ((hget tag).trans (get?_of_mem h'.nodup hin))⟩
  have hperm : r.connections.Perm r'.connections :=
    (List.perm_ext_iff_of_nodup (List.Nodup.of_map _ h.nodup) (List.Nodup.of_map _ h'.nodup)).2 hmem
  have hconnections : r.connections = r'.connections :=
    hperm.eq_of_pairwise (fun _ _ _ _ hlt hgt => absurd hgt (Nat.lt_asymm hlt))
      h.connections_increasing h'.connections_increasing
  have heviction : r.eviction = r'.eviction := by
    rw [h.eviction, h'.eviction, tags, tags, hconnections]
  calc
    r = ⟨r.connections, r.eviction, r.nextTag⟩ := rfl
    _ = r' := by rw [hconnections, heviction, hnext]

end Roster

end PeerCrawl
