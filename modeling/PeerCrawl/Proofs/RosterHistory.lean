import PeerCrawl.Proofs.RosterOrder

set_option autoImplicit false

/-! # The history of a roster

Connections are added to a roster, named for eviction, changed and removed in any order, and naming
one for eviction does not remove it. `Roster.answerAll` makes such calls and keeps what each has
answered. The answers account for the roster (`Roster.AccountedBy`): for the tags that are live, for
those that are still to be evicted, and for the connection that each stands for. Every call keeps
that (`Roster.AccountedBy.answer`), so it holds after any calls (`Roster.accounted_by_history`). -/

namespace PeerCrawl

/-- A call to a roster. -/
inductive RosterCall where
  | add (connection : Connection)
  | evict
  | remove (tag : Tag)
  /-- Change the connection with a tag in place, if it is live. -/
  | modify (tag : Tag) (change : Connection → Connection)

/-- A call that was made, and what it answered. -/
inductive RosterRecord where
  | add (connection : Connection) (tag : Tag)
  | evict (tag : Option Tag)
  | remove (tag : Tag) (connection : Option Connection)
  | modify (tag : Tag) (change : Connection → Connection) (connection : Option Connection)

namespace Roster

/-- Make a call. -/
def answer (r : Roster) : RosterCall → RosterRecord × Roster
  | .add c => (.add c (r.add c).1, (r.add c).2)
  | .evict => (.evict r.evict.1, r.evict.2)
  | .remove tag => (.remove tag (r.remove tag).1, (r.remove tag).2)
  | .modify tag change => (.modify tag change (r.get? tag), r.modify tag change)

/-- Make calls one after the other. -/
def answerAll (r : Roster) : List RosterCall → List RosterRecord × Roster
  | [] => ([], r)
  | call :: calls =>
    let first := r.answer call
    let others := first.2.answerAll calls
    (first.1 :: others.1, others.2)

end Roster

namespace RosterRecord

/-! ## Views of a history -/

/-- The tag under which a connection was added. -/
def issued? : RosterRecord → Option Tag
  | add _ tag => some tag
  | evict _ | remove _ _ | modify _ _ _ => none

/-- The tag that was named for eviction. -/
def evicted? : RosterRecord → Option Tag
  | evict tag => tag
  | add _ _ | remove _ _ | modify _ _ _ => none

/-- The tag whose connection was removed; a call that finds nothing removes nothing. -/
def removed? : RosterRecord → Option Tag
  | remove tag connection => connection.map fun _ => tag
  | add _ _ | evict _ | modify _ _ _ => none

/-- What a call makes of the connection with a tag, as long as that is live. -/
def changeOf (tag : Tag) : RosterRecord → Connection → Connection
  | modify other change _, c => if other = tag then change c else c
  | add _ _, c | evict _, c | remove _ _, c => c

/-- The tags under which connections were added, in order. -/
def issued (history : List RosterRecord) : List Tag := history.filterMap issued?

/-- The tags that were named for eviction, in order. -/
def evicted (history : List RosterRecord) : List Tag := history.filterMap evicted?

/-- The tags whose connections were removed, in order. -/
def removed (history : List RosterRecord) : List Tag := history.filterMap removed?

/-- A connection after the changes that were made to the one with its tag. -/
def changed (tag : Tag) (history : List RosterRecord) (c : Connection) : Connection :=
  history.foldl (fun c record => record.changeOf tag c) c

theorem issued_append (h₁ h₂ : List RosterRecord) :
    issued (h₁ ++ h₂) = issued h₁ ++ issued h₂ := List.filterMap_append

theorem evicted_append (h₁ h₂ : List RosterRecord) :
    evicted (h₁ ++ h₂) = evicted h₁ ++ evicted h₂ := List.filterMap_append

theorem removed_append (h₁ h₂ : List RosterRecord) :
    removed (h₁ ++ h₂) = removed h₁ ++ removed h₂ := List.filterMap_append

theorem changed_append (tag : Tag) (h₁ h₂ : List RosterRecord) (c : Connection) :
    changed tag (h₁ ++ h₂) c = changed tag h₂ (changed tag h₁ c) := List.foldl_append

theorem evicted_singleton (tag : Option Tag) : evicted [evict tag] = tag.toList := by
  cases tag <;> rfl

theorem mem_issued_of_add (before after : List RosterRecord) (c : Connection) (tag : Tag) :
    tag ∈ issued (before ++ add c tag :: after) := by
  rw [issued_append]
  exact List.mem_append_right _ List.mem_cons_self

end RosterRecord

namespace Roster

open RosterRecord

variable {r r' : Roster} {history : List RosterRecord} {record : RosterRecord} {tag other : Tag}

/-! ## What a history accounts for -/

/-- The history accounts for the roster. Tags are issued in order; those whose connections were not
removed are live, and those that were not named either are still to be evicted. The connection of a
live tag is the one that was added under it, with the changes that were made since. -/
structure AccountedBy (r : Roster) (history : List RosterRecord) : Prop where
  issued_eq : issued history = (List.range r.nextTag).map Tag.mk
  tags_eq : r.tags = (issued history).filter (· ∉ removed history)
  eviction_eq : r.eviction = r.tags.filter (· ∉ evicted history)
  evicted_issued : evicted history ⊆ issued history
  removed_issued : removed history ⊆ issued history
  removed_nodup : (removed history).Nodup
  denoted : ∀ before c tag after, history = before ++ .add c tag :: after →
    r.get? tag = if tag ∈ removed after then none else some (changed tag after c)

theorem accountedBy_nil : ({} : Roster).AccountedBy [] where
  issued_eq := rfl
  tags_eq := rfl
  eviction_eq := rfl
  evicted_issued := List.nil_subset _
  removed_issued := List.nil_subset _
  removed_nodup := List.nodup_nil
  denoted := fun before c tag after h => absurd h.symm (by simp)

namespace AccountedBy

theorem increasing (h : r.AccountedBy history) :
    (issued history).Pairwise fun a b => a.number < b.number := by
  rw [h.issued_eq, List.pairwise_map]
  exact List.pairwise_lt_range

theorem issued_nodup (h : r.AccountedBy history) : (issued history).Nodup :=
  h.increasing.imp fun hlt heq => Nat.ne_of_lt hlt (congrArg Tag.number heq)

theorem eviction_nodup (h : r.AccountedBy history) : r.eviction.Nodup := by
  rw [h.eviction_eq, h.tags_eq]
  exact (h.issued_nodup.filter _).filter _

theorem eviction_erase (h : r.AccountedBy history) (tag : Tag) :
    r.eviction.erase tag = r.eviction.filter (· ≠ tag) := by
  rw [h.eviction_nodup.erase_eq_filter]
  exact List.filter_congr fun other _ => by simp [bne, beq_eq_decide]

/-- The tag that is given next was not issued before. -/
theorem next_fresh (h : r.AccountedBy history) : (⟨r.nextTag⟩ : Tag) ∉ issued history := by
  rw [h.issued_eq, List.mem_map]
  rintro ⟨number, hmem, heq⟩
  rw [Tag.mk.inj heq] at hmem
  exact Nat.lt_irrefl _ (List.mem_range.1 hmem)

theorem live_iff (h : r.AccountedBy history) :
    (r.get? tag).isSome ↔ tag ∈ issued history ∧ tag ∉ removed history := by
  rw [← not_iff_not, Option.not_isSome_iff_eq_none, get?_eq_none_iff, h.tags_eq, List.mem_filter,
    decide_eq_true_eq]

theorem mem_eviction_iff (h : r.AccountedBy history) :
    tag ∈ r.eviction ↔ (r.get? tag).isSome ∧ tag ∉ evicted history := by
  rw [h.eviction_eq, h.live_iff, h.tags_eq, List.mem_filter, List.mem_filter, decide_eq_true_eq,
    decide_eq_true_eq]

theorem eviction_increasing (h : r.AccountedBy history) :
    r.eviction.Pairwise fun a b => a.number < b.number := by
  rw [h.eviction_eq, h.tags_eq]
  exact (h.increasing.filter _).filter _

theorem count_eq (h : r.AccountedBy history) :
    r.count + (removed history).length = (issued history).length := by
  -- the tags that were issued are those that are live and those that were removed
  have hgone : ((issued history).filter fun tag => !decide (tag ∉ removed history)).Perm
      (removed history) := by
    refine (List.perm_ext_iff_of_nodup (h.issued_nodup.filter _) h.removed_nodup).2 fun tag => ?_
    simp only [List.mem_filter, decide_not, Bool.not_not, decide_eq_true_eq]
    exact ⟨And.right, fun hmem => ⟨h.removed_issued hmem, hmem⟩⟩
  have hlength := (List.filter_append_perm (· ∉ removed history) (issued history)).length_eq
  rw [List.length_append, hgone.length_eq, ← h.tags_eq] at hlength
  rw [← hlength, count, Roster.tags, List.length_map]

/-! ## What every call keeps -/

theorem filter_notMem_append (l a b : List Tag) :
    l.filter (· ∉ a ++ b) = (l.filter (· ∉ a)).filter (· ∉ b) := by
  rw [List.filter_filter]
  refine List.filter_congr fun tag _ => ?_
  simp [not_or, Bool.and_comm]

/-- One more call was made: it may have added a connection, removed one, or changed some. -/
theorem denoted_concat (h : r.AccountedBy history)
    (hadded : ∀ c tag, record = .add c tag → r'.get? tag = some c)
    (hremoved : ∀ tag ∈ removed [record], r'.get? tag = none)
    (hkept : ∀ tag ∈ issued history, tag ∉ removed [record] →
      r'.get? tag = (r.get? tag).map (record.changeOf tag)) :
    ∀ before c tag after, history ++ [record] = before ++ .add c tag :: after →
      r'.get? tag = if tag ∈ removed after then none else some (changed tag after c) := by
  intro before c tag after heq
  rcases List.eq_nil_or_concat after with rfl | ⟨earlier, last, rfl⟩
  · obtain ⟨-, hlast⟩ := List.append_inj' heq rfl
    exact hadded c tag (List.cons.inj hlast).1
  · rw [List.concat_eq_append] at heq ⊢
    have hsplit : history ++ [record] = (before ++ .add c tag :: earlier) ++ [last] := by
      rw [heq, List.append_assoc, List.cons_append]
    obtain ⟨hhistory, hlast⟩ := List.append_inj' hsplit rfl
    obtain rfl := (List.cons.inj hlast).1
    have hissued : tag ∈ issued history := by
      rw [hhistory]
      exact mem_issued_of_add before earlier c tag
    rw [removed_append, changed_append]
    by_cases hnow : tag ∈ removed [record]
    · rw [hremoved tag hnow, if_pos (List.mem_append_right _ hnow)]
    · rw [hkept tag hissued hnow, h.denoted before c tag earlier hhistory]
      by_cases hearlier : tag ∈ removed earlier
      · rw [if_pos hearlier, if_pos (List.mem_append_left _ hearlier)]
        rfl
      · rw [if_neg hearlier, if_neg (by simp [hearlier, hnow])]
        rfl

/-- A call that adds, names and removes nothing. -/
theorem of_silent (h : r.AccountedBy history) (hissued : issued [record] = [])
    (hevicted : evicted [record] = []) (hremoved : removed [record] = [])
    (hnext : r'.nextTag = r.nextTag) (htags : r'.tags = r.tags)
    (heviction : r'.eviction = r.eviction)
    (hget : ∀ tag, r'.get? tag = (r.get? tag).map (record.changeOf tag)) :
    r'.AccountedBy (history ++ [record]) := by
  have hissued' : issued (history ++ [record]) = issued history := by
    rw [issued_append, hissued, List.append_nil]
  have hevicted' : evicted (history ++ [record]) = evicted history := by
    rw [evicted_append, hevicted, List.append_nil]
  have hremoved' : removed (history ++ [record]) = removed history := by
    rw [removed_append, hremoved, List.append_nil]
  refine ⟨?_, ?_, ?_, ?_, ?_, ?_, ?_⟩
  · rw [hissued', hnext, h.issued_eq]
  · rw [htags, hissued', hremoved', h.tags_eq]
  · rw [heviction, htags, hevicted', h.eviction_eq]
  · rw [hevicted', hissued']
    exact h.evicted_issued
  · rw [hremoved', hissued']
    exact h.removed_issued
  · rw [hremoved']
    exact h.removed_nodup
  · refine h.denoted_concat (fun c tag heq => ?_) (fun tag hmem => ?_) fun tag _ _ => hget tag
    · rw [heq] at hissued
      cases hissued
    · rw [hremoved] at hmem
      cases hmem

theorem add (h : r.AccountedBy history) (c : Connection) :
    (r.add c).2.AccountedBy (history ++ [.add c (r.add c).1]) := by
  have hfresh := h.next_fresh
  have hissued : issued (history ++ [.add c (r.add c).1]) = issued history ++ [⟨r.nextTag⟩] :=
    issued_append _ _
  have hevicted : evicted (history ++ [.add c (r.add c).1]) = evicted history :=
    (evicted_append _ _).trans (List.append_nil _)
  have hremoved : removed (history ++ [.add c (r.add c).1]) = removed history :=
    (removed_append _ _).trans (List.append_nil _)
  have htags : (r.add c).2.tags = r.tags ++ [⟨r.nextTag⟩] := List.map_append
  -- nothing was said of the new tag before
  have hnotEvicted : (⟨r.nextTag⟩ : Tag) ∉ evicted history := fun hmem =>
    hfresh (h.evicted_issued hmem)
  have hnotRemoved : (⟨r.nextTag⟩ : Tag) ∉ removed history := fun hmem =>
    hfresh (h.removed_issued hmem)
  have hnotLive : (⟨r.nextTag⟩ : Tag) ∉ r.tags := by
    rw [h.tags_eq]
    exact fun hmem => hfresh (List.mem_filter.1 hmem).1
  refine ⟨?_, ?_, ?_, ?_, ?_, ?_, ?_⟩
  · show _ = (List.range (r.nextTag + 1)).map Tag.mk
    rw [hissued, h.issued_eq, List.range_succ, List.map_append]
    rfl
  · rw [htags, hissued, hremoved, List.filter_append, h.tags_eq,
      List.filter_cons_of_pos (by simpa using hnotRemoved), List.filter_nil]
  · rw [htags, hevicted, List.filter_append, ← h.eviction_eq,
      List.filter_cons_of_pos (by simpa using hnotEvicted), List.filter_nil]
    rfl
  · rw [hevicted, hissued]
    exact List.subset_append_of_subset_left _ h.evicted_issued
  · rw [hremoved, hissued]
    exact List.subset_append_of_subset_left _ h.removed_issued
  · rw [hremoved]
    exact h.removed_nodup
  · refine h.denoted_concat (fun c' tag heq => ?_) (fun _ hmem => by cases hmem)
      fun tag hmem _ => ?_
    · obtain ⟨rfl, rfl⟩ := RosterRecord.add.inj heq
      exact get?_add_self hnotLive c
    · have hother : tag ≠ ⟨r.nextTag⟩ := by
        rintro rfl
        exact hfresh hmem
      rw [get?_add_other hother]
      exact Option.map_id'.symm

/-- Naming the front of the order takes it from there. -/
theorem tail_eq_filter {l : List Tag} (h : l.Nodup) : l.tail = l.filter (· ∉ l.head?.toList) := by
  cases l with
  | nil => rfl
  | cons tag rest =>
    have hrest : ∀ other ∈ rest, decide (other ∉ [tag]) = true := by
      intro other hmem
      rw [decide_eq_true_eq, List.mem_singleton]
      rintro rfl
      exact (List.nodup_cons.1 h).1 hmem
    rw [List.tail_cons, List.head?_cons, Option.toList_some, List.filter_cons_of_neg (by simp),
      List.filter_eq_self.2 hrest]

theorem evict (h : r.AccountedBy history) :
    r.evict.2.AccountedBy (history ++ [.evict r.evict.1]) := by
  have hissued : issued (history ++ [.evict r.evict.1]) = issued history :=
    (issued_append _ _).trans (List.append_nil _)
  have hevicted : evicted (history ++ [.evict r.evict.1]) =
      evicted history ++ r.eviction.head?.toList := by
    rw [evicted_append, evicted_singleton, Roster.evict]
  have hremoved : removed (history ++ [.evict r.evict.1]) = removed history :=
    (removed_append _ _).trans (List.append_nil _)
  refine ⟨?_, ?_, ?_, ?_, ?_, ?_, ?_⟩
  · rw [hissued]
    exact h.issued_eq
  · rw [hissued, hremoved]
    exact h.tags_eq
  · show r.eviction.tail = r.tags.filter _
    rw [hevicted, filter_notMem_append, ← h.eviction_eq]
    exact tail_eq_filter h.eviction_nodup
  · rw [hevicted, hissued]
    refine List.append_subset.2 ⟨h.evicted_issued, fun tag hmem => ?_⟩
    have hwaits : tag ∈ r.eviction := List.mem_of_mem_head? (by simpa using hmem)
    exact (h.live_iff.1 (h.mem_eviction_iff.1 hwaits).1).1
  · rw [hremoved, hissued]
    exact h.removed_issued
  · rw [hremoved]
    exact h.removed_nodup
  · exact h.denoted_concat (fun _ _ heq => RosterRecord.noConfusion heq)
      (fun _ hmem => by cases hmem) fun tag _ _ => Option.map_id'.symm

theorem without (h : r.AccountedBy history) {c : Connection} (hget : r.get? tag = some c) :
    (r.without tag).AccountedBy (history ++ [.remove tag (some c)]) := by
  have hissued : issued (history ++ [.remove tag (some c)]) = issued history :=
    (issued_append _ _).trans (List.append_nil _)
  have hevicted : evicted (history ++ [.remove tag (some c)]) = evicted history :=
    (evicted_append _ _).trans (List.append_nil _)
  have hremoved : removed (history ++ [.remove tag (some c)]) = removed history ++ [tag] :=
    removed_append _ _
  obtain ⟨hwas, hnot⟩ := h.live_iff.1 (Option.isSome_of_eq_some hget)
  have htags : (r.without tag).tags = r.tags.filter (· ∉ [tag]) := by
    rw [tags_without]
    exact List.filter_congr fun other _ => by simp
  refine ⟨?_, ?_, ?_, ?_, ?_, ?_, ?_⟩
  · rw [hissued]
    exact h.issued_eq
  · rw [htags, hissued, hremoved, filter_notMem_append, h.tags_eq]
  · show r.eviction.erase tag = _
    rw [htags, hevicted, List.filter_comm, ← h.eviction_eq, h.eviction_erase]
    exact List.filter_congr fun other _ => by simp
  · rw [hevicted, hissued]
    exact h.evicted_issued
  · rw [hremoved, hissued]
    exact List.append_subset.2 ⟨h.removed_issued, by simpa using hwas⟩
  · rw [hremoved]
    exact h.removed_nodup.append (List.nodup_singleton _) (by simpa using hnot)
  · refine h.denoted_concat (fun _ _ heq => RosterRecord.noConfusion heq) (fun other hmem => ?_)
      fun other _ hnot => ?_
    · rw [List.mem_singleton.1 hmem]
      exact get?_without_self r tag
    · have hother : other ≠ tag := fun heq => hnot (List.mem_singleton.2 heq)
      rw [get?_without_other hother]
      exact Option.map_id'.symm

theorem remove (h : r.AccountedBy history) (tag : Tag) :
    (r.remove tag).2.AccountedBy (history ++ [.remove tag (r.remove tag).1]) := by
  cases hget : r.get? tag with
  | none =>
    have hremove : r.remove tag = (none, r) := by simp only [Roster.remove, hget]
    rw [hremove]
    exact h.of_silent rfl rfl rfl rfl rfl rfl fun _ => Option.map_id'.symm
  | some c =>
    rw [remove_of_get? hget]
    exact h.without hget

theorem modify (h : r.AccountedBy history) (tag : Tag) (change : Connection → Connection) :
    (r.modify tag change).AccountedBy (history ++ [.modify tag change (r.get? tag)]) := by
  refine h.of_silent rfl rfl rfl rfl (tags_modify r tag change) rfl fun other => ?_
  rw [get?_modify]
  rfl

theorem answer (h : r.AccountedBy history) (call : RosterCall) :
    (r.answer call).2.AccountedBy (history ++ [(r.answer call).1]) := by
  cases call with
  | add c => exact h.add c
  | evict => exact h.evict
  | remove tag => exact h.remove tag
  | modify tag change => exact h.modify tag change

theorem answerAll (h : r.AccountedBy history) (calls : List RosterCall) :
    (r.answerAll calls).2.AccountedBy (history ++ (r.answerAll calls).1) := by
  induction calls generalizing r history with
  | nil =>
    rw [Roster.answerAll, List.append_nil]
    exact h
  | cons call calls ih =>
    have hrest := ih (h.answer call)
    rwa [List.append_assoc] at hrest

end AccountedBy

/-! ## The law of a roster -/

/-- To evict is to name the oldest of the tags that wait for it, and to remove nobody. -/
structure EvictsOldest (r : Roster) (waits : Tag → Prop) : Prop where
  named : ∀ tag, r.evict.1 = some tag ↔
    waits tag ∧ ∀ other, waits other → tag.number ≤ other.number
  nobody : r.evict.1 = none ↔ ∀ tag, ¬ waits tag
  kept : ∀ tag, r.evict.2.get? tag = r.get? tag

/-- To remove a tag is to give away its connection, if it is live, and to leave all others as they
are and in their order. -/
structure RemovesOnly (r : Roster) (tag : Tag) : Prop where
  given : (r.remove tag).1 = r.get? tag
  idle : r.get? tag = none → (r.remove tag).2 = r
  gone : (r.remove tag).2.get? tag = none
  others : ∀ other, other ≠ tag → (r.remove tag).2.get? other = r.get? other
  order : (r.remove tag).2.eviction = r.eviction.filter (· ≠ tag)

theorem AccountedBy.evictsOldest (h : r.AccountedBy history) :
    r.EvictsOldest fun tag => (r.get? tag).isSome ∧ tag ∉ evicted history := by
  have hmem : ∀ tag, (r.get? tag).isSome ∧ tag ∉ evicted history ↔ tag ∈ r.eviction :=
    fun tag => h.mem_eviction_iff.symm
  have hincreasing := h.eviction_increasing
  refine ⟨fun tag => ?_, ?_, fun tag => rfl⟩
  · simp only [hmem]
    show r.eviction.head? = some tag ↔ _
    constructor
    · intro hhead
      obtain ⟨rest, hlist⟩ := List.head?_eq_some_iff.1 hhead
      rw [hlist] at hincreasing ⊢
      refine ⟨List.mem_cons_self, fun other hother => ?_⟩
      rcases List.mem_cons.1 hother with rfl | hother
      · exact Nat.le_refl _
      · exact Nat.le_of_lt ((List.pairwise_cons.1 hincreasing).1 other hother)
    · rintro ⟨htag, hleast⟩
      cases hlist : r.eviction with
      | nil =>
        rw [hlist] at htag
        exact absurd htag List.not_mem_nil
      | cons first rest =>
        rw [hlist] at htag hleast hincreasing
        rcases List.mem_cons.1 htag with rfl | hlater
        · rfl
        · -- the front would be older still
          have hlt := (List.pairwise_cons.1 hincreasing).1 tag hlater
          exact absurd (hleast first List.mem_cons_self) (Nat.not_le.2 hlt)
  · simp only [hmem]
    show r.eviction.head? = none ↔ _
    rw [List.head?_eq_none_iff, List.eq_nil_iff_forall_not_mem]

theorem AccountedBy.removesOnly (h : r.AccountedBy history) (tag : Tag) : r.RemovesOnly tag := by
  cases hget : r.get? tag with
  | none =>
    have hremove : r.remove tag = (none, r) := by simp only [Roster.remove, hget]
    have hnot : tag ∉ r.eviction := fun hmem => by simp [h.mem_eviction_iff, hget] at hmem
    have horder : r.eviction.filter (· ≠ tag) = r.eviction :=
      List.filter_eq_self.2 fun other hmem => decide_eq_true fun heq => hnot (heq ▸ hmem)
    refine ⟨?_, ?_, ?_, ?_, ?_⟩ <;> rw [hremove]
    · exact hget.symm
    · exact fun _ => rfl
    · exact hget
    · exact fun _ _ => rfl
    · exact horder.symm
  | some c =>
    refine ⟨?_, ?_, ?_, ?_, ?_⟩ <;> rw [remove_of_get? hget]
    · exact hget.symm
    · intro hnone
      rw [hget] at hnone
      cases hnone
    · exact get?_without_self r tag
    · exact fun other hother => get?_without_other hother
    · exact h.eviction_erase tag

/-- **The law of a roster.** Add connections to an empty roster, evict, remove and change them, in
any order, and look at the roster after that.

* Tags were issued in strictly increasing order, so none was issued twice. A tag is live from when
  it was issued until its connection is removed, and no other tag is. The connection of a tag is the
  one that was added under it, with the changes that were made to it since.
* The order of eviction names, in increasing order, the live tags that were not named for eviction
  before. The next one that is named is the oldest of these, and it stays live; nobody is named only
  if there are none.
* Removing gives the connection of a live tag away, does nothing for other tags, and leaves all
  other connections and their order alone.
* As many connections are live as were added, less those that were removed. -/
theorem accounted_by_history (calls : List RosterCall) :
    let history := (({} : Roster).answerAll calls).1
    let r := (({} : Roster).answerAll calls).2
    let waits (tag : Tag) : Prop := (r.get? tag).isSome ∧ tag ∉ evicted history
    (issued history).Pairwise (fun a b => a.number < b.number) ∧
      (∀ tag, (r.get? tag).isSome ↔ tag ∈ issued history ∧ tag ∉ removed history) ∧
      (∀ before c tag after, history = before ++ .add c tag :: after →
        r.get? tag = if tag ∈ removed after then none else some (changed tag after c)) ∧
      r.eviction.Pairwise (fun a b => a.number < b.number) ∧
      (∀ tag, tag ∈ r.eviction ↔ waits tag) ∧
      r.EvictsOldest waits ∧
      (∀ tag, r.RemovesOnly tag) ∧
      r.count + (removed history).length = (issued history).length := by
  intro history r waits
  have h : r.AccountedBy history := accountedBy_nil.answerAll calls
  exact ⟨h.increasing, fun _ => h.live_iff, h.denoted, h.eviction_increasing,
    fun _ => h.mem_eviction_iff, h.evictsOldest, h.removesOnly, h.count_eq⟩

/-- A connection that was named for eviction, and then changed while another one was removed, is
still the one under its tag. -/
theorem accounted_by_history_after_eviction :
    let c := Connection.ofSocket { localEndpoint := .error .notConnected } Address.unspecified
      .standard
    let calls : List RosterCall :=
      [.add c, .add c, .evict, .remove ⟨1⟩, .modify ⟨0⟩ Connection.markConnecting, .remove ⟨7⟩]
    let r := (({} : Roster).answerAll calls).2
    r.get? ⟨0⟩ = some c.markConnecting ∧ r.evict.1 = none ∧ r.count = 1 := by
  intro c calls r
  obtain ⟨-, -, hdenoted, -, -, hevict, -, hcount⟩ := accounted_by_history calls
  refine ⟨hdenoted [] c ⟨0⟩ _ rfl, hevict.nobody.2 ?_, Nat.add_right_cancel hcount⟩
  rintro tag ⟨hlive, hnot⟩
  -- the only tag that is live was named
  obtain ⟨connection, hget⟩ := Option.isSome_iff_exists.1 hlive
  have hmem : tag ∈ [(⟨0⟩ : Tag)] := mem_tags_of_get? hget
  exact hnot hmem

end Roster

end PeerCrawl
