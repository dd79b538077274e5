import PeerCrawl.Proofs.CrawlChanges
import PeerCrawl.Proofs.Registrations

set_option autoImplicit false

/-! # The books of a crawl

A crawl keeps four books of its connections: the roster, the order of eviction, the tags that are
watched for writability, and, with the network stack, the sockets that are registered. Steps change
them one by one, and each change may fail; yet between two steps they agree (`Crawl.Booked`,
`Engine.books_agree`), whatever has failed. The same invariant bounds how many connections are
live. -/

namespace PeerCrawl

namespace Crawl

/-- The books of a crawl agree. -/
structure Booked (c : Crawl) : Prop where
  eviction : c.roster.eviction = c.roster.tags
  tracks : c.net.Tracks c.slots c.roster.nextTag
  watched : ∀ tag, tag ∈ c.writeWatched ↔
    tag ∈ c.roster.tags ∧ c.net.interest tag = some .readWrite
  nodup : c.writeWatched.Nodup
  told : c.events = []
  ceiling : c.roster.count ≤ max c.limits.maxConnections 1

variable {c c' : Crawl} {tag : Tag} {connection : Connection} {notified : Option Readiness}

theorem Booked.ordered (h : c.Booked) : c.roster.Ordered := by
  refine ⟨h.eviction, ?_, ?_⟩
  · rw [← c.tags_slots, List.pairwise_map]
    exact (h.tracks.increasing.sublist h.tracks.sublist).imp And.right
  · intro tag hmem
    rw [← c.tags_slots, List.mem_map] at hmem
    obtain ⟨slot, hslot, rfl⟩ := hmem
    exact (h.tracks.bounded slot (h.tracks.sublist.subset hslot)).2

/-! ## Steps that the books do not show -/

/-- The same connections are live and watched, and no call has changed that. -/
structure SameBooks (c c' : Crawl) : Prop where
  slots : c'.slots = c.slots
  eviction : c'.roster.eviction = c.roster.eviction
  nextTag : c'.roster.nextTag = c.roster.nextTag
  history : ∃ made, c'.net.history = c.net.history ++ made ∧ ∀ r ∈ made, r.Neutral
  opened : c'.net.opened = c.net.opened
  writeWatched : c'.writeWatched = c.writeWatched
  told : c'.events = []
  limits : c'.limits = c.limits

theorem SameBooks.booked (hc : c.SameBooks c') (h : c.Booked) : c'.Booked := by
  obtain ⟨made, hhistory, hmade⟩ := hc.history
  obtain ⟨hattempts, hregistrations, hderegistrations, hinterest⟩ :=
    NetworkStack.views_of_neutral hhistory hmade
  have htags : c'.roster.tags = c.roster.tags := by rw [← tags_slots, ← tags_slots, hc.slots]
  have hcount : c'.roster.count = c.roster.count := by
    have hlength := congrArg List.length hc.slots
    simpa only [Crawl.slots, Roster.count, List.length_map] using hlength
  refine ⟨?_, ?_, ?_, ?_, hc.told, ?_⟩
  · rw [hc.eviction, htags]
    exact h.eviction
  · rw [hc.slots, hc.nextTag]
    exact h.tracks.of_same hattempts hregistrations hderegistrations hc.opened
  · intro tag
    rw [hc.writeWatched, htags, hinterest]
    exact h.watched tag
  · rw [hc.writeWatched]
    exact h.nodup
  · rw [hcount, hc.limits]
    exact h.ceiling

theorem Quiet.sameBooks (hc : c.Quiet c') (htold : c.events = []) : c.SameBooks c' := by
  refine ⟨?_, ?_, ?_, hc.history, hc.opened, ?_, ?_, ?_⟩
  · rw [hc.rest]
    rfl
  · rw [hc.rest]
  · rw [hc.rest]
  · rw [hc.rest]
  · rw [hc.rest]
    exact htold
  · rw [hc.rest]

theorem disturb_sameBooks (htold : c.events = []) (net : NetworkStack) (sockets : Tag → Socket) :
    c.SameBooks (c.disturb net sockets) := by
  refine ⟨?_, rfl, rfl, ⟨[], (List.append_nil _).symm, by simp⟩, rfl, rfl, htold, rfl⟩
  rw [slots, disturb, List.map_map]
  rfl

/-- A connection that is driven keeps its socket. -/
theorem driven_sameBooks (h : c.roster.Ordered) {ready : Readiness}
    (hget : c.roster.get? ready.tag = some connection) :
    c.SameBooks (c.driven ready connection) := by
  have hnumber := (connection.drive_keeps ready).number
  rw [driven_rest]
  refine ⟨?_, rfl, rfl, ⟨[], (List.append_nil _).symm, by simp⟩, rfl, rfl, rfl, rfl⟩
  rw [slots, Roster.modify, List.map_map]
  refine List.map_congr_left fun entry hmem => ?_
  simp only [Function.comp_apply]
  split
  · next htag =>
    have hlive : entry.2 = connection := Option.some.inj
      ((Roster.get?_of_mem h.nodup hmem).symm.trans (htag ▸ hget))
    rw [hnumber, hlive, htag]
  · rfl

/-! ## Closing -/

theorem Booked.closed (h : c.Booked) (hget : c.roster.get? tag = some connection)
    (hc : c.Closed tag connection c') : c'.Booked := by
  obtain ⟨failure, hhistory⟩ := hc.history
  obtain ⟨hattempts, hregistrations, hderegistrations, hinterest⟩ :=
    NetworkStack.views_of_forgotten hhistory
  have hordered := Roster.ordered_without h.ordered tag
  rw [← hc.roster] at hordered
  have htags : c'.roster.tags = c.roster.tags.filter (· ≠ tag) := by
    rw [hc.roster, Roster.tags_without]
  have hslots : c'.slots = c.slots.filter (·.2 ≠ tag) := by
    rw [slots, hc.roster, Roster.without, slots, List.filter_map]
    rfl
  refine ⟨hordered.eviction, ?_, ?_, ?_, ?_, ?_⟩
  · rw [hslots, hc.roster]
    exact h.tracks.of_forgotten (mem_slots hget) hattempts hregistrations hderegistrations
      hc.opened
  · intro other
    rw [hc.writeWatched, h.nodup.mem_erase_iff, h.watched other, htags, List.mem_filter, hinterest]
    simp only [decide_eq_true_eq]
    exact and_assoc.symm.trans (and_congr_left' and_comm)
  · rw [hc.writeWatched]
    exact h.nodup.erase tag
  · rw [hc.rest]
    exact h.told
  · have hle : c'.roster.count ≤ c.roster.count := by
      rw [Roster.count, hc.roster]
      exact List.length_filter_le _ _
    rw [hc.continues.limits]
    exact hle.trans h.ceiling

/-! ## Dialing -/

theorem Booked.makeRoom (h : c.Booked) : c.makeRoom.Booked := by
  rcases makeRoom_cases h.ordered h.ceiling with
    ⟨hsame, -⟩ | ⟨tag, connection, rest, hr, -, hclosed⟩
  · rw [hsame]
    exact h
  · refine h.closed (Roster.get?_of_mem h.ordered.nodup ?_) hclosed
    rw [hr]
    exact List.mem_cons_self

theorem Booked.makeRoom_continues (h : c.Booked) : c.Continues c.makeRoom := by
  rcases makeRoom_cases h.ordered h.ceiling with ⟨hsame, -⟩ | ⟨_, _, _, -, -, hclosed⟩
  · rw [hsame]
    exact Continues.refl c
  · exact hclosed.continues

/-- Room was made: even with one connection more, no more are live than may be. -/
theorem Booked.room (h : c.Booked) :
    c.makeRoom.roster.count + 1 ≤ max c.limits.maxConnections 1 := by
  have hceiling := h.ceiling
  rcases makeRoom_cases h.ordered hceiling with
    ⟨hsame, hcount⟩ | ⟨tag, connection, rest, hr, -, hclosed⟩
  · rw [hsame]
    omega
  · have hcount : c.makeRoom.roster.count + 1 = c.roster.count := by
      rw [Roster.count, Roster.count, hclosed.roster, (h.ordered.without_first hr).2.2.1, hr,
        List.length_cons]
    omega

/-- Whether or not the dial succeeds, and whether or not what it opens can be watched. -/
theorem Booked.dialed (h : c.Booked) (hroom : c.roster.count + 1 ≤ max c.limits.maxConnections 1)
    {a : Address} (hc : c.Dialed a c') : c'.Booked := by
  have hcontinues := hc.continues
  cases hc with
  | refused error history opened rest =>
    refine (Quiet.sameBooks ?_ h.told).booked h
    exact .of_call history ⟨rfl, rfl, fun _ => rfl⟩ opened (by rw [rest])
  | rejected error history opened roster rest =>
    obtain ⟨hattempts, hregistrations, hderegistrations, hinterest⟩ :=
      NetworkStack.views_of_rejected history
    have hslots : c'.slots = c.slots := by rw [slots, roster, slots]
    have htags : c'.roster.tags = c.roster.tags := by rw [← tags_slots, hslots, tags_slots]
    have hwatched : c'.writeWatched = c.writeWatched := by rw [rest]
    refine ⟨?_, ?_, ?_, ?_, ?_, ?_⟩
    · rw [htags, roster]
      exact h.eviction
    · rw [hslots, roster]
      exact h.tracks.of_rejected hattempts hregistrations hderegistrations opened
    · intro tag
      rw [hwatched, htags, hinterest]
      exact h.watched tag
    · rw [hwatched]
      exact h.nodup
    · rw [rest]
      exact h.told
    · rw [hcontinues.limits, roster]
      exact h.ceiling
  | admitted connection number peer wants history opened roster writeWatched rest =>
    obtain ⟨hattempts, hregistrations, hderegistrations, hinterest⟩ :=
      NetworkStack.views_of_registered history
    have hslots : c'.slots = c.slots ++ [(c.net.opened, ⟨c.roster.nextTag⟩)] := by
      rw [slots, roster, Roster.add, List.map_append, List.map_singleton, number, slots]
    have htags : c'.roster.tags = c.roster.tags ++ [⟨c.roster.nextTag⟩] := by
      rw [← tags_slots, hslots, List.map_append, tags_slots, List.map_singleton]
    have hunwatched : (⟨c.roster.nextTag⟩ : Tag) ∉ c.writeWatched := fun hmem =>
      h.ordered.next_fresh ((h.watched _).1 hmem).1
    refine ⟨?_, ?_, ?_, ?_, ?_, ?_⟩
    · rw [htags, roster, ← h.eviction]
      rfl
    · rw [hslots, roster]
      exact h.tracks.of_registered hattempts hregistrations hderegistrations opened
    · intro tag
      rw [writeWatched, htags, hinterest, List.mem_append, List.mem_append, List.mem_singleton,
        h.watched tag]
      by_cases hnew : tag = ⟨c.roster.nextTag⟩
      · simp [hnew]
      · simp [hnew, Ne.symm hnew]
    · rw [writeWatched]
      exact h.nodup.append (List.nodup_singleton _) (List.disjoint_singleton.2 hunwatched)
    · rw [rest]
      exact h.told
    · rw [hcontinues.limits, roster, Roster.count, Roster.add, List.length_append,
        List.length_singleton]
      exact hroom

theorem Booked.connect (h : c.Booked) (a : Address) : (c.connect a).Booked := by
  refine h.makeRoom.dialed ?_ (connect_dialed h.makeRoom.ordered a)
  rw [h.makeRoom_continues.limits]
  exact h.room

/-! ## Dispatching -/

theorem Booked.interest (h : c.Booked) (hget : c.roster.get? tag = some connection)
    (hc : c.InterestUpdate tag connection c') : c'.Booked := by
  cases hc with
  | kept _ => exact h
  | failed error interest history opened rest =>
    refine (Quiet.sameBooks ?_ h.told).booked h
    exact .of_call history ⟨rfl, rfl, fun _ => rfl⟩ opened (by rw [rest])
  | granted history opened writeWatched rest =>
    obtain ⟨hattempts, hregistrations, hderegistrations, hinterest⟩ :=
      NetworkStack.views_of_changed history
    have hroster : c'.roster = c.roster := by rw [rest]
    have hlive := Roster.mem_tags_of_get? hget
    refine ⟨?_, ?_, ?_, ?_, ?_, ?_⟩
    · rw [hroster]
      exact h.eviction
    · rw [slots, hroster]
      exact h.tracks.of_same hattempts hregistrations hderegistrations opened
    · intro other
      rw [writeWatched, hroster, hinterest]
      have hothers : other ∈ c.writeWatched.erase tag ↔ other ≠ tag ∧ other ∈ c.writeWatched :=
        h.nodup.mem_erase_iff
      by_cases hsame : tag = other
      · subst hsame
        cases connection.wantsWrite <;> simp [hothers, hlive]
      · rw [if_neg hsame, ← h.watched other]
        cases connection.wantsWrite <;> simp [hothers, Ne.symm hsame]
    · rw [writeWatched]
      split
      · exact (h.nodup.erase tag).append (List.nodup_singleton tag)
          (List.disjoint_singleton.2 h.nodup.not_mem_erase)
      · exact h.nodup.erase tag
    · rw [rest]
      exact h.told
    · rw [hroster, show c'.limits = c.limits by rw [rest]]
      exact h.ceiling

theorem Booked.note (h : c.Booked) (notice : CrawlNotice) : (c.note notice).Booked :=
  ((quiet_note c notice).sameBooks h.told).booked h

theorem Booked.conclude (h : c.Booked) (hget : c.roster.get? tag = some connection) (peer : Address)
    (result : Except ConnectionError Unit) : (c.conclude tag peer result).Booked := by
  rcases conclude_cases hget peer result with ⟨-, hupdate⟩ | ⟨error, -, hclosed⟩
  · exact h.interest hget hupdate
  · exact h.closed hget hclosed

theorem Booked.dispatch (h : c.Booked) (ready : Readiness) : (c.dispatch ready).Booked := by
  cases hget : c.roster.get? ready.tag with
  | none =>
    rw [dispatch_of_stale hget]
    exact h.note _
  | some connection =>
    have hdriven := (driven_sameBooks h.ordered hget).booked h
    rw [dispatch_of_live hget]
    exact hdriven.conclude (get?_driven hget) connection.peer _

/-! ## Runs -/

theorem Booked.change (h : c.Booked) (hc : c.Change notified c') : c'.Booked := by
  cases hc with
  | quiet hquiet => exact (hquiet.sameBooks h.told).booked h
  | disturbed net sockets => exact (disturb_sameBooks h.told net sockets).booked h
  | connected a => exact h.connect a
  | dispatched ready => exact h.dispatch ready

theorem Booked.continues (h : c.Booked) (hc : c.Change notified c') : c.Continues c' := by
  cases hc with
  | quiet hquiet => exact hquiet.continues
  | disturbed net sockets => exact ⟨List.prefix_rfl, rfl⟩
  | connected a =>
    exact h.makeRoom_continues.trans (connect_dialed h.makeRoom.ordered a).continues
  | dispatched ready => exact c.dispatch_continues ready

end Crawl

namespace Engine

theorem booked_fresh (config : Configuration) (limits : CrawlLimits) (net : NetworkStack)
    (reporting : Bool) : (fresh config limits net reporting).crawl.Booked where
  eviction := rfl
  tracks :=
    { registered := rfl
      increasing := List.Pairwise.nil
      bounded := by simp [fresh, NetworkStack.attempts]
      once := List.nodup_nil
      known := by simp [fresh, NetworkStack.deregistrations] }
  watched := by simp [fresh, Roster.tags]
  nodup := List.nodup_nil
  told := rfl
  ceiling := Nat.zero_le _

theorem booked_run (config : Configuration) (limits : CrawlLimits) (net : NetworkStack)
    (reporting : Bool) (actions : List Action) :
    ((fresh config limits net reporting).run actions).crawl.Booked :=
  run_keeps (fun hc h => h.change hc) (booked_fresh config limits net reporting) actions

theorem run_continues {e : Engine} (h : e.crawl.Booked) (actions : List Action) :
    e.crawl.Continues (e.run actions).crawl := by
  have hstep : ∀ {c notified c'}, Crawl.Change c notified c' →
      c.Booked ∧ e.crawl.Continues c → c'.Booked ∧ e.crawl.Continues c' := by
    rintro c notified c' hc ⟨hbooked, hcontinues⟩
    exact ⟨hbooked.change hc, hcontinues.trans (hbooked.continues hc)⟩
  exact (run_keeps hstep ⟨h, Crawl.Continues.refl e.crawl⟩ actions).2

/-- **The books of a crawl agree, whatever fails.** Let a crawl proceed among others, over sockets
and a network that do as they please. At every moment the live connections, the order of eviction,
and the tags that were registered and not forgotten since are the same, in the same order, and the
order of eviction is that of increasing tags. No socket and no tag is registered twice. A socket
that was registered is forgotten once if its connection is gone, and never before; one whose
registration failed is never forgotten. Those are watched for writability which are live and for
which the last call that succeeded has asked so, and nothing that a peer told is left over. -/
theorem books_agree (config : Configuration) (limits : CrawlLimits) (net : NetworkStack)
    (reporting : Bool) (actions : List Action) :
    let c := ((fresh config limits net reporting).run actions).crawl
    c.roster.eviction = c.roster.tags ∧
      c.net.registered.map Prod.snd = c.roster.tags ∧
      c.roster.eviction.Pairwise (fun a b => a.number < b.number) ∧
      (c.net.attempts.map Prod.fst).Nodup ∧
      (c.net.attempts.map Prod.snd).Nodup ∧
      (∀ slot ∈ c.net.registrations, c.net.deregistrations.count slot.1 =
        if slot.2 ∈ c.roster.tags then 0 else 1) ∧
      (∀ socket ∈ c.net.deregistrations, socket ∈ c.net.registrations.map Prod.fst) ∧
      (∀ slot ∈ c.net.rejections, slot.1 ∉ c.net.deregistrations) ∧
      (∀ tag, tag ∈ c.writeWatched ↔
        tag ∈ c.roster.tags ∧ c.net.interest tag = some .readWrite) ∧
      c.writeWatched.Nodup ∧
      c.events = [] := by
  intro c
  have h : c.Booked := booked_run config limits net reporting actions
  have hregistered : c.net.registered.map Prod.snd = c.roster.tags := by
    rw [h.tracks.registered, Crawl.tags_slots]
  have hincreasing := h.ordered.increasing
  rw [← h.eviction] at hincreasing
  refine ⟨h.eviction, hregistered, hincreasing, h.tracks.sockets_nodup, h.tracks.tags_nodup, ?_,
    h.tracks.known, ?_, h.watched, h.nodup, h.told⟩
  · intro slot hslot
    rw [← c.tags_slots]
    exact h.tracks.count_forgotten hslot
  · intro slot hslot
    exact h.tracks.not_forgotten_of_rejected hslot

end Engine

end PeerCrawl
