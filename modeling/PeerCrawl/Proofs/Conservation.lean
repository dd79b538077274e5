import PeerCrawl.Proofs.CrawlSteps
import PeerCrawl.Proofs.Offers

set_option autoImplicit false

/-! # No address is lost

Every address that a frontier accepts is dialed once, in the order of acceptance: the accepted
addresses are always those that were dialed, then the rest of the batch, then those that wait
(`Engine.Conserved`). The steps of a crawl are either `Crawl.Alike`, which leaves both the frontier
and the dials alone, or they take a batch, dial one address of it, or offer what peers tell. What
they come to in a whole turn is `Engine.TurnDone`, of a turn among others and of `Crawl.turn`, which
is what the steps lead to if nobody else acts (`Engine.addresses_conserved`). -/

namespace PeerCrawl

/-! ## Dials -/

/-- The address of a dial. -/
def Request.dialed? (r : Request) : Option Address :=
  match r.call with
  | .dial a => some a
  | _ => none

namespace NetworkStack

/-- Every address that was dialed, with or without success. -/
def dials (n : NetworkStack) : List Address := n.history.filterMap Request.dialed?

theorem history_failureFor (n : NetworkStack) (call : Call) :
    (n.failureFor call).2.history = n.history := by
  unfold failureFor
  dsimp only
  split <;> rfl

theorem dials_record (n : NetworkStack) (call : Call) (failure : Option IoError) :
    (n.record call failure).dials =
      n.dials ++ (Request.dialed? ⟨call, failure⟩).toList := by
  rw [dials, record, List.filterMap_append, dials]
  cases h : Request.dialed? ⟨call, failure⟩ with
  | none => rw [List.filterMap_cons_none h]; rfl
  | some a => rw [List.filterMap_cons_some h]; rfl

/-- A call that is no dial dials nothing. -/
theorem dials_request (n : NetworkStack) (call : Call)
    (h : ∀ failure, Request.dialed? ⟨call, failure⟩ = none) :
    (n.request call).2.dials = n.dials := by
  rw [request, dials_record, h, dials, history_failureFor]
  exact List.append_nil _

theorem dials_close (n : NetworkStack) (socket : Socket) : (n.close socket).dials = n.dials := by
  have hrecord := n.dials_record (.close socket.number) none
  exact hrecord.trans (List.append_nil _)

theorem dials_wait (n : NetworkStack) (buffer : List Readiness) (capacity : Nat)
    (timeout : Duration) : (n.wait buffer capacity timeout).2.2.dials = n.dials := by
  have hrequest := n.dials_request (.wait capacity timeout) fun _ => rfl
  unfold wait
  dsimp only
  split <;> exact hrequest

theorem history_nextDial (n : NetworkStack) (a : Address) :
    (n.nextDial a).2.history = n.history := by
  have hfailure := n.history_failureFor (.dial a)
  unfold nextDial
  split <;> rename_i h <;> rw [h] at hfailure <;> exact hfailure

/-- A dial is kept whatever becomes of it. -/
theorem dials_dial (n : NetworkStack) (a : Address) : (n.dial a).2.dials = n.dials ++ [a] := by
  have hnext : (n.nextDial a).2.dials = n.dials := by rw [dials, history_nextDial, dials]
  have hrecord : ∀ failure, ((n.nextDial a).2.record (.dial a) failure).dials = n.dials ++ [a] := by
    intro failure
    rw [dials_record, hnext]
    rfl
  unfold dial
  dsimp only
  split
  · exact hrecord _
  · exact hrecord none
  · exact hrecord none

end NetworkStack

namespace Crawl

/-! ## Steps that touch neither the frontier nor the dials -/

/-- Neither the frontier nor the dials have changed. -/
structure Alike (c c' : Crawl) : Prop where
  frontier : c'.frontier = c.frontier
  dials : c'.net.dials = c.net.dials

variable {c c' c'' : Crawl}

theorem Alike.refl (c : Crawl) : c.Alike c := ⟨rfl, rfl⟩

theorem Alike.trans (h : c.Alike c') (h' : c'.Alike c'') : c.Alike c'' :=
  ⟨h'.frontier.trans h.frontier, h'.dials.trans h.dials⟩

theorem alike_note (c : Crawl) (notice : CrawlNotice) : c.Alike (c.note notice) := ⟨rfl, rfl⟩

theorem alike_close (c : Crawl) (tag : Tag) : c.Alike (c.close tag) := by
  unfold close
  dsimp only
  split
  · exact ⟨rfl, rfl⟩
  · rename_i connection roster _
    have hrequest := c.net.dials_request (.deregister connection.socket.number) fun _ => rfl
    split <;> exact ⟨rfl, (NetworkStack.dials_close _ _).trans hrequest⟩

theorem alike_evictOldest (h : c.evictOldest = some c') : c.Alike c' := by
  unfold evictOldest at h
  split at h
  · exact absurd h (by simp)
  · rename_i tag roster _
    rw [← Option.some.inj h]
    exact (⟨rfl, rfl⟩ : c.Alike ({ c with roster }.note (.evicting tag))).trans (alike_close _ tag)

theorem alike_makeRoom (c : Crawl) : c.Alike c.makeRoom := by
  fun_induction makeRoom c with
  | case1 c _ _ => exact Alike.refl c
  | case2 c _ c' h ih => exact (alike_evictOldest h).trans ih
  | case3 c _ => exact Alike.refl c

theorem alike_watch (c : Crawl) (a : Address) (tag : Tag) (socket : Socket) :
    c.Alike (c.watch a tag socket) := by
  have hrequest := c.net.dials_request (.register socket.number tag .readWrite) fun _ => rfl
  unfold watch
  dsimp only
  split
  · exact ⟨rfl, hrequest⟩
  · split
    · exact ⟨rfl, hrequest⟩
    · exact ⟨rfl, (NetworkStack.dials_close _ _).trans hrequest⟩

theorem alike_updateInterest (c : Crawl) (tag : Tag) : c.Alike (c.updateInterest tag) := by
  unfold updateInterest
  split
  · exact Alike.refl c
  · rename_i connection _
    have hrequest := fun interest => c.net.dials_request
      (.reregister connection.socket.number tag interest) fun _ => rfl
    dsimp only
    split
    · exact Alike.refl c
    · split <;> exact ⟨rfl, hrequest _⟩

theorem alike_logStatus (c : Crawl) : c.Alike c.logStatus := by
  unfold logStatus
  split
  · exact Alike.refl c
  · exact ⟨rfl, rfl⟩

theorem alike_disturb (c : Crawl) (net : NetworkStack) (sockets : Tag → Socket) :
    c.Alike (c.disturb net sockets) := ⟨rfl, rfl⟩

/-! ## Dialing and dispatching -/

/-- An address is dialed once, whatever becomes of the dial. -/
theorem connect_books (c : Crawl) (a : Address) :
    (c.connect a).frontier = c.frontier ∧ (c.connect a).net.dials = c.net.dials ++ [a] := by
  have hroom := c.alike_makeRoom
  have hdial := c.makeRoom.net.dials_dial a
  rw [hroom.dials] at hdial
  unfold connect
  dsimp only
  -- the dial was made either way
  split
  · exact ⟨hroom.frontier, hdial⟩
  · refine ⟨(alike_watch _ a _ _).frontier.trans ?_, (alike_watch _ a _ _).dials.trans ?_⟩
    · exact hroom.frontier
    · exact hdial

theorem harvestEvents_books (events : List PeerEvent) (c : Crawl) (peer : Address) :
    (events.foldl (fun c event => c.harvestEvent peer event) c).frontier =
        (c.frontier.offerAll (events.flatMap PeerEvent.told)).frontier ∧
      (events.foldl (fun c event => c.harvestEvent peer event) c).net = c.net := by
  induction events generalizing c with
  | nil => exact ⟨rfl, rfl⟩
  | cons event rest ih =>
    obtain ⟨hfrontier, hnet⟩ := ih (c.harvestEvent peer event)
    rw [List.foldl_cons, hfrontier, hnet, List.flatMap_cons, Frontier.offerAll_append]
    cases event <;> exact ⟨rfl, rfl⟩

/-- What a peer told is offered, and nothing is dialed. -/
theorem driven_books (c : Crawl) (ready : Readiness) (connection : Connection) :
    (c.driven ready connection).frontier =
        (c.frontier.offerAll
          ((c.events ++ (connection.drive ready).events).flatMap PeerEvent.told)).frontier ∧
      (c.driven ready connection).net = c.net :=
  harvestEvents_books (c.events ++ (connection.drive ready).events) _ connection.peer

theorem alike_conclude (c : Crawl) (tag : Tag) (peer : Address)
    (result : Except ConnectionError Unit) : c.Alike (c.conclude tag peer result) := by
  unfold conclude
  split
  · exact alike_updateInterest c tag
  · exact (alike_note c _).trans (alike_close _ tag)
  · exact (alike_note c _).trans (alike_close _ tag)

/-- A dispatch offers what the peer tells, and dials nothing. -/
theorem dispatch_books (c : Crawl) (ready : Readiness) :
    (c.dispatch ready).frontier = (c.frontier.offerAll (c.gossip ready)).frontier ∧
      (c.dispatch ready).net.dials = c.net.dials := by
  cases hget : c.roster.get? ready.tag with
  | none =>
    rw [dispatch_of_stale hget, gossip, hget]
    exact ⟨rfl, rfl⟩
  | some connection =>
    obtain ⟨hfrontier, hnet⟩ := c.driven_books ready connection
    have halike := alike_conclude (c.driven ready connection) ready.tag connection.peer
      (connection.drive ready).result
    rw [dispatch_of_live hget, gossip, hget, halike.frontier, halike.dials, hfrontier, hnet]
    exact ⟨rfl, rfl⟩

end Crawl

namespace Engine

/-! ## What every step keeps -/

/-- What has happened since a turn began with the crawl `b`: the dials are on the way to the batch,
and what the frontier has accepted since waits behind what the batch has left. -/
structure Since (b : Crawl) (e : Engine) : Prop where
  dialed : e.crawl.net.dials ++ e.phase.batch =
    b.net.dials ++ b.frontier.pending.take b.limits.batchSize
  accepted : ∃ fresh, e.crawl.frontier.accepted = b.frontier.accepted ++ fresh ∧
    e.crawl.frontier.pending = b.frontier.pending.drop b.limits.batchSize ++ fresh

/-- The books of an engine. -/
structure Conserved (e : Engine) : Prop where
  accepted : e.crawl.frontier.accepted =
    e.crawl.net.dials ++ e.phase.batch ++ e.crawl.frontier.pending
  offered : Accepts e.offered e.crawl.frontier.accepted
  since : ∀ b, e.began = some b → Since b e

variable {e : Engine} {c : Crawl} {phase : Phase}

theorem conserved_fresh (config : Configuration) (limits : CrawlLimits) (net : NetworkStack)
    (reporting : Bool) : (fresh config limits net reporting).Conserved := by
  refine ⟨rfl, Accepts.nil, ?_⟩
  intro b hb
  exact absurd hb (by simp [fresh])

/-- Steps that move addresses from the batch to the dials, or none at all. -/
theorem Conserved.of_dialed (h : e.Conserved) (hfrontier : c.frontier = e.crawl.frontier)
    (hdials : c.net.dials ++ phase.batch = e.crawl.net.dials ++ e.phase.batch) :
    Conserved { e with crawl := c, phase } := by
  refine ⟨?_, ?_, ?_⟩
  · show c.frontier.accepted = c.net.dials ++ phase.batch ++ c.frontier.pending
    rw [hfrontier, hdials]
    exact h.accepted
  · show Accepts e.offered c.frontier.accepted
    rw [hfrontier]
    exact h.offered
  · intro b hb
    obtain ⟨hdialed, hfresh⟩ := h.since b hb
    refine ⟨hdials.trans hdialed, ?_⟩
    show ∃ fresh, c.frontier.accepted = _ ∧ c.frontier.pending = _
    rw [hfrontier]
    exact hfresh

theorem Conserved.of_alike (h : e.Conserved) (hc : e.crawl.Alike c)
    (hphase : phase.batch = e.phase.batch) : Conserved { e with crawl := c, phase } :=
  h.of_dialed hc.frontier (by rw [hc.dials, hphase])

/-- Steps that offer addresses. -/
theorem Conserved.of_offers (h : e.Conserved) (offers : List Address)
    (hfrontier : c.frontier = (e.crawl.frontier.offerAll offers).frontier)
    (hdials : c.net.dials = e.crawl.net.dials) (hphase : phase.batch = e.phase.batch) :
    Conserved { e with crawl := c, phase, offered := e.offered ++ offers } := by
  obtain ⟨fresh, haccepted, hpending⟩ := e.crawl.frontier.offerAll_appends offers
  rw [← hfrontier] at haccepted hpending
  refine ⟨?_, ?_, ?_⟩
  · show c.frontier.accepted = c.net.dials ++ phase.batch ++ c.frontier.pending
    rw [haccepted, hpending, hdials, hphase, h.accepted, List.append_assoc _ _ fresh]
  · show Accepts (e.offered ++ offers) c.frontier.accepted
    rw [hfrontier]
    exact h.offered.offerAll offers
  · intro b hb
    obtain ⟨hdialed, later, haccepted', hpending'⟩ := h.since b hb
    refine ⟨?_, later ++ fresh, ?_, ?_⟩
    · show c.net.dials ++ phase.batch = _
      rw [hdials, hphase, hdialed]
    · rw [haccepted, haccepted', List.append_assoc]
    · rw [hpending, hpending', List.append_assoc]

/-- The step that begins a turn, or fails to. -/
theorem Conserved.begin (h : e.Conserved) (hidle : e.phase = .idle) : e.proceed.Conserved := by
  have hbatch : e.phase.batch = [] := by rw [hidle]; rfl
  have haccepted := h.accepted
  rw [hbatch, List.append_nil] at haccepted
  -- a turn without a batch is refused, which leaves everything as it was
  by_cases hzero : e.crawl.limits.batchSize = 0
  · rw [proceed_refused hidle (if_pos hzero)]
    refine ⟨h.accepted, h.offered, ?_⟩
    rintro b ⟨rfl⟩
    refine ⟨?_, [], (List.append_nil _).symm, ?_⟩
    · show e.crawl.net.dials ++ e.phase.batch = _
      rw [hbatch, hzero, List.take_zero]
    · rw [hzero, List.drop_zero, List.append_nil]
  · rw [proceed_begin hidle (if_neg hzero)]
    refine ⟨?_, h.offered, ?_⟩
    · show e.crawl.frontier.accepted = e.crawl.net.dials ++ e.crawl.frontier.pending.take _ ++
        e.crawl.frontier.pending.drop _
      rw [haccepted, List.append_assoc, List.take_append_drop]
    · rintro b ⟨rfl⟩
      exact ⟨rfl, [], (List.append_nil _).symm, (List.append_nil _).symm⟩

theorem Conserved.proceed (h : e.Conserved) : e.proceed.Conserved := by
  rcases hphase : e.phase with _ | batch | ready
  · exact h.begin hphase
  -- the wait changes nothing that counts; a dial moves one address from the batch to the dials
  · cases batch with
    | nil =>
      have hdials := e.crawl.net.dials_wait e.crawl.readiness (max e.crawl.roster.count 1)
        e.crawl.limits.pollTimeout
      rcases hw : e.waited with ⟨failure, buffer, net⟩
      rw [show e.crawl.net.wait _ _ _ = _ from hw] at hdials
      cases failure with
      | some error =>
        rw [proceed_wait_failed hphase hw]
        exact h.of_alike ⟨rfl, hdials⟩ (by rw [hphase]; rfl)
      | none =>
        rw [proceed_wait hphase hw]
        exact h.of_alike ⟨rfl, hdials⟩ (by rw [hphase]; rfl)
    | cons a rest =>
      obtain ⟨hfrontier, hdials⟩ := e.crawl.connect_books a
      rw [proceed_dial hphase]
      refine h.of_dialed hfrontier ?_
      rw [hdials, hphase, List.append_assoc]
      rfl
  -- a dispatch may offer addresses, which go to the end of what waits
  · cases ready with
    | nil =>
      rw [proceed_end hphase]
      exact h.of_alike e.crawl.alike_logStatus (by rw [hphase]; rfl)
    | cons r rest =>
      obtain ⟨hfrontier, hdials⟩ := e.crawl.dispatch_books r
      rw [proceed_dispatch hphase]
      exact h.of_offers _ hfrontier hdials (by rw [hphase]; rfl)

theorem Conserved.step (h : e.Conserved) (action : Action) : (e.step action).Conserved := by
  cases action with
  | proceed => exact h.proceed
  | offer a => exact h.of_offers [a] rfl rfl rfl
  | disturb net sockets => exact h.of_alike (e.crawl.alike_disturb net sockets) rfl

theorem Conserved.run (h : e.Conserved) (actions : List Action) : (e.run actions).Conserved := by
  induction actions generalizing e with
  | nil => exact h
  | cons action rest ih => exact ih (h.step action)

theorem Conserved.leads {e' : Engine} (h : e.Conserved) (hleads : e.Leads e') : e'.Conserved := by
  obtain ⟨count, rfl⟩ := hleads
  exact h.run _

/-! ## Whole turns -/

/-- What a turn that began with the crawl `b` has come to when it ends with the crawl `c`. -/
structure TurnDone (b c : Crawl) : Prop where
  /-- What was accepted was dialed, in this order, or waits. -/
  accepted : c.frontier.accepted = c.net.dials ++ c.frontier.pending
  /-- It has dialed the addresses that waited first. -/
  dialed : c.net.dials = b.net.dials ++ b.frontier.pending.take b.limits.batchSize
  /-- It has dialed a whole batch, or all that waited. -/
  count : c.net.dials.length =
    b.net.dials.length + min b.limits.batchSize b.frontier.pending.length
  /-- It has not dialed what was accepted since it began. -/
  kept : ∃ fresh, c.frontier.accepted = b.frontier.accepted ++ fresh ∧
    c.frontier.pending = b.frontier.pending.drop b.limits.batchSize ++ fresh ∧
    ∀ a ∈ fresh, ∀ d ∈ c.net.dials, d.raw ≠ a.raw

/-- So many turns, one after the other. -/
inductive TurnsDone : (count : Nat) → Crawl → Crawl → Prop
  | none (c : Crawl) : TurnsDone 0 c c
  | next {count : Nat} {b c d : Crawl} (h : TurnDone b c) (h' : TurnsDone count c d) :
    TurnsDone (count + 1) b d

theorem Conserved.accepted_idle (h : e.Conserved) (hidle : e.phase = .idle) :
    e.crawl.frontier.accepted = e.crawl.net.dials ++ e.crawl.frontier.pending := by
  have haccepted := h.accepted
  rw [hidle] at haccepted
  exact haccepted.trans (congrArg (· ++ _) (List.append_nil _))

/-- No two dials are for one host, and what waits is for other hosts. -/
theorem Conserved.distinct (h : e.Conserved) :
    e.crawl.net.dials.Pairwise (fun a b => a.raw ≠ b.raw) ∧
      ∀ d ∈ e.crawl.net.dials, ∀ a ∈ e.crawl.frontier.pending, d.raw ≠ a.raw := by
  have hdistinct := h.offered.distinct
  rw [h.accepted, List.pairwise_append, List.pairwise_append] at hdistinct
  exact ⟨hdistinct.1.1, fun d hd a ha => hdistinct.2.2 d (List.mem_append_left _ hd) a ha⟩

theorem Conserved.turnDone (h : e.Conserved) {b : Crawl} (hbegan : e.began = some b)
    (hidle : e.phase = .idle) : TurnDone b e.crawl := by
  obtain ⟨hdialed, fresh, haccepted, hpending⟩ := h.since b hbegan
  rw [hidle] at hdialed
  replace hdialed := (List.append_nil _).symm.trans hdialed
  refine ⟨h.accepted_idle hidle, hdialed, ?_, fresh, haccepted, hpending, fun a ha d hd => ?_⟩
  · rw [hdialed, List.length_append, List.length_take]
  · refine h.distinct.2 d hd a ?_
    rw [hpending]
    exact List.mem_append_right _ ha

/-- A turn that is taken between two steps of an engine. -/
theorem Conserved.turn (h : e.Conserved) (hidle : e.phase = .idle) :
    TurnDone e.crawl e.crawl.turn.2 := by
  obtain ⟨e', hleads, hidle', hcrawl, hbegan⟩ := leads_turn hidle
  rw [← hcrawl]
  exact (h.leads hleads).turnDone hbegan hidle'

/-- Turns one after the other, up to one that fails. -/
theorem Conserved.turns (h : e.Conserved) (hidle : e.phase = .idle) (count : Nat) :
    ∃ taken ≤ count, TurnsDone taken e.crawl (e.crawl.turns count).2 ∧
      ((e.crawl.turns count).1 = .ok () → taken = count) := by
  induction count generalizing e with
  | zero => exact ⟨0, Nat.le_refl 0, .none e.crawl, fun _ => rfl⟩
  | succ count ih =>
    have hdone := h.turn hidle
    obtain ⟨e', hleads, hidle', hcrawl, -⟩ := leads_turn hidle
    rcases hturn : e.crawl.turn with ⟨error | n, c⟩
    · rw [hturn] at hdone
      have hturns : e.crawl.turns (count + 1) = (.error error, c) := by
        simp only [Crawl.turns, hturn]
      rw [hturns]
      exact ⟨1, by omega, .next hdone (.none c), fun hok => by cases hok⟩
    · rw [hturn] at hdone hcrawl
      have hturns : e.crawl.turns (count + 1) = c.turns count := by
        simp only [Crawl.turns, hturn]
      obtain ⟨taken, hle, hmore, hall⟩ := ih (h.leads hleads) hidle'
      rw [hcrawl] at hmore hall
      rw [hturns]
      exact ⟨taken + 1, by omega, .next hdone hmore, fun hok => congrArg (· + 1) (hall hok)⟩

/-- **No address is lost, and none is dialed twice.** Let a crawl proceed among others who offer
addresses, over sockets and a network that do as they please.

* At every moment the addresses that the frontier has accepted are those that were dialed, in this
  order, then the rest of the batch, then those that wait; between two turns there is no batch. What
  was accepted is, of every host that was offered, the first offer, and no two dials are for one
  host.
* A turn dials as many addresses as it may of those that waited when it began, and none that was
  accepted since, also if its wait fails. So does a turn that is taken at once, which the steps of
  the crawl make up if nobody else acts, and so does each of any number of turns, which all are
  taken unless one fails.
* Whatever others do between its steps, a crawl that proceeds again and again begins a turn with the
  addresses that wait by then, and comes to the end of it. -/
theorem addresses_conserved (config : Configuration) (limits : CrawlLimits) (net : NetworkStack)
    (reporting : Bool) (actions : List Action) :
    let e := (fresh config limits net reporting).run actions
    e.crawl.frontier.accepted =
        e.crawl.net.dials ++ e.phase.batch ++ e.crawl.frontier.pending ∧
      Accepts e.offered e.crawl.frontier.accepted ∧
      e.crawl.net.dials.Pairwise (fun a b => a.raw ≠ b.raw) ∧
      (e.phase = .idle →
        e.crawl.frontier.accepted = e.crawl.net.dials ++ e.crawl.frontier.pending ∧
        (∀ b, e.began = some b → TurnDone b e.crawl) ∧
        TurnDone e.crawl e.crawl.turn.2 ∧
        (∃ e', e.Leads e' ∧ e'.phase = .idle ∧ e'.crawl = e.crawl.turn.2 ∧
          e'.began = some e.crawl) ∧
        (∀ count, ∃ taken ≤ count, TurnsDone taken e.crawl (e.crawl.turns count).2 ∧
          ((e.crawl.turns count).1 = .ok () → taken = count)) ∧
        ∀ others : Nat → List Action, (∀ i, .proceed ∉ others i) →
          ∃ count, (e.run (rounds others (count + 1))).phase = .idle ∧
            (e.run (rounds others (count + 1))).began = some (e.run (others 0)).crawl ∧
            TurnDone (e.run (others 0)).crawl (e.run (rounds others (count + 1))).crawl) := by
  intro e
  have h : e.Conserved := (conserved_fresh config limits net reporting).run actions
  refine ⟨h.accepted, h.offered, h.distinct.1, fun hidle => ⟨h.accepted_idle hidle,
    fun b hbegan => h.turnDone hbegan hidle, h.turn hidle, leads_turn hidle, h.turns hidle,
    fun others hothers => ?_⟩⟩
  obtain ⟨count, hend, hbegan⟩ := rounds_turn hidle hothers
  exact ⟨count, hend, hbegan, (h.run _).turnDone hbegan hend⟩

/-- Batches of two. A third address is offered while the first two are dialed, and then the wait
fails. The second turn dials the third address; the first peer tells its own host under another
port, and a fourth address, which the third turn dials. -/
theorem addresses_conserved_over_three_turns :
    let host (last : UInt8) : Address := { Address.ofIp (.v4 ⟨[192, 0, 2, last], rfl⟩) 8333 with
      services := some .none, time := some 1 }
    let config := { Configuration.standard with verifyChecksum := false }
    let told := Wire.addressList [{ host 1 with port := 18333 }, host 4] config.protocolVersion
    let net : NetworkStack := {
      usual := .established
      failures := [(.wait, .timedOut)]
      ready := [{ tag := ⟨0⟩, readable := true, writable := false, errored := false }]
      sockets := fun number => {
        number, localEndpoint := .error .notConnected
        arrivals := [.data (Wire.frame config.magic Command.addr told)] } }
    let limits : CrawlLimits :=
      { maxConnections := 8, batchSize := 2, pollTimeout := ⟨0⟩, statusInterval := ⟨0⟩ }
    let actions : List Action := [.offer (host 1), .offer (host 2), .proceed, .proceed,
      .offer (host 3), .proceed, .proceed]
    let e := (fresh config limits net false).run actions
    let c := e.crawl
    let d := c.turn.2
    (e.phase = .idle ∧ ⟨.wait 2 limits.pollTimeout, some .timedOut⟩ ∈ c.net.history) ∧
      (c.net.dials = [host 1, host 2] ∧ c.frontier.pending = [host 3] ∧
        ∃ b, e.began = some b ∧ b.frontier.pending = [host 1, host 2] ∧ TurnDone b c) ∧
      (TurnDone c d ∧ d.net.dials = [host 1, host 2, host 3] ∧ d.frontier.pending = [host 4]) ∧
      TurnDone d d.turn.2 ∧ d.turn.2.net.dials = [host 1, host 2, host 3, host 4] := by
  intro host config told net limits actions e c d
  have hfirst : (e.phase = .idle ∧ ⟨.wait 2 limits.pollTimeout, some .timedOut⟩ ∈ c.net.history) ∧
      (c.net.dials = [host 1, host 2] ∧ c.frontier.pending = [host 3]) ∧
      c.limits.batchSize = 2 ∧ e.began.map (·.frontier.pending) = some [host 1, host 2] := by
    decide +kernel
  have hsecond : d.limits.batchSize = 2 ∧ d.frontier.pending = [host 4] := by decide +kernel
  obtain ⟨⟨hidle, hfailed⟩, ⟨hdials, hpending⟩, hsize, hbefore⟩ := hfirst
  obtain ⟨hsize', hpending'⟩ := hsecond
  obtain ⟨b, hbegan, hb⟩ := Option.map_eq_some_iff.1 hbefore
  obtain ⟨-, -, -, hbetween⟩ := addresses_conserved config limits net false actions
  obtain ⟨-, hdone, hturn, ⟨e', ⟨count, hleads⟩, hidle', hcrawl, -⟩, -⟩ := hbetween hidle
  -- the second turn ends where steps of the crawl lead, and so the third one begins there
  have hreached : (fresh config limits net false).run
      (actions ++ List.replicate count .proceed) = e' := by
    rw [run_append]
    exact hleads
  obtain ⟨-, -, -, hbetween'⟩ := addresses_conserved config limits net false
    (actions ++ List.replicate count .proceed)
  rw [hreached] at hbetween'
  have hturn' : TurnDone d d.turn.2 := by
    have hnext := (hbetween' hidle').2.2.1
    rw [hcrawl] at hnext
    exact hnext
  have hdials' : d.net.dials = [host 1, host 2, host 3] := by
    have hdialed : d.net.dials = c.net.dials ++ c.frontier.pending.take c.limits.batchSize :=
      hturn.dialed
    rw [hdialed, hdials, hpending, hsize]
    rfl
  have hdials'' : d.turn.2.net.dials = [host 1, host 2, host 3, host 4] := by
    rw [hturn'.dialed, hdials', hpending', hsize']
    rfl
  exact ⟨⟨hidle, hfailed⟩, ⟨hdials, hpending, b, hbegan, hb, hdone b hbegan⟩,
    ⟨hturn, hdials', hpending'⟩, hturn', hdials''⟩
end Engine

end PeerCrawl
