import PeerCrawl.Proofs.EveryConnection

set_option autoImplicit false

/-! # The order of notifications

A notification is about one connection, and what becomes of that connection depends only on how it
stands (`Standing.dispatch`). The other connections stand as before (`Crawl.Touches`). So a batch of
notifications for different connections does to each what its own notification does alone
(`Crawl.Dispatched`), in whatever order it is dispatched. What the dispatches share is told apart:
the books, the reports and the frontier come out the same but for their order
(`Engine.dispatch_perm`). -/

namespace PeerCrawl

namespace NetworkStack

variable {n : NetworkStack}

/-- No failure is in store for a change of interest, so whether one succeeds hangs on what it asks
and on nothing else. -/
def Steady (n : NetworkStack) : Prop := ∀ f ∈ n.failures, f.1 ≠ .reregister

/-- A call may use up a failure, and changes nothing else of what calls will be answered. -/
theorem request_keeps (n : NetworkStack) (call : Call) :
    (n.request call).2.refusal = n.refusal ∧ (n.request call).2.failures ⊆ n.failures := by
  unfold request failureFor
  dsimp only
  split
  · exact ⟨rfl, List.eraseP_subset⟩
  · exact ⟨rfl, List.Subset.refl _⟩

theorem Steady.request (h : n.Steady) (call : Call) : (n.request call).2.Steady :=
  fun f hf => h f ((n.request_keeps call).2 hf)

theorem Steady.failure_reregister (h : n.Steady) (socket : Nat) (tag : Tag) (interest : Interest) :
    (n.request (.reregister socket tag interest)).1 =
      n.refusal (.reregister socket tag interest) := by
  have hnone : n.failures.find? (fun f => some f.1 = (Call.reregister socket tag interest).kind?) =
      none := by
    rw [List.find?_eq_none]
    intro f hf hmeant
    exact h f hf (Option.some.inj (of_decide_eq_true hmeant))
  unfold NetworkStack.request failureFor
  simp only [hnone]

end NetworkStack

/-! ## How a connection stands -/

/-- What a crawl and its network know of the connection with a tag. -/
structure Standing where
  /-- The connection, if it is live. -/
  connection : Option Connection
  /-- Whether the crawl has it watched for writability. -/
  watched : Bool
  /-- What the network has watched it for last. -/
  interest : Option Interest

namespace Standing

/-- What a connection is watched for is brought up to date, unless that is refused. -/
def attend (refusal : Call → Option IoError) (tag : Tag) (connection : Connection) (s : Standing) :
    Standing :=
  let wanted := connection.wantsWrite
  if wanted = s.watched then s
  else
    let interest := if wanted then .readWrite else .readable
    match refusal (.reregister connection.socket.number tag interest) with
    | some _ => s
    | none => { s with watched := wanted, interest := some interest }

/-- What becomes of a connection by a notification for it. -/
def dispatch (refusal : Call → Option IoError) (ready : Readiness) (s : Standing) : Standing :=
  match s.connection with
  | none => s
  | some connection =>
    let driven := connection.drive ready
    match driven.result with
    | .error _ => { s with connection := none, watched := false }
    | .ok () =>
      { s with connection := some driven.connection }.attend refusal ready.tag driven.connection

/-- The socket that is closed by a notification, if one is. -/
def closes (ready : Readiness) (s : Standing) : List Socket :=
  match s.connection with
  | none => []
  | some connection =>
    let driven := connection.drive ready
    match driven.result with
    | .error _ => [driven.connection.socket]
    | .ok () => []

/-- The calls that hand on what the peer tells at a notification. -/
def calls (ready : Readiness) (s : Standing) : List Handover :=
  match s.connection with
  | none => []
  | some connection => Dispatch.calls { ready, connection }

end Standing

namespace Crawl

def standing (c : Crawl) (tag : Tag) : Standing where
  connection := c.roster.get? tag
  watched := c.writeWatched.contains tag
  interest := c.net.interest tag

variable {c c' c'' : Crawl} {tag : Tag} {connection : Connection} {s s' : Standing}
  {closed closed' : List Socket} {ready : Readiness} {batch batch' : List Readiness}

/-! ## Steps that touch one connection -/

/-- A step may change how one connection stands, and it closes some sockets. -/
structure Touches (c : Crawl) (tag : Tag) (after : Standing) (closed : List Socket) (c' : Crawl) :
    Prop where
  self : c'.standing tag = after
  others : ∀ other, other ≠ tag → c'.standing other = c.standing other
  closed : c'.net.closed = c.net.closed ++ closed
  nextTag : c'.roster.nextTag = c.roster.nextTag
  refusal : c'.net.refusal = c.net.refusal
  steady : c.net.Steady → c'.net.Steady

theorem Touches.refl (c : Crawl) (tag : Tag) : c.Touches tag (c.standing tag) [] c :=
  ⟨rfl, fun _ _ => rfl, (List.append_nil _).symm, rfl, rfl, id⟩

theorem touches_note (c : Crawl) (notice : CrawlNotice) (tag : Tag) :
    c.Touches tag (c.standing tag) [] (c.note notice) :=
  ⟨rfl, fun _ _ => rfl, (List.append_nil _).symm, rfl, rfl, id⟩

theorem Touches.trans (h : c.Touches tag s closed c') (h' : c'.Touches tag s' closed' c'') :
    c.Touches tag s' (closed ++ closed') c'' where
  self := h'.self
  others other hother := (h'.others other hother).trans (h.others other hother)
  closed := by rw [h'.closed, h.closed, List.append_assoc]
  nextTag := h'.nextTag.trans h.nextTag
  refusal := h'.refusal.trans h.refusal
  steady hsteady := h'.steady (h.steady hsteady)

theorem driven_touches (hget : c.roster.get? ready.tag = some connection) :
    c.Touches ready.tag
      { c.standing ready.tag with connection := some (connection.drive ready).connection } []
      (c.driven ready connection) := by
  have hself := get?_driven hget
  rw [driven_rest] at hself ⊢
  refine ⟨?_, ?_, (List.append_nil _).symm, rfl, rfl, id⟩
  · rw [standing, hself]
    rfl
  · intro other hother
    rw [standing, standing]
    dsimp only
    rw [Roster.get?_modify_other hother]

theorem updateInterest_touches (hnodup : c.writeWatched.Nodup) (hsteady : c.net.Steady)
    (hget : c.roster.get? tag = some connection) :
    c.Touches tag ((c.standing tag).attend c.net.refusal tag connection) []
      (c.updateInterest tag) := by
  by_cases hsame : connection.wantsWrite = c.writeWatched.contains tag
  · have hkept : connection.wantsWrite = (c.standing tag).watched := hsame
    simp only [updateInterest, hget, if_pos hsame, Standing.attend, if_pos hkept]
    exact Touches.refl c tag
  · have hchange : ¬ connection.wantsWrite = (c.standing tag).watched := hsame
    simp only [updateInterest, hget, if_neg hsame, Standing.attend, if_neg hchange]
    -- the call is refused, or what the connection is watched for is changed
    generalize hinterest :
      (if connection.wantsWrite = true then Interest.readWrite else .readable) = interest
    have hfailure := hsteady.failure_reregister connection.socket.number tag interest
    have hsteady' := hsteady.request (.reregister connection.socket.number tag interest)
    obtain ⟨hrefusal, -⟩ :=
      c.net.request_keeps (.reregister connection.socket.number tag interest)
    have hclosed := c.net.closed_request (.reregister connection.socket.number tag interest)
    obtain ⟨hhistory, -⟩ :=
      c.net.request_history (.reregister connection.socket.number tag interest)
    rcases hrequest : c.net.request (.reregister connection.socket.number tag interest) with
      ⟨failure, net⟩
    rw [hrequest] at hfailure hsteady' hrefusal hclosed hhistory
    dsimp only at hfailure hsteady' hrefusal hclosed hhistory ⊢
    rw [← hfailure]
    have hclosed' : net.closed = c.net.closed ++ [] := by rw [hclosed, List.append_nil]
    cases failure with
    | some error =>
      have hsame : ∀ other, net.interest other = c.net.interest other :=
        NetworkStack.interest_of_history hhistory
      refine ⟨?_, ?_, hclosed', rfl, hrefusal, fun _ => hsteady'⟩
      · simp only [standing, note, hsame]
      · intro other _
        simp only [standing, note, hsame]
    | none =>
      obtain ⟨-, -, -, hchanged⟩ := NetworkStack.views_of_changed hhistory
      refine ⟨?_, ?_, hclosed', rfl, hrefusal, fun _ => hsteady'⟩
      · simp only [standing, hchanged, if_true]
        cases connection.wantsWrite <;> simp [hnodup.not_mem_erase]
      · intro other hother
        simp only [standing, hchanged, if_neg (Ne.symm hother)]
        cases connection.wantsWrite <;> simp [List.mem_erase_of_ne hother, hother]

theorem close_touches (hnodup : c.writeWatched.Nodup)
    (hget : c.roster.get? tag = some connection) :
    c.Touches tag { c.standing tag with connection := none, watched := false }
      [connection.socket] (c.close tag) := by
  have hclosed := close_of_live hget
  have hnet : (c.close tag).net =
      (c.net.request (.deregister connection.socket.number)).2.close connection.socket := by
    simp only [close, Roster.remove_of_get? hget]
    split <;> rfl
  obtain ⟨hrefusal, -⟩ := c.net.request_keeps (.deregister connection.socket.number)
  have hsockets := c.net.closed_request (.deregister connection.socket.number)
  obtain ⟨failure, hhistory⟩ := hclosed.history
  obtain ⟨-, -, -, hinterest⟩ := NetworkStack.views_of_forgotten hhistory
  refine ⟨?_, ?_, ?_, ?_, ?_, ?_⟩
  · simp only [standing, hclosed.roster, Roster.get?_without_self, hclosed.writeWatched,
      List.contains_eq_mem, hnodup.not_mem_erase, hinterest, decide_false]
  · intro other hother
    simp only [standing, hclosed.roster, Roster.get?_without_other hother, hclosed.writeWatched,
      List.contains_eq_mem, List.mem_erase_of_ne hother, hinterest]
  · rw [hnet, NetworkStack.close, hsockets]
  · rw [hclosed.roster]
    rfl
  · rw [hnet]
    exact hrefusal
  · intro hsteady
    rw [hnet]
    exact hsteady.request (.deregister connection.socket.number)

/-- A notification does to its connection what it does to the standing of that connection, and
nothing to the others. -/
theorem dispatch_touches (hbooked : c.Booked) (hsteady : c.net.Steady) (ready : Readiness) :
    c.Touches ready.tag ((c.standing ready.tag).dispatch c.net.refusal ready)
      ((c.standing ready.tag).closes ready) (c.dispatch ready) := by
  cases hget : c.roster.get? ready.tag with
  | none =>
    have hgone : (c.standing ready.tag).connection = none := hget
    rw [dispatch_of_stale hget, Standing.dispatch, Standing.closes]
    simp only [hgone]
    exact c.touches_note _ ready.tag
  | some connection =>
    have hlive : (c.standing ready.tag).connection = some connection := hget
    have hdriven := driven_touches hget
    have hget' := get?_driven hget
    have hnodup : (c.driven ready connection).writeWatched.Nodup := by
      rw [driven_rest]
      exact hbooked.nodup
    rw [dispatch_of_live hget, Standing.dispatch, Standing.closes]
    simp only [hlive]
    cases hresult : (connection.drive ready).result with
    | ok =>
      have hupdate := updateInterest_touches hnodup (hdriven.steady hsteady) hget'
      rw [hdriven.self, hdriven.refusal] at hupdate
      exact hdriven.trans hupdate
    | error error =>
      have hclose : ∀ notice, c.Touches ready.tag
          { c.standing ready.tag with connection := none, watched := false }
          [(connection.drive ready).connection.socket]
          (((c.driven ready connection).note notice).close ready.tag) := by
        intro notice
        have hnoted := hdriven.trans ((c.driven ready connection).touches_note notice ready.tag)
        have hclosed := close_touches (c := (c.driven ready connection).note notice) hnodup hget'
        rw [hnoted.self, hdriven.self] at hclosed
        exact hnoted.trans hclosed
      cases error <;> exact hclose _

theorem dispatch_hands_calls (hbooked : c.Booked) (ready : Readiness) :
    c.Hands ((c.standing ready.tag).calls ready) (c.dispatch ready) := by
  cases hget : c.roster.get? ready.tag with
  | none =>
    have hgone : (c.standing ready.tag).connection = none := hget
    simp only [dispatch_of_stale hget, Standing.calls, hgone]
    exact .nothing rfl rfl rfl
  | some connection =>
    have hlive : (c.standing ready.tag).connection = some connection := hget
    simp only [Standing.calls, hlive]
    exact dispatch_hands hbooked.told hget

/-! ## Batches -/

theorem Booked.dispatchAll (h : c.Booked) (batch : List Readiness) :
    (batch.foldl Crawl.dispatch c).Booked := by
  induction batch generalizing c with
  | nil => exact h
  | cons ready rest ih => exact ih (h.dispatch ready)

/-- Every notification of a batch has done to its connection, as that stood at first, what it does
alone. -/
structure Dispatched (c : Crawl) (batch : List Readiness) (c' : Crawl) : Prop where
  standing : ∀ ready ∈ batch,
    c'.standing ready.tag = (c.standing ready.tag).dispatch c.net.refusal ready
  others : ∀ tag, (∀ ready ∈ batch, ready.tag ≠ tag) → c'.standing tag = c.standing tag
  closed : c'.net.closed =
    c.net.closed ++ batch.flatMap fun ready => (c.standing ready.tag).closes ready
  hands : c.Hands (batch.flatMap fun ready => (c.standing ready.tag).calls ready) c'
  nextTag : c'.roster.nextTag = c.roster.nextTag

theorem Dispatched.nil (c : Crawl) : c.Dispatched [] c :=
  ⟨by simp, fun _ _ => rfl, (List.append_nil _).symm, .nothing rfl rfl rfl, rfl⟩

theorem Dispatched.cons
    (hfirst : c.Touches ready.tag ((c.standing ready.tag).dispatch c.net.refusal ready)
      ((c.standing ready.tag).closes ready) c')
    (hhands : c.Hands ((c.standing ready.tag).calls ready) c') (h : c'.Dispatched batch c'')
    (hdistinct : ∀ later ∈ batch, later.tag ≠ ready.tag) : c.Dispatched (ready :: batch) c'' := by
  -- the later notifications find their connections as they stood at first
  have hsame : ∀ later ∈ batch, c'.standing later.tag = c.standing later.tag :=
    fun later hlater => hfirst.others later.tag (hdistinct later hlater)
  refine ⟨?_, ?_, ?_, ?_, h.nextTag.trans hfirst.nextTag⟩
  · intro other hother
    rcases List.mem_cons.1 hother with rfl | hlater
    · rw [h.others other.tag hdistinct]
      exact hfirst.self
    · rw [h.standing other hlater, hsame other hlater, hfirst.refusal]
  · intro tag hnone
    rw [h.others tag fun later hlater => hnone later (List.mem_cons_of_mem ready hlater)]
    exact hfirst.others tag (Ne.symm (hnone ready List.mem_cons_self))
  · rw [h.closed, hfirst.closed, List.flatMap_cons, List.append_assoc,
      List.flatMap_congr fun later hlater => by rw [hsame later hlater]]
  · rw [List.flatMap_cons]
    have hlater := h.hands
    rw [List.flatMap_congr fun later hlater => by rw [hsame later hlater]] at hlater
    exact hhands.trans hlater

/-- A batch of notifications for different connections does to each what its own does alone. -/
theorem dispatched_batch (hbooked : c.Booked) (hsteady : c.net.Steady)
    (hdistinct : (batch.map Readiness.tag).Nodup) :
    c.Dispatched batch (batch.foldl dispatch c) := by
  induction batch generalizing c with
  | nil => exact .nil c
  | cons ready rest ih =>
    rw [List.map_cons, List.nodup_cons] at hdistinct
    have hfirst := dispatch_touches hbooked hsteady ready
    refine .cons hfirst (dispatch_hands_calls hbooked ready)
      (ih (hbooked.dispatch ready) (hfirst.steady hsteady) hdistinct.2) ?_
    intro later hlater heq
    exact hdistinct.1 (heq ▸ List.mem_map_of_mem hlater)

theorem Dispatched.standing_perm (h : c.Dispatched batch c') (h' : c.Dispatched batch' c'')
    (hperm : batch.Perm batch') (tag : Tag) : c'.standing tag = c''.standing tag := by
  by_cases hmem : ∃ ready ∈ batch, ready.tag = tag
  · obtain ⟨ready, hready, rfl⟩ := hmem
    rw [h.standing ready hready, h'.standing ready (hperm.mem_iff.1 hready)]
  · have hnone : ∀ ready ∈ batch, ready.tag ≠ tag := fun ready hready heq =>
      hmem ⟨ready, hready, heq⟩
    rw [h.others tag hnone,
      h'.others tag fun ready hready => hnone ready (hperm.mem_iff.2 hready)]

end Crawl

/-! ## What is handed on -/

/-- The address that a call offers. -/
def Handover.offer? : Handover → Option Address
  | report _ => none
  | offer a => some a

/-- The handshake that a call reports. -/
def Handover.report? : Handover → Option Handshake
  | report h => some h
  | offer _ => none

/-- The handshake that a report is about. -/
def Report.handshake? : Report → Option Handshake
  | newAddress _ => none
  | handshake h => some h

/-- An offer reports no handshake. -/
theorem Frontier.handshakes_offer (f : Frontier) (a : Address) :
    (f.offer a).reports.filterMap Report.handshake? = [] := by
  unfold offer
  split
  · rfl
  · dsimp only
    split <;> rfl

namespace Crawl

variable {c c' c'' : Crawl} {calls calls' : List Handover}

theorem frontier_foldl_hand (calls : List Handover) (c : Crawl) :
    (calls.foldl hand c).frontier =
      (c.frontier.offerAll (calls.filterMap Handover.offer?)).frontier := by
  induction calls generalizing c with
  | nil => rfl
  | cons call rest ih =>
    rw [List.foldl_cons, ih]
    cases call <;> rfl

theorem handshakes_foldl_hand (calls : List Handover) (c : Crawl) :
    (calls.foldl hand c).reports.filterMap Report.handshake? =
      c.reports.filterMap Report.handshake? ++ calls.filterMap Handover.report? := by
  induction calls generalizing c with
  | nil => exact (List.append_nil _).symm
  | cons call rest ih =>
    rw [List.foldl_cons, ih]
    cases call with
    | report h =>
      show (c.reports ++ [Report.handshake h]).filterMap Report.handshake? ++ _ = _
      rw [List.filterMap_append, List.append_assoc]
      rfl
    | offer a =>
      show (c.reports ++ (c.frontier.offer a).reports).filterMap Report.handshake? ++ _ = _
      rw [List.filterMap_append, Frontier.handshakes_offer, List.append_nil]
      rfl

/-- Calls may be made in any order: the same hosts are accepted and wait, and the same handshakes
are reported. -/
theorem Hands.perm (h : c.Hands calls c') (h' : c.Hands calls' c'') (hperm : calls.Perm calls') :
    c'.frontier.SameHosts c''.frontier ∧
      (c'.reports.filterMap Report.handshake?).Perm (c''.reports.filterMap Report.handshake?) := by
  rw [h.frontier, h'.frontier, h.reports, h'.reports, frontier_foldl_hand, frontier_foldl_hand,
    handshakes_foldl_hand, handshakes_foldl_hand]
  exact ⟨Frontier.offerAll_perm (hperm.filterMap _) c.frontier,
    (hperm.filterMap _).append_left _⟩

end Crawl

namespace Engine

/-- **The order of notifications does not matter.** Let a crawl have proceeded among others, over
sockets and a network that did as they pleased, and let no failure be in store for a change of
interest, so that it is refused only for what it asks. Dispatch notifications for different
connections, in two orders. The same connections are live in the end, in the same state, to be
evicted in the same order, and their sockets have taken the same bytes, like those of the
connections that were closed. The same tags are watched for writability, and the network has every
tag watched for the same. The same hosts were accepted and wait, and the same handshakes were
reported. -/
theorem dispatch_perm (config : Configuration) (limits : CrawlLimits) (net : NetworkStack)
    (reporting : Bool) (actions : List Action) {ready ready' : List Readiness} :
    let c := ((fresh config limits net reporting).run actions).crawl
    (∀ f ∈ c.net.failures, f.1 ≠ .reregister) → (ready.map Readiness.tag).Nodup →
      ready.Perm ready' →
      let c' := ready.foldl Crawl.dispatch c
      let c'' := ready'.foldl Crawl.dispatch c
      c'.roster = c''.roster ∧ c'.net.closed.Perm c''.net.closed ∧
        c'.writeWatched.Perm c''.writeWatched ∧ c'.net.registered = c''.net.registered ∧
        (∀ tag, c'.net.interest tag = c''.net.interest tag) ∧
        (c'.frontier.accepted.map Address.raw).Perm (c''.frontier.accepted.map Address.raw) ∧
        (c'.frontier.pending.map Address.raw).Perm (c''.frontier.pending.map Address.raw) ∧
        (c'.reports.filterMap Report.handshake?).Perm
          (c''.reports.filterMap Report.handshake?) := by
  intro c hsteady hdistinct hperm c' c''
  have hbooked : c.Booked := booked_run config limits net reporting actions
  have hdistinct' : (ready'.map Readiness.tag).Nodup := (hperm.map _).nodup_iff.1 hdistinct
  have hd : c.Dispatched ready c' := Crawl.dispatched_batch hbooked hsteady hdistinct
  have hd' : c.Dispatched ready' c'' := Crawl.dispatched_batch hbooked hsteady hdistinct'
  have hstanding := hd.standing_perm hd' hperm
  have hbooked' : c'.Booked := hbooked.dispatchAll ready
  have hbooked'' : c''.Booked := hbooked.dispatchAll ready'
  have hroster : c'.roster = c''.roster :=
    hbooked'.ordered.eq_of_get? hbooked''.ordered
      (fun tag => congrArg Standing.connection (hstanding tag)) (hd.nextTag.trans hd'.nextTag.symm)
  obtain ⟨⟨haccepted, hpending⟩, hhandshakes⟩ := hd.hands.perm hd'.hands (hperm.flatMap_right _)
  refine ⟨hroster, ?_, ?_, ?_, ?_, haccepted, hpending, hhandshakes⟩
  · rw [hd.closed, hd'.closed]
    exact (hperm.flatMap_right _).append_left _
  · refine (List.perm_ext_iff_of_nodup hbooked'.nodup hbooked''.nodup).2 fun tag => ?_
    have hwatched : c'.writeWatched.contains tag = c''.writeWatched.contains tag :=
      congrArg Standing.watched (hstanding tag)
    rw [← List.contains_iff_mem, ← List.contains_iff_mem, hwatched]
  · rw [hbooked'.tracks.registered, hbooked''.tracks.registered, Crawl.slots, Crawl.slots, hroster]
  · exact fun tag => congrArg Standing.interest (hstanding tag)

/-- Two peers tell an address each, and one of them hangs up then. Which address waits first hangs
on the order of the two notifications, and nothing else does. -/
theorem dispatch_perm_two_peers :
    let limits : CrawlLimits :=
      { maxConnections := 2, batchSize := 2, pollTimeout := ⟨0⟩, statusInterval := ⟨0⟩ }
    let config : Configuration := { Configuration.standard with verifyChecksum := false }
    let host (n : Nat) : Address := .ofIp (.v4 ⟨[10, 0, 0, UInt8.ofNat n], rfl⟩) 8333
    let payload (n : Nat) : Bytes := Wire.addressList [host (n + 3)] config.protocolVersion
    let header (n : Nat) : Header := {
      magic := config.magic, command := Command.addr
      payloadLength := UInt32.ofNat (payload n).length, checksum := .zero 4 }
    let net : NetworkStack := {
      sockets := fun n => {
        number := n, localEndpoint := .error .notConnected
        arrivals := [.data ((header n).encode ++ payload n)] ++ if n = 1 then [.eof] else [] } }
    let ready (n : Nat) : Readiness :=
      { tag := ⟨n⟩, readable := true, writable := false, errored := false }
    let c := ((fresh config limits net true).run
      [.offer (host 1), .offer (host 2), .proceed, .proceed, .proceed]).crawl
    let c' := [ready 0, ready 1].foldl Crawl.dispatch c
    let c'' := [ready 1, ready 0].foldl Crawl.dispatch c
    c'.roster = c''.roster ∧ c'.roster.count = 1 ∧ c'.net.closed.length = 1 ∧
      c'.frontier.pending ≠ c''.frontier.pending ∧
      (c'.frontier.pending.map Address.raw).Perm (c''.frontier.pending.map Address.raw) := by
  intro limits config host payload header net ready c c' c''
  obtain ⟨hroster, -, -, -, -, -, hpending, -⟩ := dispatch_perm config limits net true
    [.offer (host 1), .offer (host 2), .proceed, .proceed, .proceed]
    (by decide +kernel) (by decide +kernel) (List.Perm.swap (ready 1) (ready 0) [])
  exact ⟨hroster, by decide +kernel, by decide +kernel, by decide +kernel, hpending⟩

end Engine

end PeerCrawl
