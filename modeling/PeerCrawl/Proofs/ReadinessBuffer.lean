import PeerCrawl.Proofs.Harvest

set_option autoImplicit false

/-! # The buffer of the waits

A wait is given the buffer that the last one has left, and if that one has failed there may be
something in it. Nothing depends on that: a wait that succeeds replaces what it finds, and only what
such a wait has fetched is dispatched. So a crawl goes the same way whatever its buffer holds, for a
turn (`Crawl.turn_buffered`) and for a run among others (`Engine.run_emptied`). -/

namespace PeerCrawl

namespace NetworkStack

theorem ready_request (n : NetworkStack) (call : Call) : (n.request call).2.ready = n.ready := by
  unfold request failureFor
  dsimp only
  split <;> rfl

/-- A wait does not look into the buffer that it is given: if it succeeds, it replaces what is
there, and if it fails, it adds to it. -/
theorem wait_cases (n : NetworkStack) (capacity : Nat) (timeout : Duration) :
    (∃ net, ∀ buffer, n.wait buffer capacity timeout = (none, n.ready.take capacity, net)) ∨
      ∃ error net, ∀ buffer,
        n.wait buffer capacity timeout = (some error, buffer ++ net.spilled, net) := by
  rcases hrequest : n.request (.wait capacity timeout) with ⟨_ | error, net⟩
  · have hready : net.ready = n.ready := by
      rw [← n.ready_request (.wait capacity timeout), hrequest]
    refine .inl ⟨{ net with
      ready := n.ready.drop capacity
      clock := if net.sleeps ∧ n.ready.isEmpty then net.clock + timeout.nanoseconds
        else net.clock }, fun buffer => ?_⟩
    simp only [wait, hrequest, hready]
  · exact .inr ⟨error, net, fun buffer => by simp only [wait, hrequest]⟩

end NetworkStack

namespace Crawl

/-- The same crawl, with something else in its buffer. -/
def buffered (c : Crawl) (buffer : List Readiness) : Crawl := { c with readiness := buffer }

variable (c : Crawl) (buffer : List Readiness)

/-! ## Steps -/

theorem close_buffered (tag : Tag) :
    (c.buffered buffer).close tag = (c.close tag).buffered buffer := by
  simp only [close, buffered]
  split
  · rfl
  · split <;> rfl

theorem evictOldest_buffered :
    (c.buffered buffer).evictOldest = c.evictOldest.map (·.buffered buffer) := by
  have hsame : (c.buffered buffer).roster.evict = c.roster.evict := rfl
  rcases hevict : c.roster.evict with ⟨_ | tag, roster⟩ <;>
    simp only [evictOldest, hsame, hevict]
  · rfl
  · let evicting : Crawl := { c with roster }.note (.evicting tag)
    exact congrArg some (evicting.close_buffered buffer tag)

theorem makeRoom_buffered : (c.buffered buffer).makeRoom = c.makeRoom.buffered buffer := by
  fun_induction makeRoom c with
  | case1 c hfull hnone =>
    have hfull' : (c.buffered buffer).limits.maxConnections ≤ (c.buffered buffer).roster.count :=
      hfull
    rw [makeRoom, if_pos hfull']
    split
    · rfl
    · next d hd =>
      rw [evictOldest_buffered, hnone] at hd
      cases hd
  | case2 c hfull c' hevict ih =>
    have hfull' : (c.buffered buffer).limits.maxConnections ≤ (c.buffered buffer).roster.count :=
      hfull
    rw [makeRoom, if_pos hfull']
    split
    · next hnone =>
      rw [evictOldest_buffered, hevict] at hnone
      cases hnone
    · next d hd =>
      rw [evictOldest_buffered, hevict] at hd
      rw [← Option.some.inj hd, ih]
  | case3 c hroom =>
    have hroom' : ¬ (c.buffered buffer).limits.maxConnections ≤ (c.buffered buffer).roster.count :=
      hroom
    rw [makeRoom, if_neg hroom']

theorem watch_buffered (a : Address) (tag : Tag) (socket : Socket) :
    (c.buffered buffer).watch a tag socket = (c.watch a tag socket).buffered buffer := by
  simp only [watch, buffered, note]
  split
  · rfl
  · split <;> rfl

theorem connect_buffered (a : Address) :
    (c.buffered buffer).connect a = (c.connect a).buffered buffer := by
  have hroom := c.makeRoom_buffered buffer
  have hnet : (c.buffered buffer).makeRoom.net = c.makeRoom.net := by rw [hroom]; rfl
  rcases hdial : c.makeRoom.net.dial a with ⟨error | ⟨socket, complete⟩, net⟩
  · rw [connect_of_refused (hnet ▸ hdial), connect_of_refused hdial, hroom]
    rfl
  · rw [connect_of_opened (hnet ▸ hdial), connect_of_opened hdial, hroom]
    let begun := Connection.begun socket a c.makeRoom.config complete
    let admitted : Crawl := { c.makeRoom with
      net, roster := (c.makeRoom.roster.add begun.connection).2 }
    exact (admitted.noteAll begun.notices).watch_buffered buffer a ⟨c.makeRoom.roster.nextTag⟩
      socket

theorem harvest_buffered (peer : Address) :
    (c.buffered buffer).harvest peer = (c.harvest peer).buffered buffer := by
  have hevent : ∀ (d : Crawl) (event : PeerEvent),
      (d.buffered buffer).harvestEvent peer event =
        (d.harvestEvent peer event).buffered buffer := by
    intro d event
    cases event <;> rfl
  let started : Crawl := { c with events := [] }
  show c.events.foldl _ (started.buffered buffer) = (c.events.foldl _ started).buffered buffer
  exact List.foldl_hom (fun d : Crawl => d.buffered buffer) hevent

theorem updateInterest_buffered (tag : Tag) :
    (c.buffered buffer).updateInterest tag = (c.updateInterest tag).buffered buffer := by
  cases hget : c.roster.get? tag with
  | none => simp only [updateInterest, buffered, hget]
  | some connection =>
    have hget' : (c.buffered buffer).roster.get? tag = some connection := hget
    simp only [updateInterest, hget, hget']
    by_cases hsame : connection.wantsWrite = c.writeWatched.contains tag
    · have hsame' : connection.wantsWrite = (c.buffered buffer).writeWatched.contains tag := hsame
      rw [if_pos hsame, if_pos hsame']
    · have hsame' : ¬ connection.wantsWrite = (c.buffered buffer).writeWatched.contains tag :=
        hsame
      rw [if_neg hsame, if_neg hsame']
      simp only [buffered]
      split <;> rfl

theorem conclude_buffered (tag : Tag) (peer : Address) (result : Except ConnectionError Unit) :
    (c.buffered buffer).conclude tag peer result =
      (c.conclude tag peer result).buffered buffer := by
  have hclose : ∀ notice, ((c.buffered buffer).note notice).close tag =
      ((c.note notice).close tag).buffered buffer :=
    fun notice => (c.note notice).close_buffered buffer tag
  unfold conclude
  split
  · exact c.updateInterest_buffered buffer tag
  · exact hclose _
  · exact hclose _

theorem dispatch_buffered (ready : Readiness) :
    (c.buffered buffer).dispatch ready = (c.dispatch ready).buffered buffer := by
  cases hget : c.roster.get? ready.tag with
  | none =>
    rw [dispatch_of_stale (c := c.buffered buffer) hget, dispatch_of_stale hget]
    rfl
  | some connection =>
    let told : Crawl := { c with
      roster := c.roster.modify ready.tag fun _ => (connection.drive ready).connection
      events := c.events ++ (connection.drive ready).events }
    have hdriven : (c.buffered buffer).driven ready connection =
        (c.driven ready connection).buffered buffer :=
      (told.noteAll (connection.drive ready).notices).harvest_buffered buffer connection.peer
    rw [dispatch_of_live (c := c.buffered buffer) hget, dispatch_of_live hget, hdriven,
      conclude_buffered]

theorem logStatus_buffered :
    (c.buffered buffer).logStatus = c.logStatus.buffered buffer := by
  by_cases hrecent : c.net.clock - c.lastStatus < c.limits.statusInterval.nanoseconds
  · have hkept : c.logStatus = c := if_pos hrecent
    rw [hkept]
    exact if_pos hrecent
  · let logged : Crawl := { c with lastStatus := c.net.clock }.note
      (.status c.roster.count c.frontier.pending.length c.frontier.seen)
    have hlogged : c.logStatus = logged := if_neg hrecent
    rw [hlogged]
    exact if_neg hrecent

/-! ## Turns -/

/-- The batch of the next turn. -/
def batch (c : Crawl) : List Address := c.frontier.pending.take c.limits.batchSize

/-- The crawl once the batch of its next turn was taken. -/
def drained (c : Crawl) : Crawl :=
  { c with frontier := { c.frontier with pending := c.frontier.pending.drop c.limits.batchSize } }

/-- The crawl once the batch of its next turn was dialed. -/
def admitted (c : Crawl) : Crawl := c.batch.foldl connect c.drained

/-- The wait of the next turn, with a buffer. -/
def awaited (c : Crawl) (buffer : List Readiness) :
    Option IoError × List Readiness × NetworkStack :=
  c.admitted.net.wait buffer (max c.admitted.roster.count 1) c.admitted.limits.pollTimeout

theorem admitted_buffered : (c.buffered buffer).admitted = c.admitted.buffered buffer := by
  show c.batch.foldl connect (c.drained.buffered buffer) =
    (c.batch.foldl connect c.drained).buffered buffer
  exact List.foldl_hom (fun d : Crawl => d.buffered buffer) fun d a => d.connect_buffered buffer a

variable {c}

theorem turn_of_zero (h : c.limits.batchSize = 0) :
    c.turn = (.error (.frontier .zeroCount), c) := by
  have hdrain : c.frontier.drain c.limits.batchSize = .error .zeroCount := if_pos h
  simp only [turn, hdrain]

theorem drain_of_ne_zero (h : c.limits.batchSize ≠ 0) :
    c.frontier.drain c.limits.batchSize = .ok (c.batch, c.drained.frontier) :=
  if_neg h

theorem turn_of_failed {error : IoError} {spilled : List Readiness} {net : NetworkStack}
    (h : c.limits.batchSize ≠ 0)
    (hwait : c.awaited c.admitted.readiness = (some error, spilled, net)) :
    c.turn = (.error (.wait error), { c.admitted with net, readiness := spilled }) := by
  rw [awaited, admitted, drained] at hwait
  simp only [turn, drain_of_ne_zero h, drained, hwait]
  rfl

theorem turn_of_waited {ready : List Readiness} {net : NetworkStack}
    (h : c.limits.batchSize ≠ 0)
    (hwait : c.awaited c.admitted.readiness = (none, ready, net)) :
    c.turn = (.ok ready.length,
      (ready.foldl dispatch { c.admitted with net, readiness := [] }).logStatus) := by
  rw [awaited, admitted, drained] at hwait
  simp only [turn, drain_of_ne_zero h, drained, hwait]
  rfl

variable (c)

/-- What a turn finds in its buffer makes no difference, but that it is still there if the wait
fails. -/
theorem turn_buffered :
    (c.buffered buffer).turn.1 = c.turn.1 ∧
      (c.buffered buffer).turn.2.buffered [] = c.turn.2.buffered [] ∧
      ∀ n, c.turn.1 = .ok n → (c.buffered buffer).turn = c.turn := by
  have hadmitted := c.admitted_buffered buffer
  have hawaited : ∀ b, (c.buffered buffer).awaited b = c.awaited b := by
    intro b
    rw [awaited, hadmitted]
    rfl
  by_cases h : c.limits.batchSize = 0
  · rw [turn_of_zero h, turn_of_zero (c := c.buffered buffer) h]
    exact ⟨rfl, rfl, nofun⟩
  · have h' : (c.buffered buffer).limits.batchSize ≠ 0 := h
    rcases c.admitted.net.wait_cases (max c.admitted.roster.count 1)
      c.admitted.limits.pollTimeout with ⟨net, hwait⟩ | ⟨error, net, hwait⟩
    · rw [turn_of_waited h (hwait _), turn_of_waited h' ((hawaited _).trans (hwait _)), hadmitted]
      exact ⟨rfl, rfl, fun _ _ => rfl⟩
    · rw [turn_of_failed h (hwait _), turn_of_failed h' ((hawaited _).trans (hwait _)), hadmitted]
      exact ⟨rfl, rfl, nofun⟩

end Crawl

/-! ## Runs -/

namespace Engine

variable {e e' : Engine}

/-- The same engine, with nothing in the buffer of its crawl. -/
def emptied (e : Engine) : Engine :=
  { e with crawl := e.crawl.buffered [], began := e.began.map (·.buffered []) }

theorem emptied_eq (hcrawl : e.crawl.buffered [] = e'.crawl.buffered [])
    (hphase : e.phase = e'.phase)
    (hbegan : e.began.map (·.buffered []) = e'.began.map (·.buffered []))
    (hoffered : e.offered = e'.offered) : e.emptied = e'.emptied := by
  rw [emptied, emptied, hcrawl, hphase, hbegan, hoffered]

theorem began_emptied (e : Engine) :
    e.emptied.began.map (·.buffered []) = e.began.map (·.buffered []) := by
  rw [emptied, Option.map_map]
  rfl

theorem emptied_emptied (e : Engine) : e.emptied.emptied = e.emptied :=
  emptied_eq rfl rfl e.began_emptied rfl

theorem proceed_emptied (e : Engine) : e.emptied.proceed.emptied = e.proceed.emptied := by
  have hbegan := e.began_emptied
  rcases hphase : e.phase with _ | (_ | ⟨a, rest⟩) | (_ | ⟨ready, rest⟩)
  · cases hdrain : e.crawl.frontier.drain e.crawl.limits.batchSize with
    | error error =>
      rw [proceed_refused hphase hdrain, proceed_refused (e := e.emptied) hphase hdrain]
      exact emptied_eq rfl rfl rfl rfl
    | ok taken =>
      rw [proceed_begin hphase hdrain, proceed_begin (e := e.emptied) hphase hdrain]
      exact emptied_eq rfl rfl rfl rfl
  · rcases e.crawl.net.wait_cases (max e.crawl.roster.count 1) e.crawl.limits.pollTimeout with
      ⟨net, hwait⟩ | ⟨error, net, hwait⟩
    · rw [proceed_wait hphase (hwait _), proceed_wait (e := e.emptied) hphase (hwait _)]
      exact emptied_eq rfl rfl hbegan rfl
    · rw [proceed_wait_failed hphase (hwait _),
        proceed_wait_failed (e := e.emptied) hphase (hwait _)]
      exact emptied_eq rfl rfl hbegan rfl
  · rw [proceed_dial hphase, proceed_dial (e := e.emptied) hphase]
    exact emptied_eq (congrArg (·.buffered []) (e.crawl.connect_buffered [] a)) rfl hbegan rfl
  · rw [proceed_end hphase, proceed_end (e := e.emptied) hphase]
    exact emptied_eq (congrArg (·.buffered []) (e.crawl.logStatus_buffered [])) rfl hbegan rfl
  · rw [proceed_dispatch hphase, proceed_dispatch (e := e.emptied) hphase]
    exact emptied_eq (congrArg (·.buffered []) (e.crawl.dispatch_buffered [] ready)) rfl hbegan rfl

theorem step_emptied (e : Engine) (action : Action) :
    (e.emptied.step action).emptied = (e.step action).emptied := by
  cases action with
  | proceed => exact e.proceed_emptied
  | offer a => exact emptied_eq rfl rfl e.began_emptied rfl
  | disturb net sockets => exact emptied_eq rfl rfl e.began_emptied rfl

/-- Engines that differ in their buffers only go the same way, and dispatch the same. -/
theorem run_of_emptied_eq (h : e.emptied = e'.emptied) (actions : List Action) :
    (e.run actions).emptied = (e'.run actions).emptied ∧
      e.dispatches actions = e'.dispatches actions := by
  induction actions generalizing e e' with
  | nil => exact ⟨h, rfl⟩
  | cons action rest ih =>
    have hstep : (e.step action).emptied = (e'.step action).emptied := by
      rw [← step_emptied e, h, step_emptied e']
    obtain ⟨hrun, hdispatches⟩ := ih hstep
    -- what is dispatched is in the phase, and whom it is for in the roster
    have hnow : (e.notified action).bind e.crawl.dispatch? =
        (e'.notified action).bind e'.crawl.dispatch? :=
      (congrArg (fun d : Engine => (d.notified action).bind d.crawl.dispatch?) h :)
    refine ⟨hrun, ?_⟩
    rw [dispatches, dispatches, hnow, hdispatches]

/-- What is in the buffer now makes no difference to what is done and dispatched from now on. -/
theorem run_emptied (e : Engine) (actions : List Action) :
    (e.emptied.run actions).emptied = (e.run actions).emptied ∧
      e.emptied.dispatches actions = e.dispatches actions :=
  run_of_emptied_eq e.emptied_emptied actions

end Engine

end PeerCrawl
