import PeerCrawl.Crawl.Options
import PeerCrawl.Proofs.EveryConnection
import PeerCrawl.Proofs.ReadinessBuffer

set_option autoImplicit false

/-! # Turns that fail

A turn fails if it has no batch, and then it has done nothing, or if its wait fails. By then the
whole batch was dialed, and nothing else was done: connections were taken in and closed
(`Crawl.Admits`), but none was driven, and nothing was handed on (`Crawl.WaitFailed`). What the wait
has left in the buffer is never dispatched (`PeerCrawl.Proofs.ReadinessBuffer`), so that a turn that
fails does no harm to later ones (`Crawl.failed_turn_harmless`). -/

namespace PeerCrawl

/-! ## Calls that are no waits -/

namespace NetworkStack

/-- Calls were made, none of which is a wait. -/
def Waitless (n n' : NetworkStack) : Prop :=
  ∃ made, n'.history = n.history ++ made ∧ ∀ r ∈ made, r.call.kind? ≠ some .wait

variable {n n' n'' : NetworkStack}

theorem Waitless.refl (n : NetworkStack) : n.Waitless n :=
  ⟨[], (List.append_nil _).symm, fun _ hr => by cases hr⟩

theorem Waitless.trans (h : n.Waitless n') (h' : n'.Waitless n'') : n.Waitless n'' := by
  obtain ⟨made, hmade, hall⟩ := h
  obtain ⟨later, hlater, hall'⟩ := h'
  refine ⟨made ++ later, by rw [hlater, hmade, List.append_assoc], fun r hr => ?_⟩
  exact (List.mem_append.1 hr).elim (hall r) (hall' r)

/-- One call was made. -/
theorem Waitless.of_call {record : Request} (h : n'.history = n.history ++ [record])
    (hcall : record.call.kind? ≠ some .wait) : n.Waitless n' := by
  refine ⟨[record], h, fun r hr => ?_⟩
  rw [List.mem_singleton.1 hr]
  exact hcall

theorem Waitless.request (n : NetworkStack) {call : Call} (h : call.kind? ≠ some .wait) :
    n.Waitless (n.request call).2 :=
  .of_call (n.request_history call).1 h

theorem Waitless.close (n : NetworkStack) (socket : Socket) : n.Waitless (n.close socket) :=
  .of_call rfl (by simp [Call.kind?])

theorem Waitless.dial (n : NetworkStack) (a : Address) : n.Waitless (n.dial a).2 := by
  rcases n.dial_cases a with ⟨error, net, hdial, hhistory, -⟩ |
    ⟨socket, complete, net, hdial, -, hhistory, -⟩ <;>
  · rw [hdial]
    exact .of_call hhistory (by simp [Call.kind?])

end NetworkStack

namespace Crawl

variable {c c' c'' : Crawl} {tag : Tag} {connection : Connection}

/-! ## Admission -/

/-- Connections were taken in or closed, and nothing else was done. -/
structure Admits (c c' : Crawl) : Prop where
  calls : c.net.Waitless c'.net
  rest : c' = { c with
    net := c'.net, roster := c'.roster, writeWatched := c'.writeWatched, notices := c'.notices }

theorem Admits.refl (c : Crawl) : c.Admits c := ⟨.refl _, rfl⟩

theorem Admits.trans (h : c.Admits c') (h' : c'.Admits c'') : c.Admits c'' := by
  refine ⟨h.calls.trans h'.calls, ?_⟩
  rw [h'.rest, h.rest]

theorem Closed.waitless (h : c.Closed tag connection c') : c.net.Waitless c'.net := by
  obtain ⟨failure, hhistory⟩ := h.history
  exact ⟨_, hhistory, by simp [Call.kind?]⟩

theorem admits_close (c : Crawl) (tag : Tag) : c.Admits (c.close tag) := by
  cases hget : c.roster.get? tag with
  | none =>
    have hclose : c.close tag = { c with writeWatched := c.writeWatched.erase tag } := by
      simp only [Crawl.close, Roster.remove, hget]
    rw [hclose]
    exact ⟨.refl _, rfl⟩
  | some connection =>
    have hclosed := close_of_live hget
    exact ⟨hclosed.waitless, hclosed.rest⟩

theorem admits_makeRoom (c : Crawl) : c.Admits c.makeRoom := by
  fun_induction makeRoom c with
  | case1 c hfull hnone => exact .refl c
  | case3 c hroom => exact .refl c
  | case2 c hfull c' hevict ih =>
    refine Admits.trans ?_ ih
    unfold evictOldest at hevict
    split at hevict
    · cases hevict
    · next tag roster hroster =>
      have hnoted : c.Admits ({ c with roster }.note (.evicting tag)) := ⟨.refl _, rfl⟩
      rw [← Option.some.inj hevict]
      exact hnoted.trans (admits_close _ tag)

theorem admits_watch (c : Crawl) (a : Address) (tag : Tag) (socket : Socket) :
    c.Admits (c.watch a tag socket) := by
  have hrequest : c.net.Waitless (c.net.request (.register socket.number tag .readWrite)).2 :=
    .request c.net (by simp [Call.kind?])
  unfold watch
  dsimp only
  split
  · exact ⟨hrequest, rfl⟩
  · split
    · exact ⟨hrequest, rfl⟩
    · exact ⟨hrequest.trans (.close _ _), rfl⟩

theorem admits_connect (c : Crawl) (a : Address) : c.Admits (c.connect a) := by
  refine c.admits_makeRoom.trans ?_
  have hdialed := NetworkStack.Waitless.dial c.makeRoom.net a
  rcases hdial : c.makeRoom.net.dial a with ⟨error | ⟨socket, complete⟩, net⟩
  · rw [hdial] at hdialed
    rw [connect_of_refused hdial]
    exact ⟨hdialed, rfl⟩
  · rw [hdial] at hdialed
    rw [connect_of_opened hdial]
    exact Admits.trans ⟨hdialed, rfl⟩ (admits_watch _ a _ socket)

/-- All dials of a batch, one after the other. -/
theorem admits_foldl_connect (batch : List Address) (c : Crawl) :
    c.Admits (batch.foldl connect c) ∧
      (batch.foldl connect c).net.dials = c.net.dials ++ batch := by
  induction batch generalizing c with
  | nil => exact ⟨.refl c, (List.append_nil _).symm⟩
  | cons a rest ih =>
    obtain ⟨hadmits, hdials⟩ := ih (c.connect a)
    refine ⟨(c.admits_connect a).trans hadmits, ?_⟩
    rw [List.foldl_cons, hdials, (c.connect_books a).2, List.append_assoc]
    rfl

/-- A connection is as it was in a crawl, or as it is begun. -/
def Untouched (c : Crawl) (connection : Connection) : Prop :=
  (∃ tag, (tag, connection) ∈ c.roster.connections) ∨
    ∃ socket a complete, connection = (Connection.begun socket a c.config complete).connection

theorem everyone_untouched (c : Crawl) : c.Everyone c.config c.net.closed c.Untouched := by
  refine ⟨rfl, fun entry hmem => .inl ⟨entry.1, hmem⟩, [], (List.append_nil _).symm, ?_⟩
  intro connection hmem
  cases hmem

theorem Everyone.connectAll {config : Configuration} {before : List Socket}
    {P : Connection → Prop} (h : c.Everyone config before P)
    (hbegun : ∀ socket a complete, socket.written = [] →
      P (Connection.begun socket a config complete).connection) (batch : List Address) :
    (batch.foldl Crawl.connect c).Everyone config before P := by
  induction batch generalizing c with
  | nil => exact h
  | cons a rest ih => exact ih (h.connect hbegun a)

/-! ## Dispatch -/

theorem InterestUpdate.waitless (h : c.InterestUpdate tag connection c') :
    c.net.Waitless c'.net := by
  cases h with
  | kept _ => exact .refl _
  | failed error interest hhistory => exact ⟨_, hhistory, by simp [Call.kind?]⟩
  | granted hhistory => exact ⟨_, hhistory, by simp [Call.kind?]⟩

theorem waitless_dispatch (c : Crawl) (ready : Readiness) :
    c.net.Waitless (c.dispatch ready).net := by
  cases hget : c.roster.get? ready.tag with
  | none =>
    rw [dispatch_of_stale hget]
    exact .refl _
  | some connection =>
    rw [dispatch_of_live hget, ← c.net_driven ready connection]
    rcases conclude_cases (get?_driven hget) connection.peer (connection.drive ready).result with
      ⟨-, hupdate⟩ | ⟨error, -, hclosed⟩
    · exact hupdate.waitless
    · exact hclosed.waitless

theorem waitless_foldl_dispatch (batch : List Readiness) (c : Crawl) :
    c.net.Waitless (batch.foldl dispatch c).net := by
  induction batch generalizing c with
  | nil => exact .refl _
  | cons ready rest ih => exact (c.waitless_dispatch ready).trans (ih (c.dispatch ready))

/-! ## What a failed turn leaves -/

/-- The batch of a turn was dialed, and its wait has failed. -/
structure WaitFailed (c c' : Crawl) : Prop where
  frontier : c'.frontier =
    { c.frontier with pending := c.frontier.pending.drop c.limits.batchSize }
  dials : c'.net.dials = c.net.dials ++ c.frontier.pending.take c.limits.batchSize
  /-- None was driven, also of those that were closed since. -/
  undriven : c'.Everyone c.config c.net.closed c.Untouched
  /-- Nothing was handed on, reported or told, and no status line is due sooner or later. -/
  rest : c' = { c with
    frontier := c'.frontier, net := c'.net, roster := c'.roster, writeWatched := c'.writeWatched
    readiness := c'.readiness, notices := c'.notices }

theorem admits_admitted (c : Crawl) : c.drained.Admits c.admitted ∧
    c.admitted.net.dials = c.net.dials ++ c.batch :=
  admits_foldl_connect c.batch c.drained

theorem waitFailed_admitted (c : Crawl) {buffer spilled : List Readiness} {error : IoError}
    {net : NetworkStack} (hwait : c.awaited buffer = (some error, spilled, net)) :
    c.WaitFailed { c.admitted with net, readiness := spilled } := by
  obtain ⟨⟨-, hrest⟩, hdials⟩ := c.admits_admitted
  have hnet : net = (c.awaited buffer).2.2 := by rw [hwait]
  have hdialed : net.dials = c.admitted.net.dials := by
    rw [hnet]
    exact c.admitted.net.dials_wait _ _ _
  have hclosed : net.closed = c.admitted.net.closed := by
    rw [hnet]
    exact c.admitted.net.closed_wait _ _ _
  refine ⟨?_, hdialed.trans hdials, ?_, ?_⟩
  · rw [hrest]
    rfl
  · have hdrained : c.drained.Everyone c.config c.net.closed c.Untouched :=
      c.everyone_untouched.of_closed_eq rfl (fun _ hmem => hmem) rfl
    have hadmitted : c.admitted.Everyone c.config c.net.closed c.Untouched :=
      hdrained.connectAll (fun socket a complete _ => .inr ⟨socket, a, complete, rfl⟩) c.batch
    exact hadmitted.of_closed_eq rfl (fun _ hmem => hmem) hclosed
  · rw [hrest]
    rfl

theorem net_logStatus (c : Crawl) : c.logStatus.net = c.net := by
  unfold logStatus
  split <;> rfl

/-- A turn makes one wait at most, so that it fails in a wait if and only if this one does. -/
theorem turn_calls (c : Crawl) : ∃ made, c.turn.2.net.history = c.net.history ++ made ∧
    ∀ error, c.turn.1 = .error (.wait error) ↔
      ∃ capacity timeout, ⟨.wait capacity timeout, some error⟩ ∈ made := by
  by_cases hbatch : c.limits.batchSize = 0
  · rw [turn_of_zero hbatch]
    exact ⟨[], (List.append_nil _).symm, by simp⟩
  obtain ⟨made, hmade, hwaitless⟩ := c.admits_admitted.1.calls
  have hnone : ∀ capacity timeout error, ⟨.wait capacity timeout, some error⟩ ∉ made :=
    fun _ _ _ hmem => hwaitless _ hmem rfl
  obtain ⟨hhistory, -⟩ := c.admitted.net.wait_history c.admitted.readiness
    (max c.admitted.roster.count 1) c.admitted.limits.pollTimeout
  rcases hwait : c.awaited c.admitted.readiness with ⟨_ | error, ready, net⟩
  · -- what comes after the wait are dispatches, which do not wait
    rw [show c.admitted.net.wait _ _ _ = _ from hwait, hmade, List.append_assoc] at hhistory
    obtain ⟨later, hlater, hwaitless'⟩ :=
      waitless_foldl_dispatch ready { c.admitted with net, readiness := [] }
    rw [turn_of_waited hbatch hwait, net_logStatus, hlater]
    refine ⟨_, (congrArg (· ++ later) hhistory).trans (List.append_assoc _ _ _), fun error => ?_⟩
    have hnone' : ∀ capacity timeout, ⟨.wait capacity timeout, some error⟩ ∉ later :=
      fun _ _ hmem => hwaitless' _ hmem rfl
    simp [hnone, hnone']
  · rw [show c.admitted.net.wait _ _ _ = _ from hwait, hmade, List.append_assoc] at hhistory
    rw [turn_of_failed hbatch hwait]
    refine ⟨_, hhistory, fun error' => ?_⟩
    simp [hnone, eq_comm]

/-- Whatever a turn fails for, it is the batch or the wait. -/
theorem turn_failed (c : Crawl) {error : CrawlError} (h : c.turn.1 = .error error) :
    (c.limits.batchSize = 0 ∧ error = .frontier .zeroCount ∧ c.turn.2 = c) ∨
      c.limits.batchSize ≠ 0 ∧ ∃ e spilled net, error = .wait e ∧
        c.awaited c.admitted.readiness = (some e, spilled, net) ∧
        c.turn.2 = { c.admitted with net, readiness := spilled } := by
  by_cases hbatch : c.limits.batchSize = 0
  · rw [turn_of_zero hbatch] at h ⊢
    exact .inl ⟨hbatch, (Except.error.inj h).symm, rfl⟩
  · rcases hwait : c.awaited c.admitted.readiness with ⟨_ | e, ready, net⟩
    · rw [turn_of_waited hbatch hwait] at h
      cases h
    · rw [turn_of_failed hbatch hwait] at h ⊢
      exact .inr ⟨hbatch, e, ready, net, (Except.error.inj h).symm, rfl, rfl⟩

end Crawl

namespace Engine

variable {e e' : Engine}

/-- Steps of the crawl itself lead from one engine to the other, and none dispatches anything. -/
def LeadsQuietly (e e' : Engine) : Prop :=
  ∃ count, e.run (List.replicate count .proceed) = e' ∧
    e.dispatches (List.replicate count .proceed) = []

theorem LeadsQuietly.refl (e : Engine) : e.LeadsQuietly e := ⟨0, rfl, rfl⟩

theorem LeadsQuietly.cons (h : e.notified .proceed = none) (h' : e.proceed.LeadsQuietly e') :
    e.LeadsQuietly e' := by
  obtain ⟨count, hrun, hdispatches⟩ := h'
  refine ⟨count + 1, hrun, ?_⟩
  rw [List.replicate_succ, dispatches, h]
  exact hdispatches

theorem leadsQuietly_admitting {batch : List Address} (h : e.phase = .admitting batch)
    (h' : LeadsQuietly { e with
      crawl := batch.foldl Crawl.connect e.crawl, phase := .admitting [] } e') :
    e.LeadsQuietly e' := by
  induction batch generalizing e with
  | nil =>
    rw [← h] at h'
    exact h'
  | cons a rest ih =>
    refine .cons (by rw [notified, h]) ?_
    rw [proceed_dial h]
    exact ih rfl h'

/-- A turn whose wait fails dispatches nothing. -/
theorem leadsQuietly_turn {error : IoError} (hidle : e.phase = .idle)
    (h : e.crawl.turn.1 = .error (.wait error)) :
    e.LeadsQuietly { e with
      crawl := e.crawl.turn.2, phase := .idle, began := some e.crawl } := by
  obtain ⟨-, herror, -⟩ | ⟨hbatch, _, spilled, net, -, hwait, hturn⟩ := e.crawl.turn_failed h
  · cases herror
  · let waiting : Engine := { e with
      crawl := e.crawl.admitted, phase := .admitting [], began := some e.crawl }
    have hstop : waiting.proceed = { waiting with crawl := e.crawl.turn.2, phase := .idle } := by
      rw [proceed_wait_failed (e := waiting) rfl hwait, hturn]
    refine .cons (by rw [notified, hidle]) ?_
    rw [proceed_begin hidle (Crawl.drain_of_ne_zero hbatch)]
    refine leadsQuietly_admitting rfl (.cons (e := waiting) rfl ?_)
    rw [hstop]
    exact .refl _

/-- The limits of a crawl never change. -/
theorem limits_run (e : Engine) (actions : List Action) :
    (e.run actions).crawl.limits = e.crawl.limits := by
  refine run_keeps (P := fun c => c.limits = e.crawl.limits) (fun {c notified c'} hchange hc => ?_)
    rfl actions
  rw [← hc]
  cases hchange with
  | quiet h => rw [h.rest]
  | disturbed net sockets => rfl
  | connected a => rw [(c.admits_connect a).rest]
  | dispatched ready => exact (c.dispatch_continues ready).limits

end Engine

namespace Crawl

theorem turn_zeroCount_iff (c : Crawl) :
    c.turn.1 = .error (.frontier .zeroCount) ↔ c.limits.batchSize = 0 := by
  refine ⟨fun h => ?_, fun h => by rw [turn_of_zero h]⟩
  obtain ⟨hbatch, -⟩ | ⟨-, _, _, _, herror, -⟩ := c.turn_failed h
  · exact hbatch
  · cases herror

theorem batchSize_of_build {o : CrawlOptions} {descriptors : Except IoError Nat}
    {frontier : Frontier} {net : Except IoError NetworkStack} {c : Crawl}
    (h : o.build descriptors frontier net = .ok c) : c.limits.batchSize ≠ 0 := by
  unfold CrawlOptions.build at h
  split at h
  · cases h
  · next hbatch =>
    split at h
    · cases h
    · cases h
    · rw [← Except.ok.inj h]
      exact hbatch

/-- **A turn that fails loses nothing and leaves nothing behind.** Take any crawl.

* Its turn fails for want of a batch if and only if its batches are empty, and then nothing has
  happened. This never befalls a crawl that was made from options, whatever it does and whatever
  happens around it.
* Otherwise the turn fails if and only if a wait fails that it makes. Then the whole batch was taken
  from the frontier and dialed, and nothing was handed on or reported. The steps that make up the
  turn dispatch no notification, and all connections, also those that were closed, are as they were
  before or as they are begun.
* What is in the buffer makes no difference: the turn has the same result and leaves the same
  behind, except that the buffer keeps what is there if the wait fails. Any run from now on, among
  others, does and dispatches the same as with an empty buffer. -/
theorem failed_turn_harmless (c : Crawl) :
    (c.turn.1 = .error (.frontier .zeroCount) ↔ c.limits.batchSize = 0) ∧
      (c.limits.batchSize = 0 → c.turn.2 = c) ∧
      (∀ (o : CrawlOptions) descriptors frontier net, o.build descriptors frontier net = .ok c →
        ∀ e : Engine, e.crawl = c → ∀ actions,
          (e.run actions).crawl.turn.1 ≠ .error (.frontier .zeroCount)) ∧
      (∃ made, c.turn.2.net.history = c.net.history ++ made ∧
        ∀ error, c.turn.1 = .error error ↔
          c.limits.batchSize = 0 ∧ error = .frontier .zeroCount ∨
            ∃ failure capacity timeout, error = .wait failure ∧
              ⟨.wait capacity timeout, some failure⟩ ∈ made) ∧
      (∀ failure, c.turn.1 = .error (.wait failure) → c.WaitFailed c.turn.2 ∧
        ∀ e : Engine, e.crawl = c → e.phase = .idle →
          e.LeadsQuietly { e with crawl := c.turn.2, phase := .idle, began := some c }) ∧
      (∀ buffer, (c.buffered buffer).turn.1 = c.turn.1 ∧
        (c.buffered buffer).turn.2.buffered [] = c.turn.2.buffered [] ∧
        ∀ n, c.turn.1 = .ok n → (c.buffered buffer).turn = c.turn) ∧
      ∀ e : Engine, e.crawl = c → ∀ actions,
        (e.emptied.run actions).emptied = (e.run actions).emptied ∧
          e.emptied.dispatches actions = e.dispatches actions := by
  refine ⟨c.turn_zeroCount_iff, fun h => by rw [turn_of_zero h], ?_, ?_, ?_, c.turn_buffered,
    fun e _ => e.run_emptied⟩
  · rintro o descriptors frontier net hbuild e rfl actions hzero
    rw [turn_zeroCount_iff, e.limits_run] at hzero
    exact batchSize_of_build hbuild hzero
  · obtain ⟨made, hmade, hwait⟩ := c.turn_calls
    refine ⟨made, hmade, fun error => ⟨fun h => ?_, ?_⟩⟩
    · obtain ⟨hbatch, rfl, -⟩ | ⟨-, failure, -, -, rfl, -⟩ := c.turn_failed h
      · exact .inl ⟨hbatch, rfl⟩
      · obtain ⟨capacity, timeout, hmem⟩ := (hwait failure).1 h
        exact .inr ⟨failure, capacity, timeout, rfl, hmem⟩
    · rintro (⟨hbatch, rfl⟩ | ⟨failure, capacity, timeout, rfl, hmem⟩)
      · rw [turn_of_zero hbatch]
      · exact (hwait failure).2 ⟨capacity, timeout, hmem⟩
  · intro failure h
    obtain ⟨-, herror, -⟩ | ⟨-, _, spilled, net, -, hwait, hturn⟩ := c.turn_failed h
    · cases herror
    · refine ⟨by rw [hturn]; exact c.waitFailed_admitted hwait, ?_⟩
      rintro e rfl hidle
      exact Engine.leadsQuietly_turn hidle h

/-- A wait fails and leaves a notification for the connection that was just dialed: the next turn
does not dispatch it. -/
theorem failed_turn_harmless_spilled :
    let ready : Readiness := { tag := ⟨0⟩, readable := true, writable := true, errored := true }
    let c : Crawl := {
      config := .standard
      limits :=
        { maxConnections := 1, batchSize := 1, pollTimeout := ⟨0⟩, statusInterval := ⟨0⟩ }
      frontier := { accepted := [Address.unspecified], pending := [Address.unspecified] }
      net := { failures := [(.wait, .timedOut)], spilled := [ready] } }
    let d := c.turn.2
    c.turn.1 = .error (.wait .timedOut) ∧ d.readiness = [ready] ∧
      d.roster.contains ready.tag = true ∧ d.net.dials = [Address.unspecified] ∧
      d.handed = [] ∧ d.turn.1 = .ok 0 ∧ (d.buffered []).turn = d.turn := by
  intro ready c d
  have hfailed : c.turn.1 = .error (.wait .timedOut) := by decide +kernel
  have hlater : d.turn.1 = .ok 0 := by decide +kernel
  obtain ⟨-, -, -, -, hharmless, -, -⟩ := failed_turn_harmless c
  obtain ⟨-, -, -, -, -, hbuffered, -⟩ := failed_turn_harmless d
  have hleft : c.WaitFailed d := (hharmless .timedOut hfailed).1
  refine ⟨hfailed, by decide +kernel, by decide +kernel, hleft.dials, by rw [hleft.rest], hlater,
    ?_⟩
  exact (hbuffered []).2.2 0 hlater

end Crawl

end PeerCrawl
