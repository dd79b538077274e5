import PeerCrawl.Proofs.Harvest

set_option autoImplicit false

/-! # Every connection of a crawl

What is true of a connection when it is dialed, and stays true whatever is done to it, is true of
every connection of a crawl: of those that are live, and of those whose sockets were closed since
(`Crawl.Everyone`). `Engine.everyone_run` says so of whole runs, for a property that may speak of
the notifications that were dispatched so far. -/

namespace PeerCrawl

namespace NetworkStack

theorem closed_failureFor (n : NetworkStack) (call : Call) :
    (n.failureFor call).2.closed = n.closed := by
  unfold failureFor
  dsimp only
  split <;> rfl

theorem closed_request (n : NetworkStack) (call : Call) :
    (n.request call).2.closed = n.closed :=
  n.closed_failureFor call

theorem closed_wait (n : NetworkStack) (buffer : List Readiness) (capacity : Nat)
    (timeout : Duration) : (n.wait buffer capacity timeout).2.2.closed = n.closed := by
  have hrequest := n.closed_request (.wait capacity timeout)
  unfold wait
  dsimp only
  split <;> exact hrequest

theorem closed_nextDial (n : NetworkStack) (a : Address) :
    (n.nextDial a).2.closed = n.closed := by
  have hfailure := n.closed_failureFor (.dial a)
  rcases h : n.failureFor (.dial a) with ⟨_ | e, n'⟩ <;> rw [h] at hfailure <;>
    simpa only [nextDial, h] using hfailure

/-- A dial closes nothing, and nothing was written to a socket that it opens. -/
theorem closed_dial (n : NetworkStack) (a : Address) :
    (n.dial a).2.closed = n.closed ∧
      ∀ socket complete, (n.dial a).1 = .ok (socket, complete) → socket.written = [] := by
  have hnext := n.closed_nextDial a
  rcases h : n.nextDial a with ⟨_ | _ | e, n'⟩ <;> rw [h] at hnext <;> simp only [dial, h]
  · refine ⟨hnext, fun socket complete hok => ?_⟩
    rw [← (Prod.mk.inj (Except.ok.inj hok)).1]
    rfl
  · refine ⟨hnext, fun socket complete hok => ?_⟩
    rw [← (Prod.mk.inj (Except.ok.inj hok)).1]
    rfl
  · refine ⟨hnext, fun socket complete hok => ?_⟩
    cases hok

end NetworkStack

namespace Crawl

/-- All connections have a property: the live ones, and those whose sockets were closed after
`before`. -/
structure Everyone (config : Configuration) (before : List Socket) (P : Connection → Prop)
    (c : Crawl) : Prop where
  config : c.config = config
  live : ∀ entry ∈ c.roster.connections, P entry.2
  gone : ∃ gone : List Connection, c.net.closed = before ++ gone.map Connection.socket ∧
    ∀ connection ∈ gone, P connection

variable {config : Configuration} {before : List Socket} {P Q : Connection → Prop} {c c' : Crawl}
  {tag : Tag}

theorem Everyone.imp (h : c.Everyone config before P)
    (hPQ : ∀ connection, P connection → Q connection) :
    c.Everyone config before Q := by
  obtain ⟨gone, hgone, hall⟩ := h.gone
  exact ⟨h.config, fun entry hmem => hPQ _ (h.live entry hmem), gone, hgone,
    fun connection hmem => hPQ _ (hall connection hmem)⟩

theorem Everyone.of_get? (h : c.Everyone config before P) {connection : Connection}
    (hget : c.roster.get? tag = some connection) : P connection :=
  h.live _ (Roster.mem_of_get? hget)

/-! ## Steps -/

/-- A step that closes nothing, and takes nobody in. -/
theorem Everyone.of_closed_eq (h : c.Everyone config before P) (hconfig : c'.config = c.config)
    (hroster : ∀ entry ∈ c'.roster.connections, entry ∈ c.roster.connections)
    (hclosed : c'.net.closed = c.net.closed) : c'.Everyone config before P where
  config := hconfig.trans h.config
  live := fun entry hmem => h.live entry (hroster entry hmem)
  gone := by
    rw [hclosed]
    exact h.gone

/-- A connection is closed, and the others stay. -/
theorem Everyone.of_closed (h : c.Everyone config before P) {connection : Connection}
    (hP : P connection) (hconfig : c'.config = c.config)
    (hroster : ∀ entry ∈ c'.roster.connections, entry ∈ c.roster.connections)
    (hclosed : c'.net.closed = c.net.closed ++ [connection.socket]) :
    c'.Everyone config before P := by
  obtain ⟨gone, hgone, hall⟩ := h.gone
  refine ⟨hconfig.trans h.config, fun entry hmem => h.live entry (hroster entry hmem),
    gone ++ [connection], ?_, ?_⟩
  · rw [hclosed, hgone, List.map_append, List.append_assoc]
    rfl
  · intro connection' hmem
    rcases List.mem_append.1 hmem with hold | hnew
    · exact hall connection' hold
    · rw [List.mem_singleton.1 hnew]
      exact hP

theorem Everyone.close (h : c.Everyone config before P) (tag : Tag) :
    (c.close tag).Everyone config before P := by
  cases hget : c.roster.get? tag with
  | none =>
    have hclose : c.close tag = { c with writeWatched := c.writeWatched.erase tag } := by
      simp only [Crawl.close, Roster.remove, hget]
    rw [hclose]
    exact h.of_closed_eq rfl (fun _ hmem => hmem) rfl
  | some connection =>
    have hrequest := c.net.closed_request (.deregister connection.socket.number)
    rcases hnet : c.net.request (.deregister connection.socket.number) with ⟨failure, net⟩
    rw [hnet] at hrequest
    have hothers : ∀ entry ∈ (c.roster.without tag).connections, entry ∈ c.roster.connections :=
      fun entry hmem => (List.mem_filter.1 hmem).1
    have hclosed : net.closed ++ [connection.socket] = c.net.closed ++ [connection.socket] := by
      rw [hrequest]
    simp only [Crawl.close, Roster.remove_of_get? hget, hnet]
    cases failure with
    | none => exact h.of_closed (h.of_get? hget) rfl hothers hclosed
    | some error => exact h.of_closed (h.of_get? hget) rfl hothers hclosed

theorem Everyone.makeRoom (h : c.Everyone config before P) :
    c.makeRoom.Everyone config before P := by
  fun_induction Crawl.makeRoom c with
  | case1 c hfull hnone => exact h
  | case3 c hroom => exact h
  -- the oldest connection goes
  | case2 c hfull c' hevict ih =>
    refine ih ?_
    unfold evictOldest at hevict
    split at hevict
    · cases hevict
    · next tag roster hroster =>
      have hroster' : roster = { c.roster with eviction := c.roster.eviction.tail } :=
        (Prod.mk.inj hroster).2.symm
      rw [← Option.some.inj hevict]
      have hnoted : ({ c with roster }.note (.evicting tag)).Everyone config before P := by
        refine h.of_closed_eq rfl (fun entry hmem => ?_) rfl
        rw [note, hroster'] at hmem
        exact hmem
      exact hnoted.close tag

theorem Everyone.watch (h : c.Everyone config before P) (a : Address) (tag : Tag)
    (socket : Socket) : (c.watch a tag socket).Everyone config before P := by
  have hrequest := c.net.closed_request (.register socket.number tag .readWrite)
  rcases hnet : c.net.request (.register socket.number tag .readWrite) with ⟨_ | error, net⟩
  · rw [hnet] at hrequest
    simp only [Crawl.watch, hnet]
    exact h.of_closed_eq rfl (fun _ hmem => hmem) hrequest
  · rw [hnet] at hrequest
    cases hget : c.roster.get? tag with
    | none =>
      simp only [Crawl.watch, hnet, note, Roster.remove, hget]
      exact h.of_closed_eq rfl (fun _ hmem => hmem) hrequest
    | some connection =>
      simp only [Crawl.watch, hnet, note, Roster.remove_of_get? hget]
      refine h.of_closed (h.of_get? hget) rfl (fun entry hmem => (List.mem_filter.1 hmem).1) ?_
      show net.closed ++ [connection.socket] = _
      rw [hrequest]

/-- A new connection is taken in, or not. -/
theorem Everyone.connect (h : c.Everyone config before P)
    (hbegun : ∀ socket a complete, socket.written = [] →
      P (Connection.begun socket a config complete).connection) (a : Address) :
    (c.connect a).Everyone config before P := by
  have hroom := h.makeRoom
  obtain ⟨hclosed, hwritten⟩ := c.makeRoom.net.closed_dial a
  rcases hdial : c.makeRoom.net.dial a with ⟨error | ⟨socket, complete⟩, net⟩
  · rw [hdial] at hclosed
    rw [connect_of_refused hdial]
    exact hroom.of_closed_eq rfl (fun _ hmem => hmem) hclosed
  · rw [hdial] at hclosed hwritten
    have hnew := hbegun socket a complete (hwritten socket complete rfl)
    rw [connect_of_opened hdial, hroom.config]
    have hadmitted : ({ c.makeRoom with
        net
        roster := (c.makeRoom.roster.add
          (Connection.begun socket a config complete).connection).2 }.noteAll
        (Connection.begun socket a config complete).notices).Everyone config before P := by
      refine ⟨hroom.config, ?_, ?_⟩
      · intro entry hmem
        rcases List.mem_append.1 hmem with hold | hadded
        · exact hroom.live entry hold
        · rw [List.mem_singleton.1 hadded]
          exact hnew
      · obtain ⟨gone, hgone, hall⟩ := hroom.gone
        exact ⟨gone, hclosed.trans hgone, hall⟩
    exact hadmitted.watch a _ socket

theorem Everyone.updateInterest (h : c.Everyone config before P) (tag : Tag) :
    (c.updateInterest tag).Everyone config before P := by
  cases hget : c.roster.get? tag with
  | none =>
    simp only [Crawl.updateInterest, hget]
    exact h
  | some connection =>
    have hrequest := c.net.closed_request (.reregister connection.socket.number tag
      (if connection.wantsWrite then .readWrite else .readable))
    simp only [Crawl.updateInterest, hget]
    split
    · exact h
    · split
      · exact h.of_closed_eq rfl (fun _ hmem => hmem) hrequest
      · exact h.of_closed_eq rfl (fun _ hmem => hmem) hrequest

theorem Everyone.conclude (h : c.Everyone config before P) (tag : Tag) (peer : Address)
    (result : Except ConnectionError Unit) :
    (c.conclude tag peer result).Everyone config before P := by
  have hnote : ∀ notice, (c.note notice).Everyone config before P := fun notice =>
    h.of_closed_eq rfl (fun _ hmem => hmem) rfl
  unfold Crawl.conclude
  split
  · exact h.updateInterest tag
  · exact (hnote _).close tag
  · exact (hnote _).close tag

/-- Whoever a notification is for is driven; what is true of the others may be said less of. -/
theorem Everyone.dispatch (h : c.Everyone config before P) {ready : Readiness}
    (hPQ : ∀ connection, P connection → Q connection)
    (hdrive : ∀ connection, c.roster.get? ready.tag = some connection → P connection →
      Q (connection.drive ready).connection) :
    (c.dispatch ready).Everyone config before Q := by
  cases hget : c.roster.get? ready.tag with
  | none =>
    rw [dispatch_of_stale hget]
    exact (h.imp hPQ).of_closed_eq rfl (fun _ hmem => hmem) rfl
  | some connection =>
    have hdriven : (c.driven ready connection).Everyone config before Q := by
      rw [driven_rest]
      refine ⟨h.config, ?_, (h.imp hPQ).gone⟩
      intro entry hmem
      obtain ⟨old, hold, rfl⟩ := List.mem_map.1 hmem
      split
      · exact hdrive connection hget (h.of_get? hget)
      · exact hPQ _ (h.live old hold)
    rw [dispatch_of_live hget]
    exact hdriven.conclude _ _ _

theorem Everyone.disturb (h : c.Everyone config before P)
    (hsocket : ∀ connection (socket : Socket), P connection →
      P { connection with socket := { socket with
        number := connection.socket.number, written := connection.socket.written } })
    (net : NetworkStack) (sockets : Tag → Socket) :
    (c.disturb net sockets).Everyone config before P where
  config := h.config
  live := fun entry hmem => by
    obtain ⟨old, hold, rfl⟩ := List.mem_map.1 hmem
    exact hsocket old.2 (sockets old.1) (h.live old hold)
  gone := h.gone

end Crawl

/-! ## Runs -/

/-- What is true of a connection that is begun, and is kept by notifications and by the world. It
may speak of the notifications that were dispatched to live connections so far. -/
structure Lasting (config : Configuration) (P : List Dispatch → Connection → Prop) : Prop where
  begun : ∀ ds socket a complete, socket.written = [] →
    P ds (Connection.begun socket a config complete).connection
  disturbed : ∀ ds connection (socket : Socket), P ds connection →
    P ds { connection with socket := { socket with
      number := connection.socket.number, written := connection.socket.written } }
  driven : ∀ ds (d : Dispatch), P ds d.connection →
    P (ds ++ [d]) (d.connection.drive d.ready).connection
  other : ∀ ds d connection, P ds connection → P (ds ++ [d]) connection

namespace Engine

variable {config : Configuration} {before : List Socket}
  {P : List Dispatch → Connection → Prop} {e : Engine} {ds : List Dispatch}

theorem everyone_dispatch (hP : Lasting config P) (h : e.crawl.Everyone config before (P ds))
    (ready : Readiness) :
    (e.crawl.dispatch ready).Everyone config before
      (P (ds ++ (e.crawl.dispatch? ready).toList)) := by
  refine h.dispatch ?_ ?_
  · intro connection hconnection
    cases e.crawl.dispatch? ready with
    | none =>
      rw [Option.toList_none, List.append_nil]
      exact hconnection
    | some d => exact hP.other ds d connection hconnection
  · intro connection hget hconnection
    rw [Crawl.dispatch?, hget]
    exact hP.driven ds { ready, connection } hconnection

theorem everyone_proceed (hP : Lasting config P) (h : e.crawl.Everyone config before (P ds)) :
    e.proceed.crawl.Everyone config before
      (P (ds ++ ((e.notified .proceed).bind e.crawl.dispatch?).toList)) := by
  rcases hphase : e.phase with _ | (_ | ⟨a, rest⟩) | (_ | ⟨ready, rest⟩)
  all_goals simp only [notified, hphase, Option.bind_none, Option.bind_some, Option.toList_none,
    List.append_nil]
  · cases hdrain : e.crawl.frontier.drain e.crawl.limits.batchSize with
    | error error =>
      rw [proceed_refused hphase hdrain]
      exact h
    | ok taken =>
      rw [proceed_begin hphase hdrain]
      exact h.of_closed_eq rfl (fun _ hmem => hmem) rfl
  · have hclosed : e.waited.2.2.closed = e.crawl.net.closed := e.crawl.net.closed_wait _ _ _
    rcases hw : e.waited with ⟨_ | error, buffer, net⟩ <;> rw [hw] at hclosed
    · rw [proceed_wait hphase hw]
      exact h.of_closed_eq rfl (fun _ hmem => hmem) hclosed
    · rw [proceed_wait_failed hphase hw]
      exact h.of_closed_eq rfl (fun _ hmem => hmem) hclosed
  · rw [proceed_dial hphase]
    exact h.connect (hP.begun ds) a
  · rw [proceed_end hphase]
    unfold Crawl.logStatus
    split <;> exact h.of_closed_eq rfl (fun _ hmem => hmem) rfl
  · rw [proceed_dispatch hphase]
    exact everyone_dispatch hP h ready

theorem everyone_step (hP : Lasting config P) (h : e.crawl.Everyone config before (P ds))
    (action : Action) :
    (e.step action).crawl.Everyone config before
      (P (ds ++ ((e.notified action).bind e.crawl.dispatch?).toList)) := by
  cases action with
  | proceed => exact everyone_proceed hP h
  | offer a =>
    rw [notified, Option.bind_none, Option.toList_none, List.append_nil]
    exact h.of_closed_eq rfl (fun _ hmem => hmem) rfl
  | disturb net sockets =>
    rw [notified, Option.bind_none, Option.toList_none, List.append_nil]
    exact h.disturb (hP.disturbed ds) net sockets

/-- What is lasting is true of every connection of a run. -/
theorem everyone_run (hP : Lasting config P) (h : e.crawl.Everyone config before (P ds))
    (actions : List Action) :
    (e.run actions).crawl.Everyone config before (P (ds ++ e.dispatches actions)) := by
  induction actions generalizing e ds with
  | nil =>
    rw [dispatches, List.append_nil]
    exact h
  | cons action rest ih =>
    rw [dispatches, ← List.append_assoc]
    exact ih (everyone_step hP h action)

end Engine

end PeerCrawl
