import PeerCrawl.Proofs.CallHistory
import PeerCrawl.Proofs.Messages
import PeerCrawl.Proofs.PeerIdentity
import PeerCrawl.Proofs.RosterOrder

set_option autoImplicit false

/-! # What the steps of a crawl change

Each step of a crawl, said once and for all: closing a connection (`Crawl.Closed`), dialing an
address once there is room (`Crawl.Dialed`), driving a connection (`Crawl.driven_rest`), bringing
its interest up to date (`Crawl.InterestUpdate`), and everything that touches no connection
(`Crawl.Quiet`). Every statement names the calls that the step makes, what becomes of the roster and
of the tags that are watched for writability, and, in an equation `rest`, all that stays. What every
`Crawl.Change` keeps holds throughout a run (`Engine.run_keeps`). -/

namespace PeerCrawl

/-! ## New connections -/

namespace Connection

/-- The connection that a dial begins. -/
def begun (socket : Socket) (a : Address) (config : Configuration) (complete : Bool) :
    Outcome Unit :=
  let fresh := ofSocket socket a config
  if complete then fresh.established else .unchanged fresh.markConnecting ()

theorem begun_keeps (socket : Socket) (a : Address) (config : Configuration) (complete : Bool) :
    (begun socket a config complete).Keeps (ofSocket socket a config) := by
  unfold begun
  dsimp only
  split
  · exact established_keeps _
  · exact .of_silent rfl rfl rfl

/-- A new connection has its connect in flight, or its version message to write. -/
theorem wantsWrite_begun (socket : Socket) (a : Address) (config : Configuration)
    (complete : Bool) : (begun socket a config complete).connection.wantsWrite = true := by
  cases complete with
  | false => rfl
  | true =>
    show (!true || !((ofSocket socket a config).markConnected.connection.session.queue
      Command.version _).outbox.isEmpty) = true
    rw [Session.queue_eq]
    rfl

end Connection

namespace Crawl

/-- The live connections: their sockets with their tags, in the order in which they came. -/
def slots (c : Crawl) : List (Nat × Tag) :=
  c.roster.connections.map fun entry => (entry.2.socket.number, entry.1)

theorem tags_slots (c : Crawl) : c.slots.map Prod.snd = c.roster.tags := by
  rw [slots, List.map_map]
  rfl

variable {c c' c'' : Crawl} {tag : Tag} {connection : Connection}

theorem mem_slots (hget : c.roster.get? tag = some connection) :
    (connection.socket.number, tag) ∈ c.slots :=
  List.mem_map_of_mem (f := fun entry => (entry.2.socket.number, entry.1))
    (Roster.mem_of_get? hget)

/-- A crawl has gone on: no call was taken back, and the limits are the same. -/
structure Continues (c c' : Crawl) : Prop where
  history : c.net.history <+: c'.net.history
  limits : c'.limits = c.limits

theorem Continues.refl (c : Crawl) : c.Continues c := ⟨List.prefix_rfl, rfl⟩

theorem Continues.trans (h : c.Continues c') (h' : c'.Continues c'') : c.Continues c'' :=
  ⟨h.history.trans h'.history, h'.limits.trans h.limits⟩

/-! ## Closing -/

/-- The connection with a tag was closed. -/
structure Closed (c : Crawl) (tag : Tag) (connection : Connection) (c' : Crawl) : Prop where
  roster : c'.roster = c.roster.without tag
  history : ∃ failure, c'.net.history = c.net.history ++
    [⟨.deregister connection.socket.number, failure⟩, ⟨.close connection.socket.number, none⟩]
  opened : c'.net.opened = c.net.opened
  writeWatched : c'.writeWatched = c.writeWatched.erase tag
  rest : c' = { c with
    roster := c'.roster, net := c'.net, writeWatched := c'.writeWatched, notices := c'.notices }

theorem close_of_live (h : c.roster.get? tag = some connection) :
    c.Closed tag connection (c.close tag) := by
  obtain ⟨hhistory, hopened⟩ := c.net.request_history (.deregister connection.socket.number)
  rcases hrequest : c.net.request (.deregister connection.socket.number) with ⟨failure, net⟩
  rw [hrequest] at hhistory hopened
  have hclosed : (net.close connection.socket).history = c.net.history ++
      [⟨.deregister connection.socket.number, failure⟩,
        ⟨.close connection.socket.number, none⟩] := by
    show net.history ++ _ = _
    rw [hhistory, List.append_assoc]
    rfl
  simp only [close, Roster.remove_of_get? h, hrequest]
  cases failure with
  | none => exact ⟨rfl, ⟨none, hclosed⟩, hopened, rfl, rfl⟩
  | some error => exact ⟨rfl, ⟨some error, hclosed⟩, hopened, rfl, rfl⟩

theorem Closed.continues (h : c.Closed tag connection c') : c.Continues c' := by
  obtain ⟨failure, hhistory⟩ := h.history
  exact ⟨⟨_, hhistory.symm⟩, by rw [h.rest]⟩

/-! ## Making room -/

theorem evictOldest_of_none (h : c.roster.Ordered) (hnone : c.roster.connections = []) :
    c.evictOldest = none := by
  have heviction : c.roster.eviction = [] := by
    rw [h.eviction, Roster.tags, hnone, List.map_nil]
  rw [evictOldest, Roster.evict, heviction]
  rfl

/-- Evicting closes the connection with the smallest tag. -/
theorem evictOldest_of_some (h : c.roster.Ordered) {rest : List (Tag × Connection)}
    (hr : c.roster.connections = (tag, connection) :: rest) :
    ∃ c', c.evictOldest = some c' ∧ c.Closed tag connection c' := by
  obtain ⟨hevict, hwithout, -, -⟩ := h.without_first hr
  have hget : c.roster.get? tag = some connection :=
    Roster.get?_of_mem h.nodup (by rw [hr]; exact List.mem_cons_self)
  have hclosed := close_of_live (c := { c with roster := { c.roster with
    eviction := c.roster.eviction.tail } }.note (.evicting tag)) hget
  refine ⟨_, by rw [evictOldest, hevict], ?_⟩
  exact ⟨hclosed.roster.trans hwithout, hclosed.history, hclosed.opened, hclosed.writeWatched,
    by rw [hclosed.rest]; rfl⟩

/-- Room is made for one connection: while no more are live than may be, that takes one eviction at
most. -/
theorem makeRoom_cases (h : c.roster.Ordered)
    (hceiling : c.roster.count ≤ max c.limits.maxConnections 1) :
    (c.makeRoom = c ∧ (c.roster.count < c.limits.maxConnections ∨ c.roster.count = 0)) ∨
      ∃ tag connection rest, c.roster.connections = (tag, connection) :: rest ∧
        c.limits.maxConnections ≤ c.roster.count ∧ c.Closed tag connection c.makeRoom := by
  rw [makeRoom]
  split
  · next hfull =>
    cases hr : c.roster.connections with
    | nil =>
      left
      rw [evictOldest_of_none h hr]
      exact ⟨rfl, .inr (by rw [Roster.count, hr, List.length_nil])⟩
    | cons entry rest =>
      obtain ⟨tag, connection⟩ := entry
      obtain ⟨c', hc', hclosed⟩ := evictOldest_of_some h hr
      refine .inr ⟨tag, connection, rest, rfl, hfull, ?_⟩
      rw [hc']
      -- after one eviction there is room, or nobody is left to evict
      have hrest : c'.roster.connections = rest := by
        rw [hclosed.roster]
        exact (h.without_first hr).2.2.1
      have hcount : c'.roster.count + 1 = c.roster.count := by
        rw [Roster.count, Roster.count, hrest, hr, List.length_cons]
      have hlimits : c'.limits = c.limits := by rw [hclosed.rest]
      show c.Closed tag connection c'.makeRoom
      rw [makeRoom, hlimits]
      split
      · next hstill =>
        have hnone : c'.roster.connections = [] := List.length_eq_zero_iff.1 (by
          simp only [Roster.count] at hcount hstill hceiling
          omega)
        have hordered : c'.roster.Ordered := by
          rw [hclosed.roster]
          exact Roster.ordered_without h tag
        rw [evictOldest_of_none hordered hnone]
        exact hclosed
      · exact hclosed
  · next hroom => exact .inl ⟨rfl, .inl (Nat.lt_of_not_le hroom)⟩

/-! ## Dialing -/

/-- What becomes of a dial once there is room. -/
inductive Dialed (c : Crawl) (a : Address) : Crawl → Prop
  /-- The dial fails. -/
  | refused {c' : Crawl} (error : IoError)
      (history : c'.net.history = c.net.history ++ [⟨.dial a, some error⟩])
      (opened : c'.net.opened = c.net.opened)
      (rest : c' = { c with net := c'.net, notices := c'.notices }) : Dialed c a c'
  /-- The new connection cannot be watched, so it goes again. -/
  | rejected {c' : Crawl} (error : IoError)
      (history : c'.net.history = c.net.history ++ [⟨.dial a, none⟩,
        ⟨.register c.net.opened ⟨c.roster.nextTag⟩ .readWrite, some error⟩,
        ⟨.close c.net.opened, none⟩])
      (opened : c'.net.opened = c.net.opened + 1)
      (roster : c'.roster = { c.roster with nextTag := c.roster.nextTag + 1 })
      (rest : c' = { c with net := c'.net, roster := c'.roster, notices := c'.notices }) :
      Dialed c a c'
  /-- The new connection is live. -/
  | admitted {c' : Crawl} (connection : Connection)
      (number : connection.socket.number = c.net.opened) (peer : connection.peer = a)
      (wants : connection.wantsWrite = true)
      (history : c'.net.history = c.net.history ++ [⟨.dial a, none⟩,
        ⟨.register c.net.opened ⟨c.roster.nextTag⟩ .readWrite, none⟩])
      (opened : c'.net.opened = c.net.opened + 1)
      (roster : c'.roster = (c.roster.add connection).2)
      (writeWatched : c'.writeWatched = c.writeWatched ++ [⟨c.roster.nextTag⟩])
      (rest : c' = { c with
        net := c'.net, roster := c'.roster, writeWatched := c'.writeWatched
        notices := c'.notices }) : Dialed c a c'

theorem Dialed.rest {a : Address} (h : c.Dialed a c') : c' = { c with
    net := c'.net, roster := c'.roster, writeWatched := c'.writeWatched
    notices := c'.notices } := by
  cases h with
  | refused _ _ _ rest | rejected _ _ _ _ rest | admitted _ _ _ _ _ _ _ _ rest => rw [rest]

theorem Dialed.continues {a : Address} (h : c.Dialed a c') : c.Continues c' := by
  refine ⟨?_, by rw [h.rest]⟩
  cases h with
  | refused _ history | rejected _ history | admitted _ _ _ _ history => exact ⟨_, history.symm⟩

theorem connect_of_refused {a : Address} {error : IoError} {net : NetworkStack}
    (hdial : c.makeRoom.net.dial a = (.error error, net)) :
    c.connect a = { c.makeRoom with net }.note (.dialFailed a (.io error)) := by
  simp only [connect, hdial]

theorem connect_of_opened {a : Address} {socket : Socket} {complete : Bool} {net : NetworkStack}
    (hdial : c.makeRoom.net.dial a = (.ok (socket, complete), net)) :
    c.connect a = ({ c.makeRoom with
      net
      roster := (c.makeRoom.roster.add
        (Connection.begun socket a c.makeRoom.config complete).connection).2 }.noteAll
      (Connection.begun socket a c.makeRoom.config complete).notices).watch a
        ⟨c.makeRoom.roster.nextTag⟩ socket := by
  simp only [connect, hdial]
  rfl

/-- A new connection is watched, or it goes again. -/
theorem watch_cases (a : Address) {socket : Socket} (hget : c.roster.get? tag = some connection)
    (hnumber : connection.socket.number = socket.number) :
    ∃ net notices, net.opened = c.net.opened ∧
      ((c.watch a tag socket = { c with net, notices, writeWatched := c.writeWatched ++ [tag] } ∧
        net.history = c.net.history ++ [⟨.register socket.number tag .readWrite, none⟩]) ∨
      ∃ error, c.watch a tag socket = { c with net, notices, roster := c.roster.without tag } ∧
        net.history = c.net.history ++ [⟨.register socket.number tag .readWrite, some error⟩,
          ⟨.close socket.number, none⟩]) := by
  obtain ⟨hhistory, hopened⟩ := c.net.request_history (.register socket.number tag .readWrite)
  rcases hrequest : c.net.request (.register socket.number tag .readWrite) with ⟨failure, net⟩
  rw [hrequest] at hhistory hopened
  have hremove := Roster.remove_of_get? hget
  cases failure with
  | none =>
    simp only [watch, hrequest]
    exact ⟨net, _, hopened, .inl ⟨rfl, hhistory⟩⟩
  | some error =>
    simp only [watch, hrequest, note, hremove]
    refine ⟨net.close connection.socket, _, hopened, .inr ⟨error, rfl, ?_⟩⟩
    show net.history ++ [⟨.close connection.socket.number, none⟩] = _
    rw [hhistory, hnumber, List.append_assoc]
    rfl

theorem connect_dialed (h : c.makeRoom.roster.Ordered) (a : Address) :
    c.makeRoom.Dialed a (c.connect a) := by
  rcases c.makeRoom.net.dial_cases a with
    ⟨error, net, hdial, hhistory, hopened⟩ |
    ⟨socket, complete, net, hdial, hsocket, hhistory, hopened⟩
  · rw [connect_of_refused hdial]
    exact .refused error hhistory hopened rfl
  · -- the new connection is the one on the socket that the dial has opened
    have hkeeps := Connection.begun_keeps socket a c.makeRoom.config complete
    have hwants := Connection.wantsWrite_begun socket a c.makeRoom.config complete
    rw [connect_of_opened hdial]
    generalize Connection.begun socket a c.makeRoom.config complete = begun at hkeeps hwants ⊢
    have hnumber : begun.connection.socket.number = socket.number := hkeeps.number
    obtain ⟨net', notices, hopened', hwatch⟩ := watch_cases a
      (c := { c.makeRoom with
        net, roster := (c.makeRoom.roster.add begun.connection).2 }.noteAll begun.notices)
      (h.get?_add begun.connection) hnumber
    have hcount : net'.opened = c.makeRoom.net.opened + 1 := hopened'.trans hopened
    rcases hwatch with ⟨hwatch, hhistory'⟩ | ⟨error, hwatch, hhistory'⟩
    · rw [hwatch]
      refine .admitted begun.connection (hnumber.trans hsocket) hkeeps.peer hwants ?_ hcount rfl
        rfl rfl
      show net'.history = _
      rw [hhistory', ← hsocket]
      show net.history ++ _ = _
      rw [hhistory, List.append_assoc]
      rfl
    · rw [hwatch]
      refine .rejected error ?_ hcount (h.without_add begun.connection) rfl
      show net'.history = _
      rw [hhistory', ← hsocket]
      show net.history ++ _ = _
      rw [hhistory, List.append_assoc]
      rfl

/-! ## Driving -/

theorem harvestEvents_rest (events : List PeerEvent) (c : Crawl) (peer : Address) :
    events.foldl (fun c event => c.harvestEvent peer event) c =
      let c' := events.foldl (fun c event => c.harvestEvent peer event) c
      { c with
        frontier := c'.frontier, reports := c'.reports, handed := c'.handed
        notices := c'.notices } := by
  induction events generalizing c with
  | nil => rfl
  | cons event rest ih =>
    rw [List.foldl_cons, ih (c.harvestEvent peer event)]
    cases event <;> rfl

/-- Driving a connection changes it and nobody else, and leaves nothing to hand on. -/
theorem driven_rest (c : Crawl) (ready : Readiness) (connection : Connection) :
    c.driven ready connection =
      let c' := c.driven ready connection
      { c with
        roster := c.roster.modify ready.tag fun _ => (connection.drive ready).connection
        events := []
        frontier := c'.frontier, reports := c'.reports, handed := c'.handed
        notices := c'.notices } :=
  harvestEvents_rest (c.events ++ (connection.drive ready).events) _ connection.peer

theorem net_driven (c : Crawl) (ready : Readiness) (connection : Connection) :
    (c.driven ready connection).net = c.net := by
  rw [driven_rest]

theorem get?_driven {ready : Readiness} (h : c.roster.get? ready.tag = some connection) :
    (c.driven ready connection).roster.get? ready.tag =
      some (connection.drive ready).connection := by
  rw [driven_rest]
  exact Roster.get?_modify_self h _

/-- The world changes the socket of a connection, and nothing else of it. -/
theorem get?_disturb (c : Crawl) (net : NetworkStack) (sockets : Tag → Socket) (tag : Tag) :
    (c.disturb net sockets).roster.get? tag = (c.roster.get? tag).map fun connection =>
      { connection with socket := { sockets tag with
        number := connection.socket.number, written := connection.socket.written } } := by
  rw [Roster.get?, Roster.get?, disturb, List.find?_map, Option.map_map, Option.map_map]
  show Option.map _ (c.roster.connections.find? fun entry => entry.1 = tag) = _
  cases hfind : c.roster.connections.find? fun entry => entry.1 = tag with
  | none => rfl
  | some entry =>
    have htag : entry.1 = tag := by simpa using List.find?_some hfind
    rw [← htag]
    rfl

/-! ## Interest -/

/-- The interest of a connection was brought up to date, or could not be. -/
inductive InterestUpdate (c : Crawl) (tag : Tag) (connection : Connection) : Crawl → Prop
  /-- It was so already. -/
  | kept (h : tag ∈ c.writeWatched ↔ connection.wantsWrite = true) :
      InterestUpdate c tag connection c
  | failed {c' : Crawl} (error : IoError) (interest : Interest)
      (history : c'.net.history = c.net.history ++
        [⟨.reregister connection.socket.number tag interest, some error⟩])
      (opened : c'.net.opened = c.net.opened)
      (rest : c' = { c with net := c'.net, notices := c'.notices }) :
      InterestUpdate c tag connection c'
  | granted {c' : Crawl}
      (history : c'.net.history = c.net.history ++
        [⟨.reregister connection.socket.number tag
          (if connection.wantsWrite then .readWrite else .readable), none⟩])
      (opened : c'.net.opened = c.net.opened)
      (writeWatched : c'.writeWatched =
        if connection.wantsWrite then c.writeWatched.erase tag ++ [tag]
        else c.writeWatched.erase tag)
      (rest : c' = { c with net := c'.net, writeWatched := c'.writeWatched }) :
      InterestUpdate c tag connection c'

theorem interestUpdate (h : c.roster.get? tag = some connection) :
    c.InterestUpdate tag connection (c.updateInterest tag) := by
  simp only [updateInterest, h]
  split
  · next hsame =>
    refine .kept ?_
    rw [hsame, List.contains_iff_mem]
  · obtain ⟨hhistory, hopened⟩ := c.net.request_history (.reregister connection.socket.number tag
      (if connection.wantsWrite then .readWrite else .readable))
    rcases hrequest : c.net.request (.reregister connection.socket.number tag
      (if connection.wantsWrite then .readWrite else .readable)) with ⟨failure, net⟩
    rw [hrequest] at hhistory hopened
    cases failure with
    | some error => exact .failed error _ hhistory hopened rfl
    | none => exact .granted hhistory hopened rfl rfl

theorem InterestUpdate.rest (h : c.InterestUpdate tag connection c') :
    c' = { c with
      net := c'.net, writeWatched := c'.writeWatched, notices := c'.notices } := by
  cases h with
  | kept _ => rfl
  | failed _ _ _ _ rest | granted _ _ _ rest => rw [rest]

theorem InterestUpdate.continues (h : c.InterestUpdate tag connection c') : c.Continues c' := by
  refine ⟨?_, by rw [h.rest]⟩
  cases h with
  | kept _ => exact List.prefix_rfl
  | failed _ _ history | granted history => exact ⟨_, history.symm⟩

/-- What becomes of a connection that was driven: its interest is brought up to date, or it is
closed. -/
theorem conclude_cases (h : c.roster.get? tag = some connection) (peer : Address)
    (result : Except ConnectionError Unit) :
    (result = .ok () ∧ c.InterestUpdate tag connection (c.conclude tag peer result)) ∨
      ∃ error, result = .error error ∧ c.Closed tag connection (c.conclude tag peer result) := by
  have hclosed : ∀ notice, c.Closed tag connection ((c.note notice).close tag) := by
    intro notice
    have hclosed := close_of_live (c := c.note notice) h
    exact ⟨hclosed.roster, hclosed.history, hclosed.opened, hclosed.writeWatched, hclosed.rest⟩
  unfold conclude
  split
  · exact .inl ⟨rfl, interestUpdate h⟩
  · exact .inr ⟨_, rfl, hclosed _⟩
  · exact .inr ⟨_, rfl, hclosed _⟩

theorem dispatch_continues (c : Crawl) (ready : Readiness) : c.Continues (c.dispatch ready) := by
  cases hget : c.roster.get? ready.tag with
  | none =>
    rw [dispatch_of_stale hget]
    exact ⟨List.prefix_rfl, rfl⟩
  | some connection =>
    have hdriven : c.Continues (c.driven ready connection) := by
      rw [driven_rest]
      exact ⟨List.prefix_rfl, rfl⟩
    rw [dispatch_of_live hget]
    refine hdriven.trans ?_
    rcases conclude_cases (get?_driven hget) connection.peer (connection.drive ready).result with
      ⟨-, hupdate⟩ | ⟨error, -, hclosed⟩
    · exact hupdate.continues
    · exact hclosed.continues

/-! ## One step of any kind -/

/-- Nobody has come or gone, nobody is watched for anything else, and nobody has told anything. -/
structure Quiet (c c' : Crawl) : Prop where
  history : ∃ made, c'.net.history = c.net.history ++ made ∧ ∀ r ∈ made, r.Neutral
  opened : c'.net.opened = c.net.opened
  rest : c' = { c with
    frontier := c'.frontier, net := c'.net, readiness := c'.readiness
    lastStatus := c'.lastStatus, reports := c'.reports, notices := c'.notices }

theorem Quiet.continues (h : c.Quiet c') : c.Continues c' := by
  obtain ⟨made, hmade, -⟩ := h.history
  exact ⟨⟨made, hmade.symm⟩, by rw [h.rest]⟩

/-- A step that calls nobody. -/
theorem Quiet.of_net (hnet : c'.net = c.net)
    (hrest : c' = { c with
      frontier := c'.frontier, net := c'.net, readiness := c'.readiness
      lastStatus := c'.lastStatus, reports := c'.reports, notices := c'.notices }) : c.Quiet c' :=
  ⟨⟨[], by rw [hnet, List.append_nil], by simp⟩, by rw [hnet], hrest⟩

/-- A step that makes one call. -/
theorem Quiet.of_call {r : Request} (hhistory : c'.net.history = c.net.history ++ [r])
    (hr : r.Neutral) (hopened : c'.net.opened = c.net.opened)
    (hrest : c' = { c with
      frontier := c'.frontier, net := c'.net, readiness := c'.readiness
      lastStatus := c'.lastStatus, reports := c'.reports, notices := c'.notices }) :
    c.Quiet c' := by
  refine ⟨⟨[r], hhistory, ?_⟩, hopened, hrest⟩
  intro r' hr'
  rw [List.mem_singleton.1 hr']
  exact hr

theorem quiet_note (c : Crawl) (notice : CrawlNotice) : c.Quiet (c.note notice) :=
  .of_net rfl rfl

theorem quiet_logStatus (c : Crawl) : c.Quiet c.logStatus := by
  unfold logStatus
  split
  · exact .of_net rfl rfl
  · exact .of_net rfl rfl

/-- One step of a crawl, or of the world around it, and the notification that it dispatches. -/
inductive Change (c : Crawl) : Option Readiness → Crawl → Prop
  | quiet {c' : Crawl} (h : c.Quiet c') : Change c none c'
  | disturbed (net : NetworkStack) (sockets : Tag → Socket) :
      Change c none (c.disturb net sockets)
  | connected (a : Address) : Change c none (c.connect a)
  | dispatched (ready : Readiness) : Change c (some ready) (c.dispatch ready)

end Crawl

namespace Engine

/-- The notification that an action dispatches. -/
def notified (e : Engine) : Action → Option Readiness
  | .proceed =>
    match e.phase with
    | .dispatching (ready :: _) => some ready
    | _ => none
  | .offer _ | .disturb .. => none

theorem proceed_change (e : Engine) : e.crawl.Change (e.notified .proceed) e.proceed.crawl := by
  simp only [notified]
  rcases hphase : e.phase with _ | batch | ready
  · cases hdrain : e.crawl.frontier.drain e.crawl.limits.batchSize with
    | error error =>
      rw [proceed_refused hphase hdrain]
      exact .quiet (.of_net rfl rfl)
    | ok taken =>
      rw [proceed_begin hphase hdrain]
      exact .quiet (.of_net rfl rfl)
  · cases batch with
    | nil =>
      obtain ⟨hhistory, hopened⟩ := e.crawl.net.wait_history e.crawl.readiness
        (max e.crawl.roster.count 1) e.crawl.limits.pollTimeout
      have hneutral := Request.neutral_wait (max e.crawl.roster.count 1)
        e.crawl.limits.pollTimeout
      rcases hw : e.waited with ⟨failure, buffer, net⟩
      rw [show e.crawl.net.wait _ _ _ = _ from hw] at hhistory hopened
      cases failure with
      | some error =>
        rw [proceed_wait_failed hphase hw]
        exact .quiet (.of_call hhistory (hneutral _) hopened rfl)
      | none =>
        rw [proceed_wait hphase hw]
        exact .quiet (.of_call hhistory (hneutral _) hopened rfl)
    | cons a rest =>
      rw [proceed_dial hphase]
      exact .connected a
  · cases ready with
    | nil =>
      rw [proceed_end hphase]
      exact .quiet e.crawl.quiet_logStatus
    | cons r rest =>
      rw [proceed_dispatch hphase]
      exact .dispatched r

theorem step_change (e : Engine) (action : Action) :
    e.crawl.Change (e.notified action) (e.step action).crawl := by
  cases action with
  | proceed => exact e.proceed_change
  | offer a => exact .quiet (.of_net rfl rfl)
  | disturb net sockets => exact .disturbed net sockets

/-- What every step of a crawl keeps holds throughout a run. -/
theorem run_keeps {P : Crawl → Prop} (hstep : ∀ {c notified c'}, c.Change notified c' → P c → P c')
    {e : Engine} (h : P e.crawl) (actions : List Action) : P (e.run actions).crawl := by
  induction actions generalizing e with
  | nil => exact h
  | cons action rest ih => exact ih (hstep (e.step_change action) h)

end Engine

end PeerCrawl
