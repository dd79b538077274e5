import PeerCrawl.Crawl.Turn

set_option autoImplicit false

/-! # Crawls among others

A turn is not one step: while a crawl dials, waits and dispatches, other owners of the frontier
offer addresses, peers send bytes, and the operating system changes its mind. An `Engine` is a crawl
with the place in its turn that it has come to, and `Engine.step` is one action: of the crawl itself
(`Engine.proceed`), or of the world around it. Left alone, an engine takes the turns of its crawl
(`Engine.leads_turn`); among others, its turns still come to an end (`Engine.concludes`). -/

namespace PeerCrawl

/-- Where in a turn a crawl is. -/
inductive Phase where
  /-- Between two turns. -/
  | idle
  /-- Addresses of the batch that are still to be dialed. -/
  | admitting (batch : List Address)
  /-- Notifications that are still to be dispatched. -/
  | dispatching (ready : List Readiness)
deriving DecidableEq

/-- The addresses that were taken from the frontier and not dialed yet. -/
def Phase.batch : Phase → List Address
  | admitting batch => batch
  | idle | dispatching _ => []

/-- The addresses that an event tells. -/
def PeerEvent.told : PeerEvent → List Address
  | .handshake _ => []
  | .addresses as => as

namespace Crawl

/-- What the world changes without being asked: what the operating system will answer, and what the
sockets of live connections hold and take. What was asked of the one and written to the others
stays. -/
def disturb (c : Crawl) (net : NetworkStack) (sockets : Tag → Socket) : Crawl :=
  { c with
    net := { net with
      opened := c.net.opened
      closed := c.net.closed
      history := c.net.history
      clock := max c.net.clock net.clock }
    roster := { c.roster with connections := c.roster.connections.map fun (tag, connection) =>
      (tag, { connection with socket := { sockets tag with
        number := connection.socket.number, written := connection.socket.written } }) } }

/-- The crawl once a connection was driven, and once what its peer told was handed on. -/
def driven (c : Crawl) (ready : Readiness) (connection : Connection) : Crawl :=
  let driven := connection.drive ready
  ({ c with
    roster := c.roster.modify ready.tag fun _ => driven.connection
    events := c.events ++ driven.events }.noteAll driven.notices).harvest connection.peer

/-- What becomes of a connection that was driven. -/
def conclude (c : Crawl) (tag : Tag) (peer : Address) : Except ConnectionError Unit → Crawl
  | .ok () => c.updateInterest tag
  | .error .peerClosed => (c.note (.peerClosed peer)).close tag
  | .error error => (c.note (.dropped peer error)).close tag

theorem dispatch_of_stale {c : Crawl} {ready : Readiness} (h : c.roster.get? ready.tag = none) :
    c.dispatch ready = c.note (.staleReadiness ready.tag) := by
  simp only [dispatch, h]

theorem dispatch_of_live {c : Crawl} {ready : Readiness} {connection : Connection}
    (h : c.roster.get? ready.tag = some connection) :
    c.dispatch ready = (c.driven ready connection).conclude ready.tag connection.peer
      (connection.drive ready).result := by
  simp only [dispatch, h]
  rfl

/-- The addresses that the dispatch of a notification offers. -/
def gossip (c : Crawl) (ready : Readiness) : List Address :=
  match c.roster.get? ready.tag with
  | none => []
  | some connection => (c.events ++ (connection.drive ready).events).flatMap PeerEvent.told

end Crawl

/-- A crawl in the middle of its work. -/
structure Engine where
  crawl : Crawl
  phase : Phase := .idle
  /-- The crawl at the moment when its last turn began. -/
  began : Option Crawl := none
  /-- Every address that was offered to the frontier so far, by whomever. -/
  offered : List Address := []

/-- What happens next. -/
inductive Action where
  /-- The crawl takes its next step. -/
  | proceed
  /-- Somebody else offers an address. -/
  | offer (address : Address)
  /-- The world changes. -/
  | disturb (net : NetworkStack) (sockets : Tag → Socket)

namespace Engine

/-- The next step of the crawl itself: begin a turn by taking a batch, dial one address, wait,
dispatch one notification, or end the turn. -/
def proceed (e : Engine) : Engine :=
  match e.phase with
  | .idle =>
    match e.crawl.frontier.drain e.crawl.limits.batchSize with
    | .error _ => { e with began := some e.crawl }
    | .ok (batch, frontier) =>
      { e with
        crawl := { e.crawl with frontier }
        phase := .admitting batch
        began := some e.crawl }
  | .admitting (a :: rest) =>
    { e with crawl := e.crawl.connect a, phase := .admitting rest }
  | .admitting [] =>
    let c := e.crawl
    let (failure, buffer, net) :=
      c.net.wait c.readiness (max c.roster.count 1) c.limits.pollTimeout
    match failure with
    | some _ => { e with crawl := { c with net, readiness := buffer }, phase := .idle }
    | none => { e with crawl := { c with net, readiness := [] }, phase := .dispatching buffer }
  | .dispatching (ready :: rest) =>
    { e with
      crawl := e.crawl.dispatch ready
      phase := .dispatching rest
      offered := e.offered ++ e.crawl.gossip ready }
  | .dispatching [] => { e with crawl := e.crawl.logStatus, phase := .idle }

/-- One action. -/
def step (e : Engine) : Action → Engine
  | .proceed => e.proceed
  | .offer a => { e with crawl := e.crawl.offer a, offered := e.offered ++ [a] }
  | .disturb net sockets => { e with crawl := e.crawl.disturb net sockets }

def run (e : Engine) (actions : List Action) : Engine := actions.foldl step e

/-- An engine that has done nothing: its frontier is empty, and nothing was asked of the network. -/
def fresh (config : Configuration) (limits : CrawlLimits) (net : NetworkStack)
    (reporting : Bool) : Engine where
  crawl := { config, limits, net := { net with history := [] }, frontier := { reporting } }

/-! ## The steps of the crawl itself -/

variable {e e' e'' : Engine}

/-- The wait of a turn. -/
def waited (e : Engine) : Option IoError × List Readiness × NetworkStack :=
  e.crawl.net.wait e.crawl.readiness (max e.crawl.roster.count 1) e.crawl.limits.pollTimeout

theorem proceed_refused (h : e.phase = .idle) {error : FrontierError}
    (hdrain : e.crawl.frontier.drain e.crawl.limits.batchSize = .error error) :
    e.proceed = { e with began := some e.crawl } := by
  rw [proceed, h]
  simp only [hdrain]

theorem proceed_begin (h : e.phase = .idle) {batch : List Address} {frontier : Frontier}
    (hdrain : e.crawl.frontier.drain e.crawl.limits.batchSize = .ok (batch, frontier)) :
    e.proceed = { e with
      crawl := { e.crawl with frontier }, phase := .admitting batch, began := some e.crawl } := by
  rw [proceed, h]
  simp only [hdrain]

theorem proceed_dial {a : Address} {rest : List Address}
    (h : e.phase = .admitting (a :: rest)) :
    e.proceed = { e with crawl := e.crawl.connect a, phase := .admitting rest } := by
  rw [proceed, h]

theorem proceed_wait_failed (h : e.phase = .admitting []) {error : IoError}
    {buffer : List Readiness} {net : NetworkStack} (hw : e.waited = (some error, buffer, net)) :
    e.proceed = { e with crawl := { e.crawl with net, readiness := buffer }, phase := .idle } := by
  rw [waited] at hw
  rw [proceed, h]
  simp only [hw]

theorem proceed_wait (h : e.phase = .admitting []) {buffer : List Readiness} {net : NetworkStack}
    (hw : e.waited = (none, buffer, net)) :
    e.proceed = { e with
      crawl := { e.crawl with net, readiness := [] }, phase := .dispatching buffer } := by
  rw [waited] at hw
  rw [proceed, h]
  simp only [hw]

theorem proceed_dispatch {ready : Readiness} {rest : List Readiness}
    (h : e.phase = .dispatching (ready :: rest)) :
    e.proceed = { e with
      crawl := e.crawl.dispatch ready
      phase := .dispatching rest
      offered := e.offered ++ e.crawl.gossip ready } := by
  rw [proceed, h]

theorem proceed_end (h : e.phase = .dispatching []) :
    e.proceed = { e with crawl := e.crawl.logStatus, phase := .idle } := by
  rw [proceed, h]

theorem run_append (e : Engine) (actions more : List Action) :
    e.run (actions ++ more) = (e.run actions).run more := List.foldl_append

/-! ## An engine that is left alone -/

/-- Steps of the crawl itself lead from one engine to the other. -/
def Leads (e e' : Engine) : Prop := ∃ count, e.run (List.replicate count .proceed) = e'

theorem Leads.refl (e : Engine) : e.Leads e := ⟨0, rfl⟩

theorem Leads.of_proceed (h : e.proceed = e') : e.Leads e' := ⟨1, h⟩

theorem Leads.trans (h : e.Leads e') (h' : e'.Leads e'') : e.Leads e'' := by
  obtain ⟨count, rfl⟩ := h
  obtain ⟨count', rfl⟩ := h'
  refine ⟨count + count', ?_⟩
  rw [← List.replicate_append_replicate, run_append]

theorem leads_admitting {batch : List Address} (h : e.phase = .admitting batch) :
    e.Leads { e with crawl := batch.foldl Crawl.connect e.crawl, phase := .admitting [] } := by
  induction batch generalizing e with
  | nil =>
    rw [← h]
    exact Leads.refl e
  | cons a rest ih => exact (Leads.of_proceed (proceed_dial h)).trans (ih rfl)

theorem leads_dispatching {ready : List Readiness} (h : e.phase = .dispatching ready) :
    ∃ offered, e.Leads { e with
      crawl := ready.foldl Crawl.dispatch e.crawl, phase := .dispatching [], offered } := by
  induction ready generalizing e with
  | nil =>
    refine ⟨e.offered, ?_⟩
    rw [← h]
    exact Leads.refl e
  | cons r rest ih =>
    obtain ⟨offered, hrest⟩ := ih (e := { e with
      crawl := e.crawl.dispatch r
      phase := .dispatching rest
      offered := e.offered ++ e.crawl.gossip r }) rfl
    exact ⟨offered, (Leads.of_proceed (proceed_dispatch h)).trans hrest⟩

/-- The steps of an engine that nobody disturbs make up a turn of its crawl. -/
theorem leads_turn (h : e.phase = .idle) :
    ∃ e', e.Leads e' ∧ e'.phase = .idle ∧ e'.crawl = e.crawl.turn.2 ∧
      e'.began = some e.crawl := by
  cases hdrain : e.crawl.frontier.drain e.crawl.limits.batchSize with
  | error error =>
    refine ⟨_, Leads.of_proceed (proceed_refused h hdrain), h, ?_, rfl⟩
    simp only [Crawl.turn, hdrain]
  | ok taken =>
    obtain ⟨batch, frontier⟩ := taken
    -- the batch is dialed, and then everything hangs on the wait
    have hadmitted := (Leads.of_proceed (proceed_begin h hdrain)).trans (leads_admitting rfl)
    rcases hw : waited { e with
      crawl := batch.foldl Crawl.connect { e.crawl with frontier }
      phase := .admitting []
      began := some e.crawl } with ⟨failure, buffer, net⟩
    have hturn := hw
    rw [waited] at hturn
    dsimp only at hturn
    cases failure with
    | some error =>
      refine ⟨_, hadmitted.trans (Leads.of_proceed (proceed_wait_failed rfl hw)), rfl, ?_, rfl⟩
      simp only [Crawl.turn, hdrain, hturn]
    | none =>
      obtain ⟨offered, hdispatched⟩ := leads_dispatching (e := {
        crawl := { batch.foldl Crawl.connect { e.crawl with frontier } with net, readiness := [] }
        phase := .dispatching buffer
        began := some e.crawl
        offered := e.offered }) rfl
      refine ⟨_, ((hadmitted.trans (Leads.of_proceed (proceed_wait rfl hw))).trans
        hdispatched).trans (Leads.of_proceed (proceed_end rfl)), rfl, ?_, rfl⟩
      simp only [Crawl.turn, hdrain, hturn]

/-! ## An engine among others -/

/-- What others do leaves the crawl where it is in its turn. -/
theorem run_others {actions : List Action} (h : .proceed ∉ actions) :
    (e.run actions).phase = e.phase ∧ (e.run actions).began = e.began := by
  induction actions generalizing e with
  | nil => exact ⟨rfl, rfl⟩
  | cons action rest ih =>
    obtain ⟨hphase, hbegan⟩ := ih (e := e.step action) fun hmem => h (List.mem_cons_of_mem _ hmem)
    cases action with
    | proceed => exact absurd List.mem_cons_self h
    | offer a => exact ⟨hphase, hbegan⟩
    | disturb net sockets => exact ⟨hphase, hbegan⟩

/-- The crawl proceeds so many times, each time after others have acted. -/
def rounds (others : Nat → List Action) : (count : Nat) → List Action
  | 0 => []
  | count + 1 => others 0 ++ .proceed :: rounds (fun i => others (i + 1)) count

theorem run_rounds_succ (e : Engine) (others : Nat → List Action) (count : Nat) :
    e.run (rounds others (count + 1)) =
      (e.run (others 0)).proceed.run (rounds (fun i => others (i + 1)) count) := by
  rw [rounds, run_append]
  rfl

/-- Whatever others do in between, the crawl comes to the end of its turn. -/
def Concludes (e : Engine) : Prop :=
  ∀ others : Nat → List Action, (∀ i, .proceed ∉ others i) →
    ∃ count, (e.run (rounds others count)).phase = .idle ∧
      (e.run (rounds others count)).began = e.began

theorem Concludes.of_idle (h : e.phase = .idle) : e.Concludes := fun _ _ => ⟨0, h, rfl⟩

/-- Others leave the phase alone, so it is enough to look at the next step of any engine in the same
phase. -/
theorem Concludes.of_proceed (h : ∀ e' : Engine, e'.phase = e.phase →
    e'.proceed.Concludes ∧ e'.proceed.began = e'.began) : e.Concludes := by
  intro others hothers
  obtain ⟨hphase, hsame⟩ := run_others (e := e) (hothers 0)
  obtain ⟨hconcludes, hsame'⟩ := h (e.run (others 0)) hphase
  obtain ⟨count, hidle, hbegan⟩ := hconcludes (fun i => others (i + 1)) fun i => hothers (i + 1)
  refine ⟨count + 1, ?_, ?_⟩
  · rw [run_rounds_succ, hidle]
  · rw [run_rounds_succ, hbegan, hsame', hsame]

theorem concludes_dispatching {ready : List Readiness} (h : e.phase = .dispatching ready) :
    e.Concludes := by
  induction ready generalizing e with
  | nil =>
    refine .of_proceed fun e' hphase => ?_
    rw [proceed_end (hphase.trans h)]
    exact ⟨.of_idle rfl, rfl⟩
  | cons r rest ih =>
    refine .of_proceed fun e' hphase => ?_
    rw [proceed_dispatch (hphase.trans h)]
    exact ⟨ih rfl, rfl⟩

theorem concludes_admitting {batch : List Address} (h : e.phase = .admitting batch) :
    e.Concludes := by
  induction batch generalizing e with
  | nil =>
    refine .of_proceed fun e' hphase => ?_
    -- the wait decides how much is left to do, if anything is
    rcases hw : e'.waited with ⟨_ | error, buffer, net⟩
    · rw [proceed_wait (hphase.trans h) hw]
      exact ⟨concludes_dispatching rfl, rfl⟩
    · rw [proceed_wait_failed (hphase.trans h) hw]
      exact ⟨.of_idle rfl, rfl⟩
  | cons a rest ih =>
    refine .of_proceed fun e' hphase => ?_
    rw [proceed_dial (hphase.trans h)]
    exact ⟨ih rfl, rfl⟩

theorem concludes (e : Engine) : e.Concludes := by
  rcases h : e.phase with _ | batch | ready
  · exact .of_idle h
  · exact concludes_admitting h
  · exact concludes_dispatching h

/-- Whatever others do, a crawl that proceeds again and again begins a turn with what it then has,
and comes to its end. -/
theorem rounds_turn (h : e.phase = .idle) {others : Nat → List Action}
    (hothers : ∀ i, .proceed ∉ others i) :
    ∃ count, (e.run (rounds others (count + 1))).phase = .idle ∧
      (e.run (rounds others (count + 1))).began = some (e.run (others 0)).crawl := by
  have hidle : (e.run (others 0)).phase = .idle := (run_others (hothers 0)).1.trans h
  have hbegan : (e.run (others 0)).proceed.began = some (e.run (others 0)).crawl := by
    cases hdrain : (e.run (others 0)).crawl.frontier.drain
        (e.run (others 0)).crawl.limits.batchSize with
    | error error => rw [proceed_refused hidle hdrain]
    | ok taken => rw [proceed_begin hidle hdrain]
  obtain ⟨count, hend, hsame⟩ :=
    concludes (e.run (others 0)).proceed (fun i => others (i + 1)) fun i => hothers (i + 1)
  refine ⟨count, ?_, ?_⟩
  · rw [run_rounds_succ, hend]
  · rw [run_rounds_succ, hsame, hbegan]

end Engine

end PeerCrawl
