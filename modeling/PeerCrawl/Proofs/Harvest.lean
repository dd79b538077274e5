import PeerCrawl.Proofs.Bookkeeping

set_option autoImplicit false

/-! # What peers tell is handed on once

Every event of a connection is handed on by the dispatch in which it arose: its calls come one after
the other (`Crawl.Hands`), whatever then becomes of the connection. So the calls of a whole run are
those of its dispatches, in order (`Engine.harvested_once`), and a handshake is of the peer that was
dialed for the tag of its connection (`Crawl.Acquainted`). -/

namespace PeerCrawl

/-- The calls that hand on an event. -/
def PeerEvent.calls : PeerEvent → List Handover
  | .handshake h => [.report h]
  | .addresses as => as.map .offer

/-- A notification to a live connection. -/
structure Dispatch where
  ready : Readiness
  /-- The connection as it was then. -/
  connection : Connection

namespace Dispatch

/-- What the peer tells in consequence. -/
def events (d : Dispatch) : List PeerEvent := (d.connection.drive d.ready).events

def calls (d : Dispatch) : List Handover := d.events.flatMap PeerEvent.calls

end Dispatch

namespace Crawl

/-! ## Handing on -/

/-- Hand on one thing that a peer told. -/
def hand (c : Crawl) : Handover → Crawl
  | .report h =>
    { c with reports := c.reports ++ [.handshake h], handed := c.handed ++ [.report h] }
  | .offer a => { c.offer a with handed := c.handed ++ [.offer a] }

/-- The calls were made, one after the other, and nothing else was reported or offered. -/
structure Hands (c : Crawl) (calls : List Handover) (c' : Crawl) : Prop where
  frontier : c'.frontier = (calls.foldl hand c).frontier
  reports : c'.reports = (calls.foldl hand c).reports
  handed : c'.handed = c.handed ++ calls

variable {c c' c'' : Crawl} {tag : Tag} {connection : Connection} {calls calls' : List Handover}
  {notified : Option Readiness}

theorem foldl_hand_congr (calls : List Handover) (hfrontier : c'.frontier = c.frontier)
    (hreports : c'.reports = c.reports) :
    (calls.foldl hand c').frontier = (calls.foldl hand c).frontier ∧
      (calls.foldl hand c').reports = (calls.foldl hand c).reports := by
  induction calls generalizing c c' with
  | nil => exact ⟨hfrontier, hreports⟩
  | cons call rest ih =>
    cases call with
    | report h =>
      refine ih hfrontier ?_
      show c'.reports ++ [_] = c.reports ++ [_]
      rw [hreports]
    | offer a =>
      refine ih ?_ ?_
      · show (c'.frontier.offer a).frontier = (c.frontier.offer a).frontier
        rw [hfrontier]
      · show c'.reports ++ (c'.frontier.offer a).reports = c.reports ++ (c.frontier.offer a).reports
        rw [hreports, hfrontier]

theorem Hands.nothing (hfrontier : c'.frontier = c.frontier) (hreports : c'.reports = c.reports)
    (hhanded : c'.handed = c.handed) : c.Hands [] c' :=
  ⟨hfrontier, hreports, by rw [hhanded, List.append_nil]⟩

theorem Hands.trans (h : c.Hands calls c') (h' : c'.Hands calls' c'') :
    c.Hands (calls ++ calls') c'' := by
  obtain ⟨hfrontier, hreports⟩ := foldl_hand_congr calls' h.frontier h.reports
  refine ⟨?_, ?_, ?_⟩
  · rw [h'.frontier, hfrontier, List.foldl_append]
  · rw [h'.reports, hreports, List.foldl_append]
  · rw [h'.handed, h.handed, List.append_assoc]

/-- Addresses are offered one after the other. -/
theorem foldl_hand_offers (as : List Address) (c : Crawl) :
    ((as.map Handover.offer).foldl hand c).frontier = (c.frontier.offerAll as).frontier ∧
      ((as.map Handover.offer).foldl hand c).reports =
        c.reports ++ (c.frontier.offerAll as).reports := by
  induction as generalizing c with
  | nil => exact ⟨rfl, (List.append_nil _).symm⟩
  | cons a rest ih =>
    obtain ⟨hfrontier, hreports⟩ := ih (c.hand (.offer a))
    rw [List.map_cons, List.foldl_cons, hfrontier, hreports]
    refine ⟨rfl, ?_⟩
    rw [Frontier.offerAll, ← List.append_assoc]
    rfl

theorem harvestEvent_hands (c : Crawl) (peer : Address) (event : PeerEvent) :
    c.Hands event.calls (c.harvestEvent peer event) := by
  cases event with
  | handshake h => exact ⟨rfl, rfl, rfl⟩
  | addresses as =>
    obtain ⟨hfrontier, hreports⟩ := foldl_hand_offers as c
    exact ⟨hfrontier.symm, hreports.symm, rfl⟩

theorem harvestEvents_hands (events : List PeerEvent) (c : Crawl) (peer : Address) :
    c.Hands (events.flatMap PeerEvent.calls)
      (events.foldl (fun c event => c.harvestEvent peer event) c) := by
  induction events generalizing c with
  | nil => exact .nothing rfl rfl rfl
  | cons event rest ih =>
    rw [List.flatMap_cons, List.foldl_cons]
    exact (c.harvestEvent_hands peer event).trans (ih _)

/-- Before anything becomes of a connection that was driven, its events are handed on. -/
theorem driven_hands (htold : c.events = []) (d : Dispatch) :
    c.Hands d.calls (c.driven d.ready d.connection) := by
  have hquiet : c.Hands [] ({ c with
      roster := c.roster.modify d.ready.tag fun _ => (d.connection.drive d.ready).connection
      events := [] }.noteAll (d.connection.drive d.ready).notices) := .nothing rfl rfl rfl
  have hharvest := hquiet.trans (harvestEvents_hands d.events _ d.connection.peer)
  rw [Crawl.driven, harvest]
  simp only [noteAll, htold, List.nil_append]
  exact hharvest

/-! ## Steps of a crawl -/

/-- The dispatch of a notification, if it is for a live connection. -/
def dispatch? (c : Crawl) (ready : Readiness) : Option Dispatch :=
  (c.roster.get? ready.tag).map fun connection => { ready, connection }

theorem conclude_hands (h : c.roster.get? tag = some connection) (peer : Address)
    (result : Except ConnectionError Unit) : c.Hands [] (c.conclude tag peer result) := by
  rcases conclude_cases h peer result with ⟨-, hupdate⟩ | ⟨error, -, hclosed⟩
  · rw [hupdate.rest]
    exact .nothing rfl rfl rfl
  · rw [hclosed.rest]
    exact .nothing rfl rfl rfl

theorem dispatch_hands (htold : c.events = []) {ready : Readiness}
    (h : c.roster.get? ready.tag = some connection) :
    c.Hands (Dispatch.calls { ready, connection }) (c.dispatch ready) := by
  rw [dispatch_of_live h, ← List.append_nil (Dispatch.calls _)]
  exact (driven_hands htold { ready, connection }).trans
    (conclude_hands (get?_driven h) connection.peer _)

/-- A dispatch that ends in an error closes the connection in the end. -/
theorem dispatch_of_error {ready : Readiness} {error : ConnectionError}
    (h : c.roster.get? ready.tag = some connection)
    (herror : (connection.drive ready).result = .error error) :
    (c.driven ready connection).Closed ready.tag (connection.drive ready).connection
      (c.dispatch ready) := by
  rw [dispatch_of_live h]
  rcases conclude_cases (get?_driven h) connection.peer (connection.drive ready).result with
    ⟨hok, -⟩ | ⟨error', -, hclosed⟩
  · rw [herror] at hok
    exact absurd hok (by simp)
  · exact hclosed

theorem Booked.connect_handed (h : c.Booked) (a : Address) : (c.connect a).handed = c.handed := by
  have hroom : c.makeRoom.handed = c.handed := by
    rcases makeRoom_cases h.ordered h.ceiling with ⟨hsame, -⟩ | ⟨_, _, _, -, -, hclosed⟩
    · rw [hsame]
    · rw [hclosed.rest]
  rw [(connect_dialed h.makeRoom.ordered a).rest]
  exact hroom

/-- Only a dispatch hands anything on, and only what it is told. -/
theorem Booked.handed_change (h : c.Booked) (hc : c.Change notified c') :
    c'.handed = c.handed ++ (notified.bind c.dispatch?).toList.flatMap Dispatch.calls := by
  cases hc with
  | quiet hquiet =>
    rw [hquiet.rest]
    exact (List.append_nil _).symm
  | disturbed net sockets => exact (List.append_nil _).symm
  | connected a =>
    rw [h.connect_handed a]
    exact (List.append_nil _).symm
  | dispatched ready =>
    cases hget : c.roster.get? ready.tag with
    | none =>
      rw [dispatch_of_stale hget, Option.bind_some, dispatch?, hget]
      exact (List.append_nil _).symm
    | some connection =>
      rw [(dispatch_hands h.told hget).handed, Option.bind_some, dispatch?, hget]
      simp

/-! ## Peers -/

/-- Every live connection is to the peer whose address was dialed for its tag. -/
def Acquainted (c : Crawl) : Prop :=
  ∀ tag connection, c.roster.get? tag = some connection → c.net.DialedFor connection.peer tag

theorem Acquainted.of_continues (h : c.Acquainted) (hc : c.Continues c')
    (hpeer : ∀ tag connection', c'.roster.get? tag = some connection' →
      ∃ connection, c.roster.get? tag = some connection ∧ connection'.peer = connection.peer) :
    c'.Acquainted := by
  intro tag connection' hget'
  obtain ⟨made, hmade⟩ := hc.history
  obtain ⟨connection, hget, hsame⟩ := hpeer tag connection' hget'
  rw [hsame]
  exact (h tag connection hget).of_history hmade.symm

theorem Acquainted.of_roster (h : c.Acquainted) (hc : c.Continues c')
    (hroster : ∀ tag connection, c'.roster.get? tag = some connection →
      c.roster.get? tag = some connection) : c'.Acquainted :=
  h.of_continues hc fun tag connection hget => ⟨connection, hroster tag connection hget, rfl⟩

theorem Acquainted.closed (h : c.Acquainted) (hc : c.Closed tag connection c') :
    c'.Acquainted := by
  refine h.of_roster hc.continues fun other connection' hget => ?_
  rw [hc.roster] at hget
  by_cases heq : other = tag
  · rw [heq, Roster.get?_without_self] at hget
    exact absurd hget (by simp)
  · rw [Roster.get?_without_other heq] at hget
    exact hget

theorem Acquainted.dialed (h : c.Acquainted) (hordered : c.roster.Ordered) {a : Address}
    (hc : c.Dialed a c') : c'.Acquainted := by
  have hcontinues := hc.continues
  cases hc with
  | refused error history opened rest =>
    refine h.of_roster hcontinues fun other connection hget => ?_
    rw [rest] at hget
    exact hget
  | rejected error history opened roster rest =>
    refine h.of_roster hcontinues fun other connection hget => ?_
    rw [roster] at hget
    exact hget
  | admitted connection number peer wants history opened roster writeWatched rest =>
    intro other connection' hget
    rw [roster] at hget
    by_cases hnew : other = ⟨c.roster.nextTag⟩
    · rw [hnew, hordered.get?_add, Option.some.injEq] at hget
      rw [← hget, peer, hnew]
      exact ⟨_, _, _, _, [], history⟩
    · rw [Roster.get?_add_other hnew] at hget
      exact (h other connection' hget).of_history hcontinues.history.choose_spec.symm

theorem Acquainted.dispatch (h : c.Acquainted) (ready : Readiness) :
    (c.dispatch ready).Acquainted := by
  cases hget : c.roster.get? ready.tag with
  | none =>
    rw [dispatch_of_stale hget]
    exact h
  | some connection =>
    have hdriven : (c.driven ready connection).Acquainted := by
      refine h.of_continues (by rw [driven_rest]; exact ⟨List.prefix_rfl, rfl⟩) ?_
      intro other connection' hget'
      by_cases heq : other = ready.tag
      · rw [heq, get?_driven hget, Option.some.injEq] at hget'
        refine ⟨connection, heq ▸ hget, ?_⟩
        rw [← hget']
        exact (connection.drive_keeps ready).peer
      · rw [driven_rest] at hget'
        refine ⟨connection', ?_, rfl⟩
        rw [← hget']
        exact (Roster.get?_modify_other heq _).symm
    rw [dispatch_of_live hget]
    rcases conclude_cases (get?_driven hget) connection.peer (connection.drive ready).result with
      ⟨-, hupdate⟩ | ⟨error, -, hclosed⟩
    · refine hdriven.of_roster hupdate.continues fun other connection' hget' => ?_
      rw [hupdate.rest] at hget'
      exact hget'
    · exact hdriven.closed hclosed

theorem Acquainted.change (h : c.Acquainted) (hbooked : c.Booked) (hc : c.Change notified c') :
    c'.Acquainted := by
  have hcontinues := hbooked.continues hc
  cases hc with
  | quiet hquiet =>
    refine h.of_roster hcontinues fun tag connection hget => ?_
    rw [hquiet.rest] at hget
    exact hget
  | disturbed net sockets =>
    refine h.of_continues hcontinues fun tag connection' hget' => ?_
    rw [get?_disturb] at hget'
    obtain ⟨connection, hget, rfl⟩ := Option.map_eq_some_iff.1 hget'
    exact ⟨connection, hget, rfl⟩
  | connected a =>
    refine Acquainted.dialed ?_ hbooked.makeRoom.ordered
      (connect_dialed hbooked.makeRoom.ordered a)
    rcases makeRoom_cases hbooked.ordered hbooked.ceiling with
      ⟨hsame, -⟩ | ⟨_, _, _, -, -, hclosed⟩
    · rw [hsame]
      exact h
    · exact h.closed hclosed
  | dispatched ready => exact h.dispatch ready

end Crawl

namespace Engine

/-! ## Runs -/

/-- The dispatches of a run that are for live connections, in order. -/
def dispatches (e : Engine) : List Action → List Dispatch
  | [] => []
  | action :: rest =>
    ((e.notified action).bind e.crawl.dispatch?).toList ++ (e.step action).dispatches rest

/-- What a run hands on is what its dispatches hand on, and each of these is about a peer that was
dialed. -/
theorem handed_run {e : Engine} (hbooked : e.crawl.Booked) (hpeers : e.crawl.Acquainted)
    (actions : List Action) :
    (e.run actions).crawl.handed =
        e.crawl.handed ++ (e.dispatches actions).flatMap Dispatch.calls ∧
      ∀ d ∈ e.dispatches actions,
        (e.run actions).crawl.net.DialedFor d.connection.peer d.ready.tag := by
  induction actions generalizing e with
  | nil => exact ⟨(List.append_nil _).symm, by simp [dispatches]⟩
  | cons action rest ih =>
    have hchange := e.step_change action
    obtain ⟨hhanded, hdialed⟩ := ih (hbooked.change hchange) (hpeers.change hbooked hchange)
    refine ⟨?_, ?_⟩
    · show ((e.step action).run rest).crawl.handed = _
      rw [hhanded, hbooked.handed_change hchange, dispatches, List.flatMap_append,
        List.append_assoc]
    · intro d hd
      rcases List.mem_append.1 hd with hfirst | hlater
      · obtain ⟨ready, -, hready⟩ := Option.bind_eq_some_iff.1 (Option.mem_toList.1 hfirst)
        obtain ⟨connection, hget, rfl⟩ := Option.map_eq_some_iff.1 hready
        obtain ⟨made, hmade⟩ := (run_continues hbooked (action :: rest)).history
        exact (hpeers _ connection hget).of_history hmade.symm
      · exact hdialed d hlater

/-- **What peers tell is handed on once, as theirs.** Let a crawl proceed among others, over sockets
and a network that do as they please. The calls that hand on what peers told are those of its
dispatches to live connections, in order: one for each handshake and one for each address of a list,
in the order in which the connection has produced them. A handshake bears the host and the port of
the one address that was dialed for the tag of its connection. A notification for a connection that
is gone hands on nothing and changes nothing; one for a live connection makes its calls one after
the other, also if it ends in an error, and then the connection is closed. -/
theorem harvested_once (config : Configuration) (limits : CrawlLimits) (net : NetworkStack)
    (reporting : Bool) (actions : List Action) :
    let start := fresh config limits net reporting
    let e := start.run actions
    e.crawl.events = [] ∧
      e.crawl.handed = (start.dispatches actions).flatMap Dispatch.calls ∧
      (∀ d ∈ start.dispatches actions, ∃ a, e.crawl.net.DialedFor a d.ready.tag ∧
        (∀ b, e.crawl.net.DialedFor b d.ready.tag → b = a) ∧
        ∀ h, .handshake h ∈ d.events → h.address.raw = a.raw ∧ h.address.port = a.port) ∧
      ∀ ready rest, e.phase = .dispatching (ready :: rest) →
        (e.crawl.roster.get? ready.tag = none →
          e.proceed.crawl = e.crawl.note (.staleReadiness ready.tag)) ∧
        ∀ connection, e.crawl.roster.get? ready.tag = some connection →
          e.crawl.Hands (Dispatch.calls { ready, connection }) e.proceed.crawl ∧
          ∀ error, (connection.drive ready).result = .error error →
            e.proceed.crawl.roster.get? ready.tag = none ∧
              ∃ failure, e.proceed.crawl.net.history = e.crawl.net.history ++
                [⟨.deregister connection.socket.number, failure⟩,
                  ⟨.close connection.socket.number, none⟩] := by
  intro start e
  have hbooked : e.crawl.Booked := booked_run config limits net reporting actions
  have hstart : start.crawl.Acquainted := by
    intro tag connection hget
    exact absurd hget (by simp [start, fresh, Roster.get?])
  obtain ⟨hhanded, hdialed⟩ :=
    handed_run (booked_fresh config limits net reporting) hstart actions
  refine ⟨hbooked.told, hhanded, ?_, ?_⟩
  · intro d hd
    refine ⟨d.connection.peer, hdialed d hd, ?_, ?_⟩
    · intro b hb
      exact hb.unique (hdialed d hd) hbooked.tracks.tags_nodup
    · intro h hmem
      have haddress : h.address = d.connection.peer.withServices h.services :=
        (d.connection.drive_keeps d.ready).events _ hmem
      rw [haddress]
      exact ⟨rfl, rfl⟩
  · intro ready rest hphase
    rw [proceed_dispatch hphase]
    refine ⟨Crawl.dispatch_of_stale, ?_⟩
    intro connection hget
    refine ⟨Crawl.dispatch_hands hbooked.told hget, ?_⟩
    intro error herror
    have hclosed := Crawl.dispatch_of_error hget herror
    obtain ⟨failure, hhistory⟩ := hclosed.history
    rw [Crawl.net_driven, (connection.drive_keeps ready).number] at hhistory
    refine ⟨?_, failure, hhistory⟩
    rw [hclosed.roster, Roster.get?_without_self]

/-- A peer that introduces itself and hangs up: the introduction is handed on, and then the
connection is closed. -/
theorem harvested_once_before_closing :
    let limits : CrawlLimits :=
      { maxConnections := 1, batchSize := 1, pollTimeout := ⟨0⟩, statusInterval := ⟨0⟩ }
    let introduction : VersionMessage := {
      version := .standard, services := .none, timestamp := 0, sender := Address.unspecified
      receiver := Address.unspecified, nonce := 1, userAgent := "/a:1/", startHeight := 9
      relay := false }
    let payload := introduction.message.payload
    let header : Header := {
      magic := Configuration.standard.magic, command := Command.version
      payloadLength := UInt32.ofNat payload.length, checksum := .zero 4 }
    let config : Configuration := { Configuration.standard with verifyChecksum := false }
    let ready : Readiness := { tag := ⟨0⟩, readable := true, writable := false, errored := false }
    let net : NetworkStack := {
      ready := [ready]
      sockets := fun number => {
        number, localEndpoint := .error .notConnected
        arrivals := [.data (header.encode ++ payload), .eof] } }
    let e := (fresh config limits net false).run
      [.offer Address.unspecified, .proceed, .proceed, .proceed]
    ∃ connection, e.crawl.roster.get? ready.tag = some connection ∧
      e.crawl.Hands (Dispatch.calls { ready, connection }) e.proceed.crawl ∧
      e.proceed.crawl.handed.length = 1 ∧ e.proceed.crawl.roster.get? ready.tag = none := by
  intro limits introduction payload header config ready net e
  have hphase : e.phase = .dispatching [ready] := by decide +kernel
  have hlive : e.crawl.roster.contains ready.tag = true := by decide +kernel
  have hdriven : (e.crawl.roster.get? ready.tag).map (fun connection =>
      ((connection.drive ready).result, (Dispatch.calls { ready, connection }).length)) =
        some (.error .peerClosed, 1) := by decide +kernel
  obtain ⟨connection, hget⟩ := Option.isSome_iff_exists.1 hlive
  rw [hget, Option.map_some, Option.some.injEq, Prod.mk.injEq] at hdriven
  obtain ⟨hresult, hcalls⟩ := hdriven
  obtain ⟨-, -, -, h⟩ := harvested_once config limits net false
    [.offer Address.unspecified, .proceed, .proceed, .proceed]
  obtain ⟨hhands, hclosed⟩ := (h ready [] hphase).2 connection hget
  obtain ⟨hgone, -⟩ := hclosed .peerClosed hresult
  refine ⟨connection, hget, hhands, ?_, hgone⟩
  rw [hhands.handed, List.length_append, hcalls]
  decide +kernel

end Engine

end PeerCrawl
