import PeerCrawl.Proofs.Reading
import PeerCrawl.Proofs.Refusals
import PeerCrawl.Proofs.VersionFirst

set_option autoImplicit false

/-! # Gossip and the write side

A notification is answered on the write side first, and a connection whose write side fails is
closed before anything is read. So the addresses that its socket would have served are offered if
the write side goes well, whatever becomes of the connection afterwards, and are lost if it fails
(`Engine.gossip_offered_iff`). -/

namespace PeerCrawl

/-! ## What is queued makes no difference to what is understood -/

namespace Session

/-- The sessions differ in nothing but what is queued. -/
def Alike (s s' : Session) : Prop := s' = { s with outbox := s'.outbox }

variable {s s' : Session} {header : Header} {payload : Bytes}

theorem Alike.streamVersion (h : s.Alike s') : s'.streamVersion = s.streamVersion := by
  rw [h]
  rfl

theorem Alike.config (h : s.Alike s') : s'.config = s.config := by rw [h]

theorem Alike.heard (h : s.Alike s') (ms : List Message) : (s.heard ms).Alike (s'.heard ms) := by
  rw [h]
  rfl

theorem Alike.handle (h : s.Alike s') {r : Handled} (hr : s.handle header payload = .ok r) :
    ∃ r', s'.handle header payload = .ok r' ∧ r.session.Alike r'.session := by
  obtain ⟨hdecodes, hsession, -⟩ := handle_eq_ok hr
  have hsum : ¬ (s.config.verifyChecksum ∧ checksum payload ≠ header.checksum) := by
    intro hsum
    rw [Session.handle, if_pos hsum] at hr
    cases hr
  rw [← h.streamVersion] at hdecodes
  rw [← h.config] at hsum
  obtain ⟨notices, hinterpret⟩ := interpret_of_decodes hdecodes
  refine ⟨_, handle_of_interpret hsum hinterpret, ?_⟩
  rw [hsession]
  exact h.heard _

/-- What is fed without a refusal to one of them, is fed so to the other. -/
theorem Alike.feed (h : s.Alike s') {i : Inbox} (hok : (s.feed i).result = .ok ()) :
    (s'.feed i).result = .ok () ∧ (s'.feed i).inbox = (s.feed i).inbox ∧
      (s.feed i).session.Alike (s'.feed i).session := by
  fun_induction Session.feed s i generalizing s' with
  | case1 s i header hn =>
    rw [feed_of_incomplete (by rw [h.config]; exact hn)]
    exact ⟨rfl, rfl, h⟩
  | case2 s i e hn => cases hok
  | case3 s i header payload rest hn e he => cases hok
  | case4 s i header payload rest hn r hr ih =>
    obtain ⟨r', hr', halike⟩ := h.handle hr
    rw [feed_of_handled (by rw [h.config]; exact hn) hr']
    exact ih halike hok

end Session

/-! ## Lists of addresses -/

theorem Message.isFrame_frame {m : Message} (h : m.Sendable) (magic : Magic) :
    Wire.IsFrame magic (m.header magic) m.payload (m.frame magic) := by
  have hlength := Header.length_encode (m.header magic)
  refine ⟨?_, Inbox.readHeader_of_take h ?_, ?_⟩
  · rw [length_frame, Inbox.payloadLength_header h]
  · rw [frame_eq, ← hlength, List.take_left]
  · rw [frame_eq, ← hlength, List.drop_left]

namespace Connection

variable {c c' : Connection} {config : Configuration} {as : List Address}

/-- What has arrived completes the frame of a list of addresses, which is good at the version in
force by then, and all that stands before it can be handled. -/
inductive Gossips (c : Connection) (as : List Address) : Prop
  | intro (before frame rest : Bytes) (header : Header) (payload : Bytes)
    (arrived : c.inbox.buffer ++ Arrival.served c.socket.arrivals = before ++ (frame ++ rest))
    (completed : c.inbox.buffer.length < (before ++ frame).length)
    (handled : c.emptied.Handles before)
    (isFrame : Wire.IsFrame c.session.config.magic header payload frame)
    (command : header.command = Command.addr)
    (sum : c.session.config.verifyChecksum = true → checksum payload = header.checksum)
    (list : (Reader.addressList (c.emptied.receive before).connection.session.streamVersion).value
      payload = .ok as)

/-- The frame of a list of addresses is the next thing to reach a connection with an empty inbox. -/
theorem gossips_of_frame {m : Message} {magic : Magic} {v : ProtocolVersion} {rest : List Arrival}
    (hinbox : c.inbox = {}) (harrivals : c.socket.arrivals = .data (m.frame magic) :: rest)
    (hmagic : c.session.config.magic = magic) (hversion : c.session.streamVersion = v)
    (hm : m.Sendable) (hcommand : m.command = Command.addr)
    (hlist : (Reader.addressList v).value m.payload = .ok as) : c.Gossips as := by
  have hne := Message.frame_ne_nil magic m
  have hnothing : c.emptied.receive [] = .unchanged c.emptied () :=
    Settled.receive_nil (c := c.emptied) rfl
  refine ⟨[], m.frame magic, Arrival.served rest, m.header magic, m.payload, ?_, ?_,
    emptied_handles c.session.handles_nil, ?_, hcommand, fun _ => rfl, ?_⟩
  · rw [hinbox, harrivals, (Arrival.of_data hne rest).1, List.nil_append]
  · rw [hinbox]
    exact List.length_pos_iff.2 hne
  · rw [hmagic]
    exact m.isFrame_frame hm magic
  · rw [hnothing]
    exact (congrArg (fun v => (Reader.addressList v).value m.payload) hversion).trans hlist

/-- What is queued, and what the socket takes, makes no difference to that. -/
theorem Gossips.heardAlike (h : c.Gossips as) (hc : c.HeardAlike c')
    (harrivals : c'.socket.arrivals = c.socket.arrivals) : c'.Gossips as := by
  obtain ⟨before, frame, rest, header, payload, harrived, hcompleted, hhandled, hframe, hcommand,
    hsum, hlist⟩ := h
  have hsession : c.session.Alike c'.session := hc.session
  obtain ⟨hresult, hinbox, hafter⟩ := hsession.feed hhandled.result
  refine ⟨before, frame, rest, header, payload, ?_, ?_, ⟨hresult, hinbox.trans hhandled.inbox⟩,
    ?_, hcommand, ?_, ?_⟩
  · rw [hc.inbox, harrivals]
    exact harrived
  · rw [hc.inbox]
    exact hcompleted
  · rw [hsession.config]
    exact hframe
  · rw [hsession.config]
    exact hsum
  · rw [← hlist]
    exact congrArg (fun v => (Reader.addressList v).value payload) hafter.streamVersion

/-- Such a list is told when what the socket serves is received. -/
theorem Gossips.receive (h : c.Gossips as) (hc : c.Tidy config) :
    .addresses as ∈ (c.receive (Arrival.served c.socket.arrivals)).events := by
  obtain ⟨before, frame, rest, header, payload, harrived, -, hhandled, hframe, hcommand, hsum,
    hlist⟩ := h
  -- the connection as the frames before the list have left it
  let d := (c.emptied.receive before).connection
  have hconfig : d.session.config = c.session.config := c.session.config_feed _
  obtain ⟨notices, hinterpret⟩ :=
    Session.interpret_addr (s := d.session) (m := ⟨header.command, payload⟩) hcommand hlist
  have hgood : ¬ (d.session.config.verifyChecksum ∧ checksum payload ≠ header.checksum) := by
    rw [hconfig]
    exact fun hbad => hbad.2 (hsum hbad.1)
  have hhandle := Session.handle_of_interpret hgood hinterpret
  have hnext : (d.inbox.append (frame ++ rest)).next d.session.config.magic =
      .frame header payload rest := by
    rw [show d.inbox = {} from hhandled.inbox, hconfig]
    exact Inbox.next_of_isFrame hframe rest
  have htold : Message.events d.session.peer d.session.streamVersion ⟨header.command, payload⟩ =
      [.addresses as] := by
    have hversion : ¬ header.command = Command.version := by rw [hcommand]; decide
    have hread : (Reader.addressList d.session.streamVersion).value payload = .ok as := hlist
    simp only [Message.events, if_neg hversion, if_pos hcommand, hread]
  have hfed : .addresses as ∈ (d.receive (frame ++ rest)).events := by
    show _ ∈ (d.session.feed (d.inbox.append (frame ++ rest))).events
    rw [Session.feed_of_handled hnext hhandle, Fed.after_events, htold]
    exact List.mem_cons_self
  rw [hc.receive_eq, harrived, hhandled.receive_append, Outcome.andThen_of_ok hhandled.result]
  exact List.mem_append_right _ hfed

/-- Such a list is told by a read. -/
theorem Gossips.onReadable (h : c.Gossips as) (hc : c.Tidy config) :
    .addresses as ∈ c.onReadable.events := by
  have hreceive := h.receive hc
  obtain ⟨before, frame, rest, header, payload, harrived, hcompleted, -, -, -, -, -⟩ := h
  have hserved : Arrival.served c.socket.arrivals ≠ [] := by
    intro hnone
    have hlen := congrArg List.length harrived
    rw [hnone, List.append_nil, ← List.append_assoc, List.length_append] at hlen
    omega
  rw [events_onReadable_of_served hserved]
  exact hreceive

end Connection

/-! ## The write side leaves what has arrived -/

theorem Outcome.andThen_keeps {α β : Type} {P : Connection → Prop} {o : Outcome α}
    {next : α → Connection → Outcome β} (h : P o.connection)
    (hnext : ∀ a c, P c → P (next a c).connection) : P (o.andThen next).connection := by
  cases hresult : o.result with
  | error e =>
    rw [andThen_of_error hresult]
    exact h
  | ok a =>
    rw [andThen_of_ok hresult]
    exact hnext a o.connection h

namespace Socket

theorem arrivals_write (s : Socket) (offered : Bytes) :
    (s.write offered).2.arrivals = s.arrivals := by
  unfold write
  split
  · split <;> rfl
  · rfl
  · rfl

theorem arrivals_takeError (s : Socket) : s.takeError.2.arrivals = s.arrivals := by
  unfold takeError
  split <;> rfl

end Socket

namespace Connection

theorem arrivals_completeConnect (c : Connection) :
    c.completeConnect.connection.socket.arrivals = c.socket.arrivals := by
  by_cases h : c.socket.Connected
  · rw [completeConnect_of_connected h]
    exact c.socket.arrivals_takeError
  · rw [(completeConnect_of_not_connected h).1]
    exact c.socket.arrivals_takeError

theorem arrivals_onWritable (c : Connection) :
    c.onWritable.connection.socket.arrivals = c.socket.arrivals := by
  have hintroduce : ∀ c : Connection,
      c.introduce.connection.socket.arrivals = c.socket.arrivals := by
    intro c
    unfold introduce
    split <;> rfl
  refine Outcome.andThen_keeps (P := fun c' => c'.socket.arrivals = c.socket.arrivals) ?_ ?_
  · split
    · rfl
    · exact c.arrivals_completeConnect
  · intro complete c' hc'
    split
    · refine Outcome.andThen_keeps (P := fun c' => c'.socket.arrivals = c.socket.arrivals) ?_ ?_
      · exact (hintroduce c').trans hc'
      · intro _ c'' hc''
        exact (c''.session.outbox.flush_keeps Socket.arrivals_write c''.socket).trans hc''
    · exact hc'

end Connection

/-! ## Notifications -/

/-- What tells nothing adds nothing. -/
theorem Outcome.events_andThen {α β : Type} {o : Outcome α} {next : α → Connection → Outcome β}
    (hnext : ∀ a c, (next a c).events = []) : (o.andThen next).events = o.events := by
  cases hresult : o.result with
  | error e => rw [andThen_of_error hresult]
  | ok a =>
    rw [andThen_of_ok hresult]
    exact (congrArg (o.events ++ ·) (hnext a o.connection)).trans (List.append_nil _)

namespace Dispatch

variable {d : Dispatch}

theorem written_silent (d : Dispatch) : d.written.Silent d.connection := by
  unfold written
  split
  · exact d.connection.onWritable_silent
  · exact Outcome.silent_unchanged d.connection true

theorem arrivals_written (d : Dispatch) :
    d.written.connection.socket.arrivals = d.connection.socket.arrivals := by
  unfold written
  split
  · exact d.connection.arrivals_onWritable
  · rfl

theorem drive_eq (d : Dispatch) : d.connection.drive d.ready = d.read.andThen fun _ c =>
    if d.ready.errored then { connection := c.onError.1, result := .error c.onError.2 }
    else .unchanged c () := rfl

theorem events_eq_read (d : Dispatch) : d.events = d.read.events := by
  rw [events, drive_eq]
  refine Outcome.events_andThen fun _ c => ?_
  split <;> rfl

/-- If the write side goes well, whatever is read is told, also if the connection fails then. -/
theorem events_of_ok {more : Bool} (h : d.written.result = .ok more)
    (hreadable : d.ready.readable = true) :
    d.events = d.written.connection.onReadable.events := by
  have hread : d.read.events = d.written.events ++
      (d.written.connection.onReadable.andThen fun _ c => c.flush).events := by
    rw [read, Outcome.andThen_of_ok h, if_pos hreadable]
  rw [events_eq_read, hread, d.written_silent.events, List.nil_append,
    Outcome.events_andThen fun _ _ => rfl]

/-- If the write side fails, nothing is read. -/
theorem events_of_error {error : ConnectionError} (h : d.written.result = .error error) :
    d.events = [] ∧ (d.connection.drive d.ready).result = .error error ∧
      (d.connection.drive d.ready).connection = d.written.connection := by
  have hread : d.read = _ := Outcome.andThen_of_error h _
  have hresult : d.read.result = .error error := by rw [hread]
  rw [events_eq_read, drive_eq, Outcome.andThen_of_error hresult, hread]
  exact ⟨d.written_silent.events, rfl, rfl⟩

end Dispatch

namespace Connection

variable {c : Connection} {config : Configuration}

theorem Tidy.drive (hc : c.Tidy config) (ready : Readiness) :
    (c.drive ready).connection.Tidy config := by
  refine Outcome.andThen_keeps (P := Tidy config) ?_ fun _ c hc => ?_
  · refine Outcome.andThen_keeps (P := Tidy config) ?_ fun _ c hc => ?_
    · exact hc.heardAlike (Dispatch.written_silent { ready, connection := c }).alike
    · split
      · refine Outcome.andThen_keeps (P := Tidy config) ?_ fun _ c hc => ?_
        · exact onReadable_keeps_received Tidy.heardAlike (fun b hc => (hc.receive b).1) hc
        · exact hc.heardAlike c.flush_silent.alike
      · exact hc
  · split
    · exact hc.heardAlike (c.heardAlike_socket _)
    · exact hc

theorem tidy_lasting (config : Configuration) : Lasting config fun _ c => c.Tidy config where
  begun := fun _ socket a complete _ => by
    have hfresh : (ofSocket socket a config).Tidy config := ⟨rfl, Inbox.short_of_none rfl⟩
    unfold begun
    dsimp only
    split
    · exact hfresh.heardAlike (established_silent _).alike
    · exact hfresh.heardAlike (markConnecting_heardAlike _)
  disturbed := fun _ c _ hc => hc.heardAlike (c.heardAlike_socket _)
  driven := fun _ d hc => hc.drive d.ready
  other := fun _ _ _ hc => hc

end Connection

/-! ## Runs -/

namespace Engine

/-- **Gossip is offered if the write side goes well.** Let a crawl proceed among others, over
sockets and a network that do as they please, and let a notification say that there is something to
read from a live connection. What is offered in its dispatch are the addresses that the connection
then tells.

* If the notification does not say that bytes can be written, or the write side does not fail, then
  every address of every good list that is complete with what the socket serves, and stands before
  anything that is refused, is offered, also if the connection fails or is closed afterwards.
* If the write side fails, nothing is read and nothing is offered: what has arrived stays in the
  socket, which is closed.

So all those addresses are offered just if the write side does not fail or there are none. -/
theorem gossip_offered_iff (config : Configuration) (limits : CrawlLimits) (net : NetworkStack)
    (reporting : Bool) (actions : List Action) :
    let e := (fresh config limits net reporting).run actions
    ∀ ready connection, e.crawl.roster.get? ready.tag = some connection → ready.readable = true →
      let d : Dispatch := { ready, connection }
      e.crawl.Hands d.calls (e.crawl.dispatch ready) ∧
        (∀ more, d.written.result = .ok more →
          ∀ as, connection.Gossips as → ∀ a ∈ as, .offer a ∈ d.calls) ∧
        (∀ error, d.written.result = .error error →
          d.calls = [] ∧ d.written.connection.socket.arrivals = connection.socket.arrivals ∧
            (e.crawl.dispatch ready).roster.get? ready.tag = none) ∧
        ((∀ as, connection.Gossips as → ∀ a ∈ as, .offer a ∈ d.calls) ↔
          (∃ more, d.written.result = .ok more) ∨ ∀ as, connection.Gossips as → as = []) := by
  intro e ready connection hget hreadable d
  have hbooked : e.crawl.Booked := booked_run config limits net reporting actions
  have hstart : (fresh config limits net reporting).crawl.Everyone config net.closed
      fun c => c.Tidy config :=
    ⟨rfl, fun entry hmem => absurd hmem List.not_mem_nil, [], (List.append_nil _).symm, by simp⟩
  -- what is lasting here does not depend on the notifications so far
  have htidy : connection.Tidy config :=
    (@everyone_run _ _ _ _ [] (Connection.tidy_lasting config) hstart actions).of_get? hget
  have hok : ∀ more, d.written.result = .ok more →
      ∀ as, connection.Gossips as → ∀ a ∈ as, .offer a ∈ d.calls := by
    intro more hmore as has a ha
    have halike := d.written_silent.alike
    have htold : .addresses as ∈ d.events := by
      rw [Dispatch.events_of_ok hmore hreadable]
      exact (has.heardAlike halike d.arrivals_written).onReadable (htidy.heardAlike halike)
    exact List.mem_flatMap.2 ⟨_, htold, List.mem_map_of_mem ha⟩
  have herror : ∀ error, d.written.result = .error error → d.calls = [] := by
    intro error herror
    rw [Dispatch.calls, (Dispatch.events_of_error herror).1]
    rfl
  refine ⟨Crawl.dispatch_hands hbooked.told hget, hok, fun error hfailed => ?_, ?_⟩
  · obtain ⟨-, hresult, -⟩ := Dispatch.events_of_error hfailed
    refine ⟨herror error hfailed, d.arrivals_written, ?_⟩
    rw [(Crawl.dispatch_of_error hget hresult).roster, Roster.get?_without_self]
  · cases hresult : d.written.result with
    | ok more => exact ⟨fun _ => .inl ⟨more, rfl⟩, fun _ => hok more hresult⟩
    | error error =>
      rw [herror error hresult]
      constructor
      · intro hoffered
        exact .inr fun as has => List.eq_nil_iff_forall_not_mem.2 fun a ha =>
          absurd (hoffered as has a ha) List.not_mem_nil
      · rintro (⟨more, hmore⟩ | hnone) as has a ha
        · cases hmore
        · rw [hnone as has] at ha
          exact absurd ha List.not_mem_nil

/-- A peer that sends a list and hangs up, while our introduction can still be written: the address
is offered, and then the connection is closed. -/
theorem gossip_offered_before_closing :
    let config := Configuration.standard
    let limits : CrawlLimits :=
      { maxConnections := 1, batchSize := 1, pollTimeout := ⟨0⟩, statusInterval := ⟨0⟩ }
    let a : Address :=
      { Address.unspecified with port := 8333, services := some .none, time := some 1 }
    let list : Message := ⟨Command.addr, Wire.addressList [a] config.protocolVersion⟩
    let ready : Readiness := { tag := ⟨0⟩, readable := true, writable := true, errored := false }
    let net : NetworkStack := {
      ready := [ready]
      sockets := fun number => {
        number, localEndpoint := .error .notConnected
        arrivals := [.data (list.frame config.magic), .eof] } }
    let e := (fresh config limits net false).run
      [.offer Address.unspecified, .proceed, .proceed, .proceed]
    ∃ connection, e.crawl.roster.get? ready.tag = some connection ∧ connection.Gossips [a] ∧
      .offer a ∈ e.proceed.crawl.handed ∧ e.proceed.crawl.roster.get? ready.tag = none := by
  intro config limits a list ready net e
  have hphase : e.phase = .dispatching [ready] := by decide +kernel
  have hstate : (e.crawl.roster.get? ready.tag).map (fun connection =>
      ((connection.inbox, connection.socket.arrivals),
        (connection.session.config.magic, connection.session.streamVersion),
        (Dispatch.written { ready, connection }).result)) =
        some (({}, [.data (list.frame config.magic), .eof]),
          (config.magic, config.protocolVersion), .ok false) := by
    decide +kernel
  have hgone : (e.proceed.crawl.roster.get? ready.tag).isNone = true := by decide +kernel
  obtain ⟨connection, hget, hconnection⟩ := Option.map_eq_some_iff.1 hstate
  simp only [Prod.mk.injEq] at hconnection
  obtain ⟨⟨hinbox, harrivals⟩, ⟨hmagic, hversion⟩, hwritten⟩ := hconnection
  have hread : (Reader.addressList config.protocolVersion).value list.payload = .ok [a] := by
    decide +kernel
  have hsendable : list.Sendable := ⟨⟨"addr", rfl⟩, by decide⟩
  have hgossips : connection.Gossips [a] :=
    Connection.gossips_of_frame hinbox harrivals hmagic hversion hsendable rfl hread
  obtain ⟨hhands, hoffered, -, -⟩ := gossip_offered_iff config limits net false
    [.offer Address.unspecified, .proceed, .proceed, .proceed] ready connection hget rfl
  refine ⟨connection, hget, hgossips, ?_, Option.isNone_iff_eq_none.1 hgone⟩
  rw [proceed_dispatch hphase, hhands.handed]
  exact List.mem_append_right _ (hoffered false hwritten [a] hgossips a List.mem_cons_self)

/-- A peer that sends a list and has closed its side to what we write: our introduction fails, and
the address is lost with the connection. -/
theorem gossip_lost_to_broken_pipe :
    let config := Configuration.standard
    let limits : CrawlLimits :=
      { maxConnections := 1, batchSize := 1, pollTimeout := ⟨0⟩, statusInterval := ⟨0⟩ }
    let a : Address :=
      { Address.unspecified with port := 8333, services := some .none, time := some 1 }
    let list : Message := ⟨Command.addr, Wire.addressList [a] config.protocolVersion⟩
    let ready : Readiness := { tag := ⟨0⟩, readable := true, writable := true, errored := false }
    let net : NetworkStack := {
      ready := [ready]
      sockets := fun number => {
        number, localEndpoint := .error .notConnected, acceptances := [.failed .brokenPipe]
        arrivals := [.data (list.frame config.magic)] } }
    let e := (fresh config limits net false).run
      [.offer Address.unspecified, .proceed, .proceed, .proceed]
    ∃ connection, e.crawl.roster.get? ready.tag = some connection ∧ e.phase = .dispatching [ready] ∧
      connection.Gossips [a] ∧ .offer a ∉ Dispatch.calls { ready, connection } ∧
      e.proceed.crawl.handed = [] ∧ e.proceed.crawl.roster.get? ready.tag = none := by
  intro config limits a list ready net e
  have hphase : e.phase = .dispatching [ready] := by decide +kernel
  have hstate : (e.crawl.roster.get? ready.tag).map (fun connection =>
      ((connection.inbox, connection.socket.arrivals),
        (connection.session.config.magic, connection.session.streamVersion),
        Dispatch.calls { ready, connection })) =
        some (({}, [.data (list.frame config.magic)]),
          (config.magic, config.protocolVersion), []) := by
    decide +kernel
  have hlost : e.proceed.crawl.handed = [] ∧
      (e.proceed.crawl.roster.get? ready.tag).isNone = true := by
    decide +kernel
  obtain ⟨connection, hget, hconnection⟩ := Option.map_eq_some_iff.1 hstate
  simp only [Prod.mk.injEq] at hconnection
  obtain ⟨⟨hinbox, harrivals⟩, ⟨hmagic, hversion⟩, hcalls⟩ := hconnection
  have hread : (Reader.addressList config.protocolVersion).value list.payload = .ok [a] := by
    decide +kernel
  have hsendable : list.Sendable := ⟨⟨"addr", rfl⟩, by decide⟩
  have hgossips : connection.Gossips [a] :=
    Connection.gossips_of_frame hinbox harrivals hmagic hversion hsendable rfl hread
  refine ⟨connection, hget, hphase, hgossips, ?_, hlost.1, Option.isNone_iff_eq_none.1 hlost.2⟩
  rw [hcalls]
  exact List.not_mem_nil

end Engine

end PeerCrawl
