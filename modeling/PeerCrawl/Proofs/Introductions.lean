import PeerCrawl.Proofs.Hearing
import PeerCrawl.Proofs.OutboundStream

set_option autoImplicit false

/-! # What a connection knows of its peer

A connection knows of its peer what the last handshake says that it has told, and nothing before
there is one. The messages that were understood account for both: those that introduce the peer are
the ones that tell a handshake (`Message.introductions_eventsOf`) and the ones that are acknowledged
(`Message.length_veracks`), and they alone change what is known (`Connection.Changes.session_eq`).
A version message that is refused is not among them. So what is known, what was told and what was
acknowledged never drift apart (`Connection.peer_tracks_handshakes`). -/

namespace PeerCrawl

/-- What a handshake makes known of the peer. -/
def Handshake.introduction (h : Handshake) : ProtocolVersion × Services := (h.version, h.services)

/-! ## Handshakes among events -/

namespace PeerEvent

/-- The handshake that an event tells. -/
def handshake? : PeerEvent → Option Handshake
  | handshake h => some h
  | addresses _ => none

/-- The handshakes among events, in order. -/
def handshakes (events : List PeerEvent) : List Handshake := events.filterMap handshake?

/-- The last handshake among events. -/
def lastHandshake (events : List PeerEvent) : Option Handshake := (handshakes events).getLast?

@[simp] theorem handshakes_nil : handshakes [] = [] := rfl

@[simp] theorem handshakes_handshake (h : Handshake) (events : List PeerEvent) :
    handshakes (.handshake h :: events) = h :: handshakes events := rfl

@[simp] theorem handshakes_addresses (as : List Address) (events : List PeerEvent) :
    handshakes (.addresses as :: events) = handshakes events := rfl

@[simp] theorem handshakes_append (events events' : List PeerEvent) :
    handshakes (events ++ events') = handshakes events ++ handshakes events' :=
  List.filterMap_append

theorem mem_handshakes {events : List PeerEvent} {h : Handshake} :
    h ∈ handshakes events ↔ .handshake h ∈ events := by
  induction events with
  | nil => simp
  | cons event events ih => cases event <;> simp [ih]

theorem isSome_lastHandshake {events : List PeerEvent} :
    (lastHandshake events).isSome = true ↔ ∃ h, .handshake h ∈ events := by
  rw [lastHandshake, List.getLast?_isSome]
  simp only [← mem_handshakes]
  constructor
  · exact List.exists_mem_of_ne_nil _
  · rintro ⟨h, hmem⟩
    exact List.ne_nil_of_mem hmem

end PeerEvent

/-! ## Messages that were understood -/

namespace Message

variable {peer : Address} {v : ProtocolVersion} {m : Message} {ms : List Message}

/-- What a message tells: nothing, a handshake of the peer, or a list of addresses. -/
theorem events_cases (m : Message) (peer : Address) (v : ProtocolVersion) :
    m.events peer v = [] ∨
      (∃ h, m.events peer v = [.handshake h] ∧ h.address = peer.withServices h.services) ∨
      ∃ as, m.events peer v = [.addresses as] ∧ m.command = Command.addr ∧
        (Reader.addressList v).value m.payload = .ok as := by
  unfold events
  split
  · split
    · exact .inr (.inl ⟨_, rfl, rfl⟩)
    · exact .inl rfl
  · split
    · next haddr =>
      split
      · next as has => exact .inr (.inr ⟨as, rfl, haddr, has⟩)
      · exact .inl rfl
    · exact .inl rfl

/-- A message tells a handshake just if it introduces the peer, and then it tells what it makes
known. -/
theorem introduction_events (hm : ∃ w, m.Decodes w) (peer : Address) (v : ProtocolVersion) :
    (PeerEvent.handshakes (m.events peer v)).map Handshake.introduction =
      m.introduction.toList := by
  by_cases hc : m.command = Command.version
  · obtain ⟨w, hdecodes⟩ := hm
    obtain ⟨d, hd⟩ := hdecodes.version hc
    obtain ⟨hversion, hservices⟩ := declared_of_versionMessage hd
    simp [events, introduction, hc, hd, Handshake.introduction, handshakeOf, hversion, hservices]
  · rw [events, introduction, if_neg hc, if_neg hc]
    split
    · split <;> rfl
    · rfl

theorem introductions_eventsOf (hms : ∀ m ∈ ms, ∃ w, m.Decodes w) (peer : Address)
    (v : ProtocolVersion) :
    (PeerEvent.handshakes (eventsOf peer v ms)).map Handshake.introduction =
      ms.filterMap introduction := by
  induction ms generalizing v with
  | nil => rfl
  | cons m ms ih =>
    have hrest := ih (fun m' hm' => hms m' (List.mem_cons_of_mem m hm')) (m.versionAfter v)
    have hfirst := introduction_events (hms m List.mem_cons_self) peer v
    rw [eventsOf, PeerEvent.handshakes_append, List.map_append, hrest, hfirst]
    cases hintro : m.introduction <;> simp [hintro]

/-- What is known after messages is what the last handshake says that they tell. -/
theorem lastIntroduction_eventsOf (hms : ∀ m ∈ ms, ∃ w, m.Decodes w) (peer : Address)
    (v : ProtocolVersion) :
    lastIntroduction ms =
      (PeerEvent.lastHandshake (eventsOf peer v ms)).map Handshake.introduction := by
  rw [lastIntroduction, ← introductions_eventsOf hms peer v, List.getLast?_map]
  rfl

theorem length_veracks_replies (m : Message) :
    (m.replies.filter fun r => r.command = Command.verack).length =
      m.introduction.toList.length := by
  by_cases hc : m.command = Command.version
  · simp [replies, introduction, hc]
  · rw [replies, introduction, if_neg hc, if_neg hc]
    split
    · rfl
    · rfl

/-- Messages are acknowledged once for each of them that introduces the peer. -/
theorem length_veracks (ms : List Message) :
    ((ms.flatMap replies).filter fun r => r.command = Command.verack).length =
      (ms.filterMap introduction).length := by
  induction ms with
  | nil => rfl
  | cons m ms ih =>
    rw [List.flatMap_cons, List.filter_append, List.length_append, ih, length_veracks_replies]
    cases hintro : m.introduction <;> simp [hintro, Nat.add_comm]

theorem versionAfter_lastIntroduction (ms : List Message) (v : ProtocolVersion) :
    ms.foldl (fun v m => m.versionAfter v) v = ((lastIntroduction ms).map Prod.fst).getD v := by
  induction ms generalizing v with
  | nil => rfl
  | cons m ms ih =>
    rw [List.foldl_cons, ih, ← List.singleton_append, lastIntroduction_append,
      lastIntroduction_singleton, versionAfter]
    cases lastIntroduction ms <;> rfl

/-- Every handshake bears the address of the peer, with the services that it tells. -/
theorem address_of_mem_eventsOf {h : Handshake} (hmem : .handshake h ∈ eventsOf peer v ms) :
    h.address = peer.withServices h.services := by
  induction ms generalizing v with
  | nil => exact absurd hmem List.not_mem_nil
  | cons m ms ih =>
    rcases List.mem_append.1 hmem with hfirst | hlater
    · rcases m.events_cases peer v with hnone | ⟨h', htold, haddress⟩ | ⟨as, htold, -⟩
      · simp [hnone] at hfirst
      · rw [htold, List.mem_singleton, PeerEvent.handshake.injEq] at hfirst
        rw [hfirst]
        exact haddress
      · simp [htold] at hfirst
    · exact ih hlater

/-- A list of addresses was told by a message of its own, which was read at the version in force. -/
theorem exists_addr_of_eventsOf {before after : List PeerEvent} {as : List Address}
    (h : eventsOf peer v ms = before ++ .addresses as :: after) :
    ∃ earlier m later, ms = earlier ++ m :: later ∧ m.command = Command.addr ∧
      eventsOf peer v earlier = before ∧
      (Reader.addressList (earlier.foldl (fun v m => m.versionAfter v) v)).value m.payload =
        .ok as := by
  induction ms generalizing v before with
  | nil => exact absurd h (by simp [eventsOf])
  | cons m ms ih =>
    rw [eventsOf] at h
    -- either the first message told it, or it told the first part of what came before
    have hlater : ∀ rest, before = m.events peer v ++ rest →
        eventsOf peer (m.versionAfter v) ms = rest ++ .addresses as :: after →
        ∃ earlier m' later, m :: ms = earlier ++ m' :: later ∧ m'.command = Command.addr ∧
          eventsOf peer v earlier = before ∧
          (Reader.addressList (earlier.foldl (fun v m => m.versionAfter v) v)).value m'.payload =
            .ok as := by
      rintro rest rfl hrest
      obtain ⟨earlier, m', later, rfl, hc, rfl, has⟩ := ih hrest
      exact ⟨m :: earlier, m', later, rfl, hc, rfl, has⟩
    rcases m.events_cases peer v with hnone | ⟨h', htold, -⟩ | ⟨as', htold, hc, has'⟩
    · rw [hnone, List.nil_append] at h
      exact hlater before (by rw [hnone]; rfl) h
    · rw [htold] at h
      cases before with
      | nil => exact absurd h (by simp)
      | cons first rest =>
        rw [List.cons_append, List.cons_append, List.cons.injEq] at h
        exact hlater rest (by rw [htold, ← h.1]; rfl) h.2
    · rw [htold] at h
      cases before with
      | nil =>
        simp only [List.cons_append, List.nil_append, List.cons.injEq,
          PeerEvent.addresses.injEq] at h
        rw [h.1] at has'
        exact ⟨[], m, ms, rfl, hc, rfl, has'⟩
      | cons first rest =>
        rw [List.cons_append, List.cons_append, List.cons.injEq] at h
        exact hlater rest (by rw [htold, ← h.1]; rfl) h.2

end Message

/-! ## Runs -/

/-- The message that was understood, if that is the reason. -/
def Cause.message? : Cause → Option Message
  | established _ => none
  | understood m => some m

namespace Cause

theorem messages_understood (ms : List Message) : (ms.map understood).filterMap message? = ms := by
  rw [List.filterMap_map]
  exact List.filterMap_some

/-- Only messages that were understood are acknowledged. -/
theorem veracks_said (causes : List Cause) :
    (causes.flatMap said).filter (fun m => m.command = Command.verack) =
      ((causes.filterMap message?).flatMap Message.replies).filter
        fun m => m.command = Command.verack := by
  induction causes with
  | nil => rfl
  | cons cause causes ih =>
    rw [List.flatMap_cons, List.filter_append, ih]
    cases cause with
    | established introduction => rfl
    | understood m => simp [message?, said]

end Cause

namespace Connection

variable {c c' : Connection} {causes : List Cause}

/-- The messages that a connection understands in the course of operations, in order. -/
def understoodIn (c : Connection) (ops : List Operation) : List Message :=
  (c.causesOf ops).filterMap Cause.message?

/-- Up to what is queued, a session has heard the messages that were understood. -/
theorem Change.session_eq (h : c.Change causes c') :
    c'.session = { c.session.heard (causes.filterMap Cause.message?) with
      outbox := c'.session.outbox } := by
  cases h with
  | socket | connecting => rw [List.filterMap_nil, Session.heard_nil]
  | flushed =>
    rw [List.filterMap_nil, Session.heard_nil]
    rfl
  | established =>
    have hnone : c.session.heard ([Cause.established c.introduction].filterMap Cause.message?) =
      c.session := c.session.heard_nil
    rw [hnone, session_introduced]
  | understood ms => rw [Cause.messages_understood]

theorem Changes.session_eq (h : c.Changes causes c') :
    c'.session = { c.session.heard (causes.filterMap Cause.message?) with
      outbox := c'.session.outbox } := by
  induction h with
  | refl c => rw [List.filterMap_nil, Session.heard_nil]
  | step h rest ih =>
    rw [List.filterMap_append, Session.heard_append, ih, h.session_eq]
    rfl

theorem understoodIn_cons (c : Connection) (op : Operation) (ops : List Operation) :
    c.understoodIn (op :: ops) =
      c.understoodBy op ++ (c.perform op).connection.understoodIn ops := by
  rw [understoodIn, causesOf, List.filterMap_append, causes, List.filterMap_append,
    Cause.messages_understood]
  split <;> rfl

/-- A run tells what the messages tell that it understands. -/
theorem events_performAll (hc : c.stage ≠ .connected) (ops : List Operation) :
    (c.performAll ops).events =
      Message.eventsOf c.peer c.session.streamVersion (c.understoodIn ops) := by
  induction ops generalizing c with
  | nil => rfl
  | cons op ops ih =>
    have hop := perform_changes hc op
    have hsession := hop.session_eq
    have hunderstood : (c.causes op).filterMap Cause.message? = c.understoodBy op := by
      have h := c.understoodIn_cons op []
      simpa [understoodIn, causesOf] using h
    have hpeer : (c.perform op).connection.peer = c.peer := by
      rw [peer, hsession]
      rfl
    have hversion : (c.perform op).connection.session.streamVersion =
        (c.understoodBy op).foldl (fun v m => m.versionAfter v) c.session.streamVersion := by
      rw [← Session.streamVersion_heard_all, hsession, hunderstood]
      rfl
    rw [events_performAll_cons, events_perform, ih (hop.stage hc), hpeer, hversion,
      understoodIn_cons, Message.eventsOf_append]

/-- **What is known of a peer is what was told of it.** Do anything to a fresh connection, going on
after failures, over a socket that does anything.

* The peer has introduced itself just if a handshake was told, and its version and its services are
  those of the last one.
* What was sent and what is queued holds one acknowledgement for each handshake that was told.
* Every handshake bears the address of the peer, with the services that it tells.
* Every list of addresses is what the payload of its message reads as, at the version of the last
  handshake told before it, or else at the configured one. -/
theorem peer_tracks_handshakes (socket : Socket) (peer : Address) (config : Configuration)
    (ops : List Operation) :
    let start := ofSocket socket peer config
    let c := (start.performAll ops).connection
    let told := (start.performAll ops).events
    let said := (start.causesOf ops).flatMap Cause.said
    (c.session.handshakeComplete = true ↔ ∃ h, .handshake h ∈ told) ∧
      c.session.peerVersion = (PeerEvent.lastHandshake told).map Handshake.version ∧
      c.session.peerServices = (PeerEvent.lastHandshake told).map Handshake.services ∧
      (c.socket.written ++ c.session.outbox.unsent =
          socket.written ++ Message.stream config.magic said ∧
        (said.filter fun m => m.command = Command.verack).length =
          (PeerEvent.handshakes told).length) ∧
      (∀ h, .handshake h ∈ told → h.address = peer.withServices h.services) ∧
      ∀ before as after, told = before ++ .addresses as :: after →
        ∃ earlier m later, start.understoodIn ops = earlier ++ m :: later ∧
          m.command = Command.addr ∧
          before = Message.eventsOf peer config.protocolVersion earlier ∧
          (Reader.addressList (((PeerEvent.lastHandshake before).map Handshake.version).getD
            config.protocolVersion)).value m.payload = .ok as := by
  intro start c told said
  let heard := start.understoodIn ops
  have hchanges : start.Changes (start.causesOf ops) c := performAll_changes Stage.noConfusion ops
  have htold : told = Message.eventsOf peer config.protocolVersion heard :=
    events_performAll Stage.noConfusion ops
  have hdecodes : ∀ m ∈ heard, ∃ v, m.Decodes v := by
    intro m hm
    obtain ⟨cause, hcause, hmessage⟩ := List.mem_filterMap.1 hm
    cases cause with
    | established introduction => exact absurd hmessage nofun
    | understood m' =>
      rw [← Option.some.inj hmessage]
      exact hchanges.decodes hcause
  have hintroductions := Message.introductions_eventsOf hdecodes peer config.protocolVersion
  have hlast := Message.lastIntroduction_eventsOf hdecodes peer config.protocolVersion
  rw [← htold] at hintroductions hlast
  have hversion : c.session.peerVersion = (PeerEvent.lastHandshake told).map Handshake.version := by
    rw [hchanges.session_eq]
    show ((Message.lastIntroduction heard).map Prod.fst).or none = _
    rw [hlast, Option.or_none, Option.map_map]
    rfl
  refine ⟨?_, hversion, ?_, ⟨?_, ?_⟩, ?_, ?_⟩
  · rw [Session.handshakeComplete, hversion, Option.isSome_map, PeerEvent.isSome_lastHandshake]
  · rw [hchanges.session_eq]
    show ((Message.lastIntroduction heard).map Prod.snd).or none = _
    rw [hlast, Option.or_none, Option.map_map]
    rfl
  · have hcarries : c.Carries socket.written said :=
      hchanges.carries (carries_ofSocket socket peer config)
    have hconfig : c.session.config = config := hchanges.config
    rw [hcarries.stream, hconfig]
  · rw [Cause.veracks_said, Message.length_veracks]
    show (heard.filterMap Message.introduction).length = _
    rw [← hintroductions, List.length_map]
  · intro h hmem
    rw [htold] at hmem
    exact Message.address_of_mem_eventsOf hmem
  · intro before as after hsplit
    obtain ⟨earlier, m, later, hheard, hc, rfl, has⟩ :=
      Message.exists_addr_of_eventsOf (htold.symm.trans hsplit)
    have hearlier : ∀ m ∈ earlier, ∃ v, m.Decodes v := fun m hm =>
      hdecodes m (by rw [hheard]; exact List.mem_append_left _ hm)
    refine ⟨earlier, m, later, hheard, hc, rfl, ?_⟩
    rw [Message.versionAfter_lastIntroduction,
      Message.lastIntroduction_eventsOf hearlier peer config.protocolVersion, Option.map_map] at has
    exact has

end Connection

end PeerCrawl
