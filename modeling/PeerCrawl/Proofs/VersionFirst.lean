import Mathlib.Data.List.Infix
import PeerCrawl.Proofs.EveryConnection
import PeerCrawl.Proofs.Lifecycle

set_option autoImplicit false

/-! # Who speaks first

Nothing keeps a connection from reading before its connect has completed, and then it answers what
it understands (`Dispatch.early`): such answers come before our introduction
(`Engine.pong_before_version`). Only they do. Every connection of a crawl, live or closed, has said
those answers first, then its introduction, then other answers (`Engine.version_first`); so unless a
notification brings a message to answer to a connection whose connect has not completed, our
introduction comes first. -/

namespace PeerCrawl

/-! ## What was understood before the introduction -/

namespace Cause

variable {causes more : List Cause}

/-- The messages that were understood before we introduced ourselves. -/
def early : List Cause → List Message
  | understood m :: causes => m :: early causes
  | established _ :: _ | [] => []

theorem early_append_of_silent (h : causes.filterMap introduction? = []) :
    early (causes ++ more) = early causes ++ early more := by
  induction causes with
  | nil => rfl
  | cons cause causes ih =>
    cases cause with
    | established introduction => exact absurd h nofun
    | understood m =>
      rw [List.cons_append, early, early, ih h]
      rfl

theorem early_append_of_introduced (h : causes.filterMap introduction? ≠ []) :
    early (causes ++ more) = early causes := by
  induction causes with
  | nil => exact absurd rfl h
  | cons cause causes ih =>
    cases cause with
    | established introduction => rfl
    | understood m => rw [List.cons_append, early, early, ih h]

theorem early_understood (ms : List Message) : early (ms.map understood) = ms := by
  induction ms with
  | nil => rfl
  | cons m ms ih => rw [List.map_cons, early, ih]

theorem said_of_silent (h : causes.filterMap introduction? = []) :
    causes.flatMap said = (early causes).flatMap Message.replies := by
  induction causes with
  | nil => rfl
  | cons cause causes ih =>
    cases cause with
    | established introduction => exact absurd h nofun
    | understood m => rw [List.flatMap_cons, ih h, early, List.flatMap_cons, said]

/-- Our introduction stands between the answers to what came before it and the other answers. -/
theorem said_of_introduced (h : (causes.filterMap introduction?).length = 1) :
    ∃ introduction, .established introduction ∈ causes ∧
      ∃ later : List Message, causes.flatMap said =
        (early causes).flatMap Message.replies ++
          introduction.message :: later.flatMap Message.replies := by
  induction causes with
  | nil => exact absurd h nofun
  | cons cause causes ih =>
    cases cause with
    | established introduction =>
      have hsilent : causes.filterMap introduction? = [] :=
        List.length_eq_zero_iff.1 (Nat.succ.inj h)
      refine ⟨introduction, List.mem_cons_self, early causes, ?_⟩
      rw [List.flatMap_cons, said_of_silent hsilent]
      rfl
    | understood m =>
      obtain ⟨introduction, hmem, later, hlater⟩ := ih h
      refine ⟨introduction, List.mem_cons_of_mem _ hmem, later, ?_⟩
      rw [List.flatMap_cons, hlater, early, List.flatMap_cons, said, List.append_assoc]

end Cause

/-! ## What a notification leads to -/

namespace Dispatch

/-- What becomes of the connection on its write side, which comes first. -/
def written (d : Dispatch) : Outcome Bool :=
  if d.ready.writable then d.connection.onWritable else .unchanged d.connection true

/-- The messages that are understood on account of the notification. -/
def understood (d : Dispatch) : List Message :=
  match d.written.result with
  | .ok _ => if d.ready.readable then d.written.connection.overheard else []
  | .error _ => []

/-- The messages that are understood although the connect has not completed, not even on the write
side of the notification. -/
def early (d : Dispatch) : List Message :=
  if d.written.connection.isEstablished then [] else d.understood

variable {d : Dispatch}

theorem written_changes (hc : d.connection.stage ≠ .connected) :
    ∃ causes, d.connection.Changes causes d.written.connection ∧ Cause.early causes = [] := by
  unfold written
  split
  · refine ⟨d.connection.causes .writable, Connection.perform_writable_changes hc, ?_⟩
    rw [Connection.causes, show d.connection.understoodBy .writable = [] from rfl]
    split <;> rfl
  · exact ⟨[], .refl _, rfl⟩

end Dispatch

namespace Connection

variable {c : Connection} {causes more : List Cause}

/-- What goes on only after a success. -/
theorem Changes.andThen {α β : Type} {o : Outcome α} {next : α → Connection → Outcome β}
    (h : c.Changes causes o.connection)
    (hnext : ∀ a, o.result = .ok a → o.connection.Changes more (next a o.connection).connection)
    (hskip : ∀ e, o.result = .error e → more = []) :
    c.Changes (causes ++ more) (o.andThen next).connection := by
  cases hresult : o.result with
  | ok a =>
    rw [Outcome.andThen_of_ok hresult]
    exact h.trans (hnext a hresult)
  | error e =>
    rw [Outcome.andThen_of_error hresult, hskip e hresult, List.append_nil]
    exact h

end Connection

namespace Dispatch

variable {d : Dispatch}

/-- What becomes of the connection on its read side. -/
def read (d : Dispatch) : Outcome Bool :=
  d.written.andThen fun _ c =>
    if d.ready.readable then c.onReadable.andThen fun _ c => c.flush else .unchanged c true

theorem read_changes {causes : List Cause} (h : d.connection.Changes causes d.written.connection) :
    d.connection.Changes (causes ++ d.understood.map .understood) d.read.connection := by
  refine h.andThen (fun b hok => ?_) fun e he => by rw [understood, he, List.map_nil]
  simp only [understood, hok]
  split
  · rw [← List.append_nil (List.map _ _)]
    exact d.written.connection.onReadable_changes.andThen
      (fun _ _ => Connection.Change.flushed.changes) fun _ _ => rfl
  · exact .refl _

theorem drive_changes_of_read {causes : List Cause}
    (h : d.connection.Changes causes d.read.connection) :
    d.connection.Changes causes (d.connection.drive d.ready).connection := by
  rw [← List.append_nil causes]
  refine h.andThen (fun _ _ => ?_) fun _ _ => rfl
  split
  · exact (Connection.Change.socket _ d.read.connection.socket.written_takeError).changes
  · exact .refl _

/-- A notification does what it gives reason to. As long as the connect has not completed, that is
to answer the messages that are early. -/
theorem drive_changes (hc : d.connection.stage ≠ .connected) :
    ∃ causes, d.connection.Changes causes (d.connection.drive d.ready).connection ∧
      (d.connection.isEstablished = false → Cause.early causes = d.early) := by
  obtain ⟨causes, hwritten, hearly⟩ := written_changes hc
  refine ⟨causes ++ d.understood.map .understood, drive_changes_of_read (read_changes hwritten), ?_⟩
  intro hstart
  have hlen := hwritten.length_introductions
  rw [hstart] at hlen
  unfold early
  split
  · next hestablished =>
    have hne : causes.filterMap Cause.introduction? ≠ [] := by
      intro hnil
      rw [hnil, hestablished] at hlen
      exact absurd hlen (by decide)
    rw [Cause.early_append_of_introduced hne, hearly]
  · next hnot =>
    have hnil : causes.filterMap Cause.introduction? = [] := by
      rw [Bool.eq_false_iff.2 hnot] at hlen
      exact List.length_eq_zero_iff.1 (by simpa using hlen)
    rw [Cause.early_append_of_silent hnil, hearly, Cause.early_understood]
    rfl

end Dispatch

/-! ## The life of a connection in a crawl -/

namespace Connection

/-- The connection was dialed and went through changes. What was understood before its introduction
came with notifications for its socket. -/
structure Lived (config : Configuration) (ds : List Dispatch) (c : Connection)
    (causes : List Cause) : Prop where
  changes : ∃ socket a, socket.written = [] ∧ (ofSocket socket a config).Changes causes c
  early : ∀ m ∈ Cause.early causes,
    ∃ d ∈ ds, d.connection.socket.number = c.socket.number ∧ m ∈ d.early

variable {config : Configuration} {ds : List Dispatch} {c : Connection} {causes : List Cause}

theorem Lived.stage (h : c.Lived config ds causes) : c.stage ≠ .connected := by
  obtain ⟨socket, a, -, hchanges⟩ := h.changes
  exact hchanges.stage Stage.noConfusion

theorem Lived.length_introductions (h : c.Lived config ds causes) :
    (causes.filterMap Cause.introduction?).length = c.isEstablished.toNat := by
  obtain ⟨socket, a, -, hchanges⟩ := h.changes
  exact hchanges.length_introductions_of_new

theorem lived_begun (config : Configuration) (ds : List Dispatch) {socket : Socket}
    (hsocket : socket.written = []) (a : Address) (complete : Bool) :
    ∃ causes, (begun socket a config complete).connection.Lived config ds causes := by
  have hstage : (ofSocket socket a config).stage ≠ .connected := Stage.noConfusion
  cases complete with
  | true =>
    refine ⟨_, ⟨socket, a, hsocket, perform_established_changes hstage⟩, ?_⟩
    intro m hm
    rw [causes_of_introduced rfl rfl rfl] at hm
    exact absurd hm List.not_mem_nil
  | false =>
    exact ⟨[], ⟨socket, a, hsocket, markConnecting_changes _⟩, fun m hm =>
      absurd hm List.not_mem_nil⟩

theorem Lived.disturbed (h : c.Lived config ds causes) (socket : Socket) :
    Lived config ds
      { c with socket := { socket with number := c.socket.number, written := c.socket.written } }
      causes := by
  obtain ⟨start, a, hstart, hchanges⟩ := h.changes
  have hdisturbed : c.Change [] { c with socket := { socket with
      number := c.socket.number, written := c.socket.written } } := .socket _ rfl
  refine ⟨⟨start, a, hstart, ?_⟩, h.early⟩
  rw [← List.append_nil causes]
  exact hchanges.trans hdisturbed.changes

theorem Lived.mono (h : c.Lived config ds causes) (d : Dispatch) :
    c.Lived config (ds ++ [d]) causes := by
  refine ⟨h.changes, fun m hm => ?_⟩
  obtain ⟨d', hd', hnumber, hearly⟩ := h.early m hm
  exact ⟨d', List.mem_append_left _ hd', hnumber, hearly⟩

theorem Lived.driven {d : Dispatch} (h : d.connection.Lived config ds causes) :
    ∃ causes, (d.connection.drive d.ready).connection.Lived config (ds ++ [d]) causes := by
  obtain ⟨socket, a, hsocket, hchanges⟩ := h.changes
  obtain ⟨more, hmore, hearly⟩ := Dispatch.drive_changes h.stage
  have hnumber := (d.connection.drive_keeps d.ready).number
  refine ⟨causes ++ more, ⟨socket, a, hsocket, hchanges.trans hmore⟩, ?_⟩
  have hold : ∀ m ∈ Cause.early causes, ∃ d' ∈ ds ++ [d], d'.connection.socket.number =
      (d.connection.drive d.ready).connection.socket.number ∧ m ∈ d'.early := by
    rw [hnumber]
    exact (h.mono d).early
  intro m hm
  by_cases hsilent : causes.filterMap Cause.introduction? = []
  · -- the connect had not completed when the notification came
    have hlen := h.length_introductions
    rw [hsilent] at hlen
    have hstart : d.connection.isEstablished = false := by
      cases hestablished : d.connection.isEstablished with
      | false => rfl
      | true =>
        rw [hestablished] at hlen
        exact absurd hlen (by decide)
    rw [Cause.early_append_of_silent hsilent, hearly hstart] at hm
    rcases List.mem_append.1 hm with hfirst | hlast
    · exact hold m hfirst
    · exact ⟨d, List.mem_append_right _ List.mem_cons_self, hnumber.symm, hlast⟩
  · rw [Cause.early_append_of_introduced hsilent] at hm
    exact hold m hm

theorem lived_lasting (config : Configuration) :
    Lasting config fun ds c => ∃ causes, c.Lived config ds causes where
  begun := fun ds _ a complete hsocket => lived_begun config ds hsocket a complete
  disturbed := fun _ _ socket ⟨causes, h⟩ => ⟨causes, h.disturbed socket⟩
  driven := fun _ _ ⟨_, h⟩ => h.driven
  other := fun _ d _ ⟨causes, h⟩ => ⟨causes, h.mono d⟩

end Connection

/-! ## What a connection has said -/

/-- An introduction says what a configuration says of us. -/
structure VersionMessage.Introduces (d : VersionMessage) (config : Configuration) : Prop where
  version : d.version = config.protocolVersion
  services : d.services = config.services
  userAgent : d.userAgent = config.effectiveUserAgent.text
  startHeight : d.startHeight = config.startHeight
  relay : d.relay = config.relay

namespace Connection

variable {config : Configuration} {ds : List Dispatch} {c c' : Connection} {causes : List Cause}
  {introduction : VersionMessage}

theorem introduces_introduction (c : Connection) : c.introduction.Introduces c.session.config :=
  ⟨rfl, rfl, rfl, rfl, rfl⟩

theorem Change.introduces (h : c.Change causes c') (hmem : .established introduction ∈ causes) :
    introduction.Introduces c.session.config := by
  cases h with
  | socket | connecting | flushed => exact absurd hmem List.not_mem_nil
  | established =>
    rw [Cause.established.inj (List.mem_singleton.1 hmem)]
    exact c.introduces_introduction
  | understood ms =>
    obtain ⟨m, -, hm⟩ := List.mem_map.1 hmem
    exact absurd hm nofun

theorem Changes.introduces (h : c.Changes causes c') (hmem : .established introduction ∈ causes) :
    introduction.Introduces c.session.config := by
  induction h with
  | refl c => exact absurd hmem List.not_mem_nil
  | step h rest ih =>
    rcases List.mem_append.1 hmem with hfirst | hlater
    · exact h.introduces hfirst
    · rw [← h.config]
      exact ih hlater

/-- What has been sent and is queued. -/
def outbound (c : Connection) : Bytes := c.socket.written ++ c.session.outbox.unsent

/-- The connection has said answers to messages that came early, then, once its transport was
established, its introduction, and then other answers. -/
def SpeaksInTurn (config : Configuration) (ds : List Dispatch) (c : Connection) : Prop :=
  ∃ early : List Message,
    (∀ m ∈ early, ∃ d ∈ ds, d.connection.socket.number = c.socket.number ∧ m ∈ d.early) ∧
    (c.stage ≠ .versionSent ∧
        c.outbound = Message.stream config.magic (early.flatMap Message.replies) ∨
      c.stage = .versionSent ∧ ∃ introduction : VersionMessage, introduction.Introduces config ∧
        ∃ later : List Message, c.outbound = Message.stream config.magic
          (early.flatMap Message.replies ++ introduction.message :: later.flatMap Message.replies))

/-- The connection has said nothing, or its introduction first. -/
def VersionFirst (config : Configuration) (c : Connection) : Prop :=
  c.stage ≠ .versionSent ∧ c.outbound = [] ∨
    c.stage = .versionSent ∧ ∃ introduction : VersionMessage, introduction.Introduces config ∧
      ∃ later : List Message, c.outbound = Message.stream config.magic
        (introduction.message :: later.flatMap Message.replies)

theorem Lived.speaksInTurn (h : c.Lived config ds causes) : c.SpeaksInTurn config ds := by
  obtain ⟨socket, a, hsocket, hchanges⟩ := h.changes
  have hlen := h.length_introductions
  have hcarries := hchanges.carries (carries_ofSocket socket a config)
  have hsaid : c.outbound = Message.stream config.magic (causes.flatMap Cause.said) := by
    rw [outbound, hcarries.stream, hsocket, hchanges.config]
    rfl
  refine ⟨Cause.early causes, h.early, ?_⟩
  by_cases hsent : c.stage = .versionSent
  · refine .inr ⟨hsent, ?_⟩
    rw [(isEstablished_iff h.stage).2 hsent] at hlen
    obtain ⟨introduction, hmem, later, hlater⟩ := Cause.said_of_introduced hlen
    exact ⟨introduction, hchanges.introduces hmem, later, by rw [hsaid, hlater]⟩
  · refine .inl ⟨hsent, ?_⟩
    rw [Bool.eq_false_iff.2 fun hest => hsent ((isEstablished_iff h.stage).1 hest)] at hlen
    rw [hsaid, Cause.said_of_silent (List.length_eq_zero_iff.1 hlen)]

theorem SpeaksInTurn.versionFirst (h : c.SpeaksInTurn config ds)
    (hsilent : ∀ d ∈ ds, d.connection.socket.number = c.socket.number →
      ∀ m ∈ d.early, m.replies = []) : c.VersionFirst config := by
  obtain ⟨early, hearly, hsaid⟩ := h
  have hnone : early.flatMap Message.replies = [] := by
    refine List.flatMap_eq_nil_iff.2 fun m hm => ?_
    obtain ⟨d, hd, hnumber, hmem⟩ := hearly m hm
    exact hsilent d hd hnumber m hmem
  rw [hnone] at hsaid
  exact hsaid

end Connection

/-! ## The first frame of a stream -/

namespace Message

theorem field_frame (magic : Magic) (m : Message) (rest : Bytes) :
    ((m.frame magic ++ rest).drop 4).take Wire.commandWidth = m.command.field.bytes := by
  have hframe : m.frame magic ++ rest = magic.bytes ++ (m.command.field.bytes ++
      (Wire.u32le (m.header magic).payloadLength ++ (m.header magic).checksum.bytes ++
        m.payload ++ rest)) := by
    simp only [frame_eq, Header.encode, List.append_assoc]
    rfl
  rw [hframe, List.drop_left' magic.length_eq, List.take_left' m.command.field.length_eq]

/-- What starts like a frame names the command of that frame. -/
theorem field_of_prefix {magic : Magic} {m : Message} {bytes rest : Bytes}
    (h : bytes <+: m.frame magic ++ rest) :
    (bytes.drop 4).take Wire.commandWidth <+: m.command.field.bytes := by
  rw [← field_frame magic m rest]
  exact List.IsPrefix.take (List.IsPrefix.drop h 4) Wire.commandWidth

end Message

namespace Engine

/-- **Who speaks first.** Let a crawl proceed among others, over sockets and a network that do as
they please. Whatever a connection, live or closed, has sent or queued are complete frames: answers
to messages that were early, because a notification let it read although its connect had not
completed; then its introduction, once its transport was established; and then other answers. So if
no notification for its socket brought an early message that is answered, it has said nothing before
its introduction. -/
theorem version_first (config : Configuration) (limits : CrawlLimits) (net : NetworkStack)
    (reporting : Bool) (actions : List Action) :
    let start := fresh config limits net reporting
    let ds := start.dispatches actions
    (start.run actions).crawl.Everyone config net.closed fun c =>
      c.SpeaksInTurn config ds ∧
        ((∀ d ∈ ds, d.connection.socket.number = c.socket.number → ∀ m ∈ d.early, m.replies = []) →
          c.VersionFirst config) := by
  intro start ds
  have hstart : start.crawl.Everyone config net.closed fun c =>
      ∃ causes, c.Lived config [] causes :=
    ⟨rfl, fun entry hmem => absurd hmem List.not_mem_nil, [], (List.append_nil _).symm, by simp⟩
  have hrun := everyone_run (Connection.lived_lasting config) hstart actions
  rw [List.nil_append] at hrun
  refine hrun.imp fun c ⟨causes, hlived⟩ => ?_
  exact ⟨hlived.speaksInTurn, hlived.speaksInTurn.versionFirst⟩

/-- A peer that sends a ping before the connect to it has completed, and a notification that says
only that there is something to read: the ping is answered at once, so what the socket takes first
is a pong. -/
theorem pong_before_version :
    let config := Configuration.standard
    let limits : CrawlLimits :=
      { maxConnections := 1, batchSize := 1, pollTimeout := ⟨0⟩, statusInterval := ⟨0⟩ }
    let ready : Readiness := { tag := ⟨0⟩, readable := true, writable := false, errored := false }
    let header : Header := {
      magic := config.magic, command := Command.ping, payloadLength := 8
      checksum := ⟨[0x25, 0x02, 0xFA, 0x94], rfl⟩ }
    let net : NetworkStack := {
      ready := [ready]
      sockets := fun number => {
        number, localEndpoint := .error .notConnected, peerFailure := some .notConnected
        arrivals := [.data (header.encode ++ [1, 2, 3, 4, 5, 6, 7, 8])] } }
    let e := (fresh config limits net false).run
      [.offer Address.unspecified, .proceed, .proceed, .proceed, .proceed]
    ∃ connection, e.crawl.roster.get? ready.tag = some connection ∧
      connection.stage = .connecting ∧
      (connection.socket.written.drop 4).take Wire.commandWidth = Command.pong.field.bytes ∧
      ∀ payload rest, ¬ connection.socket.written <+:
        Message.frame config.magic ⟨Command.version, payload⟩ ++ rest := by
  intro config limits ready header net e
  have hstate : (e.crawl.roster.get? ready.tag).map (fun connection =>
      (connection.stage, (connection.socket.written.drop 4).take Wire.commandWidth)) =
        some (.connecting, Command.pong.field.bytes) := by
    decide +kernel
  obtain ⟨connection, hget, hconnection⟩ := Option.map_eq_some_iff.1 hstate
  obtain ⟨hstage, hwritten⟩ := Prod.mk.inj hconnection
  refine ⟨connection, hget, hstage, hwritten, fun payload rest hprefix => ?_⟩
  have hfield : Command.pong.field.bytes <+: Command.version.field.bytes := by
    rw [← hwritten]
    exact Message.field_of_prefix hprefix
  exact absurd hfield (by decide)

end Engine

end PeerCrawl
