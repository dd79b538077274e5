import PeerCrawl.Connection.Basic
import PeerCrawl.Proofs.Outbox
import PeerCrawl.Proofs.Script

set_option autoImplicit false

/-! # Two connections on one link

Two connections that talk to each other: each end of a link writes what it owes, as far as its
socket takes it, and is given the bytes that the other end has written, in any pieces and at any
time. Neither end says more than its script, the version message and one verack, so the invariant
of an end (`Party.Keeps`) is the point that it has reached in the script of the other, together
with all that it has said itself. Every move keeps it (`Link.keeps_step`), and so does every run
(`Link.keeps_run`). -/

namespace PeerCrawl

/-! ## The ends of a link -/

/-- What one end of a link starts from. -/
structure Terminal where
  socket : Socket
  peer : Address
  config : Configuration

namespace Terminal

/-- The connection before its transport is established. -/
def silent (t : Terminal) : Connection :=
  Connection.ofSocket { t.socket with written := [] } t.peer t.config

/-- How the terminal introduces itself. -/
def versionMessage (t : Terminal) : VersionMessage :=
  t.silent.markConnected.connection.versionMessage

/-- The connection once its transport is established. -/
def connection (t : Terminal) : Connection := t.silent.established.connection

/-- All that the terminal ever says to another one. -/
def script (t : Terminal) : List Message := [t.versionMessage.message, ⟨Command.verack, []⟩]

/-- What the terminal is known by at the other end: from version 106 on it tells its user agent and
its height. -/
def handshake (t : Terminal) (address : Address) : Handshake :=
  let extended := ProtocolVersion.extendedVersionMessage ≤ t.config.protocolVersion
  { address := address.withServices t.config.services
    userAgent := if extended then t.config.effectiveUserAgent.text else ""
    version := t.config.protocolVersion
    services := t.config.services
    startHeight := if extended then t.config.startHeight else 0 }

end Terminal

/-- One end of a link in the course of a run. -/
structure Party where
  connection : Connection
  /-- How many bytes of the other end it was given. -/
  heard : Nat := 0
  /-- What it told so far. -/
  events : List PeerEvent := []
  /-- Why bytes that it was given were refused. -/
  errors : List ConnectionError := []

/-- What an end of a link does. -/
inductive Move where
  /-- Write what is queued to a socket that answers in some way. -/
  | send (acceptances : List Acceptance) (blocks : Bool)
  /-- Receive at most `count` of the bytes that are under way. -/
  | receive (count : Nat)

namespace Party

def written (p : Party) : Bytes := p.connection.socket.written

def unsent (p : Party) : Bytes := p.connection.session.outbox.unsent

/-- Write what is queued. -/
def send (p : Party) (acceptances : List Acceptance) (blocks : Bool) : Party :=
  let c := { p.connection with socket := { p.connection.socket with acceptances, blocks } }
  { p with connection := c.flush.connection }

/-- Receive bytes. -/
def receive (p : Party) (bytes : Bytes) : Party :=
  let o := p.connection.receive bytes
  { connection := o.connection
    heard := p.heard + bytes.length
    events := p.events ++ o.events
    errors := p.errors ++ match o.result with
      | .ok () => []
      | .error e => [e] }

/-- One move, while the other end stands still. -/
def act (p other : Party) : Move → Party
  | .send acceptances blocks => p.send acceptances blocks
  | .receive count => p.receive ((other.written.drop p.heard).take count)

end Party

/-- Two ends that talk to each other. -/
structure Link where
  near : Party
  far : Party

/-- Which end moves. -/
inductive Side where
  | near
  | far

namespace Link

/-- Both transports have just been established. -/
def start (t u : Terminal) : Link where
  near := { connection := t.connection }
  far := { connection := u.connection }

def step (l : Link) : Side × Move → Link
  | (.near, m) => { l with near := l.near.act l.far m }
  | (.far, m) => { l with far := l.far.act l.near m }

def run (l : Link) (moves : List (Side × Move)) : Link := moves.foldl step l

/-- Everything has been written, and everything that was written has been received. -/
structure Quiet (l : Link) : Prop where
  near_unsent : l.near.unsent = []
  far_unsent : l.far.unsent = []
  near_heard : l.near.heard = l.far.written.length
  far_heard : l.far.heard = l.near.written.length

end Link

/-! ## Scripts of terminals -/

namespace Terminal

variable {t : Terminal} {done : List Message}

/-- A terminal whose version message keeps the limit of a payload. -/
def Fits (t : Terminal) : Prop := t.versionMessage.message.payload.length ≤ Wire.maxPayload

theorem script_sound (ht : t.Fits) : ∀ m ∈ t.script, m.Sendable ∧ ∀ v, m.Decodes v := by
  intro m hm
  rw [script, List.mem_cons, List.mem_singleton] at hm
  rcases hm with rfl | rfl
  · exact ⟨⟨⟨"version", rfl⟩, ht⟩, VersionMessage.decodes_message ht⟩
  · refine ⟨⟨⟨"verack", rfl⟩, Nat.zero_le _⟩, fun v => ⟨?_, ?_, ?_⟩⟩ <;> intro h <;>
      exact absurd h (by decide)

/-- A script has three points between its messages. -/
theorem prefix_script (h : done <+: t.script) :
    done = [] ∨ done = [t.versionMessage.message] ∨ done = t.script := by
  rcases List.prefix_cons_iff.1 h with rfl | ⟨more, rfl, hmore⟩
  · exact .inl rfl
  rcases List.prefix_cons_iff.1 hmore with rfl | ⟨more', rfl, hmore'⟩
  · exact .inr (.inl rfl)
  · rw [List.prefix_nil.1 hmore']
    exact .inr (.inr rfl)

/-- Messages of a script are answered by a verack, once the version message is among them. -/
theorem replies_script (h : done <+: t.script) :
    done.flatMap Message.replies = if done = [] then [] else [⟨Command.verack, []⟩] := by
  rcases prefix_script h with rfl | rfl | rfl <;> rfl

theorem handshakeOf_versionMessage (t : Terminal) (peer : Address) :
    Message.handshakeOf peer (t.versionMessage.carried t.versionMessage.version) =
      t.handshake peer := by
  simp only [Message.handshakeOf, VersionMessage.carried, handshake, Handshake.mk.injEq]
  refine ⟨rfl, ?_, rfl, rfl, ?_⟩ <;>
    by_cases h : ProtocolVersion.extendedVersionMessage ≤ t.config.protocolVersion
  · exact (congrArg VersionExtension.userAgent (if_pos h)).trans (if_pos h).symm
  · exact (congrArg VersionExtension.userAgent (if_neg h)).trans (if_neg h).symm
  · exact (congrArg VersionExtension.startHeight (if_pos h)).trans (if_pos h).symm
  · exact (congrArg VersionExtension.startHeight (if_neg h)).trans (if_neg h).symm

/-- Messages of a script tell one handshake, once the version message is among them. -/
theorem events_script (ht : t.Fits) (h : done <+: t.script) (peer : Address)
    (v : ProtocolVersion) :
    Message.eventsOf peer v done = if done = [] then [] else [.handshake (t.handshake peer)] := by
  have hversion := VersionMessage.events_message ht peer v
  rw [handshakeOf_versionMessage] at hversion
  rcases prefix_script h with rfl | rfl | rfl
  · rfl
  · rw [Message.eventsOf, hversion, if_neg (by simp)]
    rfl
  · rw [script, Message.eventsOf, hversion, if_neg (by simp)]
    rfl

/-- What a terminal has said once it has heard some messages of a script. -/
def said (t : Terminal) (heard : List Message) : List Message :=
  t.versionMessage.message :: heard.flatMap Message.replies

theorem said_append (t : Terminal) (ms₁ ms₂ : List Message) :
    t.said (ms₁ ++ ms₂) = t.said ms₁ ++ ms₂.flatMap Message.replies := by
  rw [said, List.flatMap_append, said, List.cons_append]

theorem said_prefix {u : Terminal} (h : done <+: u.script) : t.said done <+: t.script := by
  rw [said, replies_script h]
  by_cases hnil : done = []
  · rw [if_pos hnil]
    exact ⟨[⟨Command.verack, []⟩], rfl⟩
  · rw [if_neg hnil]
    exact List.prefix_rfl

end Terminal

/-! ## What an end of a link keeps -/

namespace Party

/-- An end that started from `t` and was given the bytes `heard` of an end that started from `u`:
the messages `done` of the script of `u` are complete, and the next one has begun. -/
structure Follows (t u : Terminal) (p : Party) (heard : Bytes) (done todo : List Message)
    (start : Bytes) : Prop where
  script : u.script = done ++ todo
  heard_eq : heard = Message.stream t.config.magic done ++ start
  begins : Message.Begins t.config.magic todo start
  inbox : p.connection.inbox = Inbox.awaiting t.config.magic todo start
  peer : p.connection.session.peer = t.peer
  config : p.connection.session.config = t.config
  version : p.connection.session.peerVersion = (Message.lastIntroduction done).map Prod.fst
  events : p.events = Message.eventsOf t.peer t.config.protocolVersion done
  errors : p.errors = []
  outbox : p.connection.session.outbox.WellFormed
  said : p.written ++ p.unsent = Message.stream t.config.magic (t.said done)

variable {t u : Terminal} {p : Party} {heard : Bytes} {done todo : List Message} {start : Bytes}

theorem Follows.done_prefix (h : p.Follows t u heard done todo start) : done <+: u.script :=
  ⟨todo, h.script.symm⟩

/-- An end writes a part of its script, whatever it was given. -/
theorem Follows.written_prefix (h : p.Follows t u heard done todo start) :
    p.written <+: Message.stream t.config.magic t.script := by
  obtain ⟨more, hmore⟩ := Terminal.said_prefix (t := t) h.done_prefix
  rw [← hmore, Message.stream_append, ← h.said, List.append_assoc]
  exact List.prefix_append _ _

theorem follows_start (t u : Terminal) :
    Follows t u { connection := t.connection } [] [] u.script [] := by
  have hsession : t.connection.session =
      t.silent.session.queue Command.version t.versionMessage.message.payload := rfl
  rw [Session.queue_eq] at hsession
  have hwf : Outbox.WellFormed { frames := [t.versionMessage.message.frame t.config.magic] } :=
    Outbox.wellFormed_empty.append fun f hf => by
      rw [List.mem_singleton.1 hf]
      exact Message.frame_ne_nil _ _
  refine ⟨rfl, rfl, Message.begins_nil _ _, rfl, rfl, rfl, rfl, rfl, rfl, ?_, ?_⟩
  · rw [hsession]
    exact hwf
  · show [] ++ t.connection.session.outbox.unsent = _
    rw [hsession]
    rfl

/-- A flush moves bytes from what is queued to what is written. -/
theorem moved_send (h : p.connection.session.outbox.WellFormed) (acceptances : List Acceptance)
    (blocks : Bool) :
    (p.send acceptances blocks).connection.session.outbox.WellFormed ∧
      ∃ taken, (p.send acceptances blocks).written = p.written ++ taken ∧
        taken ++ (p.send acceptances blocks).unsent = p.unsent := by
  have hflush := Outbox.flush_conserves { p.connection.socket with acceptances, blocks } h
  exact ⟨hflush.wellFormed, hflush.moved⟩

theorem Follows.send (h : p.Follows t u heard done todo start) (acceptances : List Acceptance)
    (blocks : Bool) : (p.send acceptances blocks).Follows t u heard done todo start := by
  obtain ⟨hwf, taken, hwritten, hunsent⟩ := moved_send h.outbox acceptances blocks
  refine ⟨h.script, h.heard_eq, h.begins, h.inbox, h.peer, h.config, h.version, h.events, h.errors,
    hwf, ?_⟩
  rw [hwritten, List.append_assoc, hunsent, h.said]

/-- The version that address lists of the other end are read at. -/
theorem Follows.streamVersion (h : p.Follows t u heard done todo start) :
    p.connection.session.streamVersion =
      done.foldl (fun v m => m.versionAfter v) t.config.protocolVersion := by
  -- a session that has heard the same messages in silence knows the same version
  have hsilent := Session.streamVersion_heard_all t.silent.session done
  rw [Session.streamVersion, Session.heard, show t.silent.session.peerVersion = none from rfl,
    Option.or_none] at hsilent
  rw [Session.streamVersion, h.version, h.config]
  exact hsilent

/-- What bytes do to an end that they take to a later point of the script. -/
theorem Follows.receive_eq (h : p.Follows t u heard done todo start) {bytes : Bytes}
    {s : Session} {rest : List Message} {start' : Bytes} {events : List PeerEvent}
    {notices : List ConnectionNotice}
    (hfed : p.connection.session.feed
      ((Inbox.awaiting p.connection.session.config.magic todo start).append bytes) =
        { session := s, inbox := Inbox.awaiting p.connection.session.config.magic rest start'
          events, notices }) :
    p.receive bytes =
      { connection := { p.connection with
          session := s
          inbox := Inbox.awaiting t.config.magic rest start' }
        heard := p.heard + bytes.length
        events := p.events ++ events
        errors := [] } := by
  rw [h.config] at hfed
  rw [receive, Connection.receive, h.inbox, hfed, h.errors]
  rfl

/-- Bytes that continue the script of the other end take this end to a later point of it. -/
theorem Follows.receive (hu : u.Fits) (hmagic : t.config.magic = u.config.magic)
    (h : p.Follows t u heard done todo start) {bytes : Bytes}
    (hbytes : heard ++ bytes <+: Message.stream u.config.magic u.script) :
    ∃ done' todo' start', (p.receive bytes).Follows t u (heard ++ bytes) done' todo' start' := by
  have hconfig : p.connection.session.config.magic = t.config.magic := by rw [h.config]
  have htodo : ∀ m ∈ todo, m.Sendable ∧ ∀ v, m.Decodes v := fun m hm =>
    Terminal.script_sound hu m (by rw [h.script]; exact List.mem_append_right done hm)
  have hnext : start ++ bytes <+: Message.stream p.connection.session.config.magic todo := by
    rw [← hmagic, h.script, Message.stream_append, h.heard_eq, List.append_assoc,
      List.prefix_append_right_inj] at hbytes
    rw [hconfig]
    exact hbytes
  obtain ⟨more, rest, start', notices, hsplit, hcut, hbegins, hfed⟩ :=
    Session.feed_script htodo (by rw [hconfig]; exact h.begins) hnext
  rw [hconfig] at hcut hbegins
  refine ⟨done ++ more, rest, start', ?_⟩
  rw [h.receive_eq hfed]
  refine ⟨?_, ?_, hbegins, rfl, h.peer, h.config, ?_, ?_, rfl, ?_, ?_⟩
  · rw [h.script, hsplit, List.append_assoc]
  · rw [h.heard_eq, List.append_assoc, hcut, Message.stream_append, List.append_assoc]
  · rw [Message.lastIntroduction_append, Option.map_or, ← h.version]
    rfl
  · rw [Message.eventsOf_append, ← h.events, ← h.streamVersion, ← h.peer]
  · refine h.outbox.append fun f hf => ?_
    obtain ⟨m, -, rfl⟩ := List.mem_map.1 hf
    exact Message.frame_ne_nil _ m
  · have hunsent := Outbox.unsent_append h.outbox
      ((more.flatMap Message.replies).map (Message.frame t.config.magic))
    rw [← List.flatMap_def] at hunsent
    rw [Terminal.said_append, Message.stream_append, ← h.said, List.append_assoc, ← hconfig]
    rw [← hconfig] at hunsent
    exact congrArg (p.written ++ ·) hunsent

/-- An end of a link, with what it was given of the bytes that the other end has written. -/
def Keeps (t u : Terminal) (p q : Party) : Prop :=
  p.heard ≤ q.written.length ∧
    ∃ done todo start, p.Follows t u (q.written.take p.heard) done todo start

variable {q : Party}

/-- The other end may write more. -/
theorem Keeps.of_written {q' : Party} (h : p.Keeps t u q) (hq : q.written <+: q'.written) :
    p.Keeps t u q' := by
  obtain ⟨hle, hfollows⟩ := h
  obtain ⟨more, hmore⟩ := hq
  refine ⟨?_, ?_⟩
  · rw [← hmore, List.length_append]
    omega
  · rw [← hmore, List.take_append_of_le_length hle]
    exact hfollows

/-- A move of one end keeps what both ends keep. -/
theorem Keeps.act (hu : u.Fits) (hmagic : t.config.magic = u.config.magic) (hp : p.Keeps t u q)
    (hq : q.Keeps u t p) (m : Move) : (p.act q m).Keeps t u q ∧ q.Keeps u t (p.act q m) := by
  obtain ⟨hle, done, todo, start, hfollows⟩ := hp
  cases m with
  | send acceptances blocks =>
    obtain ⟨-, taken, hwritten, -⟩ := moved_send hfollows.outbox acceptances blocks
    exact ⟨⟨hle, done, todo, start, hfollows.send acceptances blocks⟩,
      hq.of_written ⟨taken, hwritten.symm⟩⟩
  | receive count =>
    refine ⟨?_, hq⟩
    obtain ⟨-, done', todo', start', hother⟩ := hq
    -- the bytes under way are the next ones that the other end has written
    have hheard : q.written.take p.heard ++ (q.written.drop p.heard).take count =
        q.written.take (p.heard + ((q.written.drop p.heard).take count).length) := by
      rw [List.take_add, List.length_take, ← List.take_eq_take_min]
    refine ⟨?_, ?_⟩
    · show p.heard + ((q.written.drop p.heard).take count).length ≤ q.written.length
      rw [List.length_take, List.length_drop]
      omega
    · show ∃ done todo start,
        (p.receive _).Follows t u (q.written.take (p.heard + _)) done todo start
      rw [← hheard]
      refine hfollows.receive hu hmagic ?_
      rw [hheard]
      exact (List.take_prefix _ _).trans hother.written_prefix

end Party

namespace Link

variable {t u : Terminal} {l : Link}

/-- What both ends of a link keep. -/
def Keeps (t u : Terminal) (l : Link) : Prop := l.near.Keeps t u l.far ∧ l.far.Keeps u t l.near

theorem keeps_start (t u : Terminal) : (start t u).Keeps t u :=
  ⟨⟨Nat.zero_le _, [], u.script, [], Party.follows_start t u⟩,
    ⟨Nat.zero_le _, [], t.script, [], Party.follows_start u t⟩⟩

theorem keeps_step (ht : t.Fits) (hu : u.Fits) (hmagic : t.config.magic = u.config.magic)
    (h : l.Keeps t u) (move : Side × Move) : (l.step move).Keeps t u := by
  obtain ⟨side, m⟩ := move
  cases side with
  | near => exact h.1.act hu hmagic h.2 m
  | far => exact (h.2.act ht hmagic.symm h.1 m).symm

theorem keeps_run (ht : t.Fits) (hu : u.Fits) (hmagic : t.config.magic = u.config.magic)
    (h : l.Keeps t u) (moves : List (Side × Move)) : (l.run moves).Keeps t u := by
  induction moves generalizing l with
  | nil => exact h
  | cons move moves ih => exact ih (keeps_step ht hu hmagic h move)

end Link

end PeerCrawl
