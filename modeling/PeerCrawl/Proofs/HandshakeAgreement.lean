import PeerCrawl.Proofs.Link

set_option autoImplicit false

/-! # Handshake agreement

Two connections that talk to each other end up knowing each other: at every moment each end has told
nothing, or the one handshake that describes the other end, and once nothing is left to write or to
receive, both handshakes are complete (`Link.handshake_agreement`). Every run can be brought to that
point (`Link.exists_quiet`). -/

namespace PeerCrawl

/-! ## Agreement -/

namespace Party

variable {t u : Terminal} {p q : Party}

/-- What is true of an end at every moment of a run: nothing that it was given was refused, and all
that it told is who the other end is. -/
structure Agrees (t u : Terminal) (p : Party) : Prop where
  errors : p.errors = []
  events : p.events = [] ∨ p.events = [.handshake (u.handshake t.peer)]

/-- What is true of an end once everything was said and heard. -/
structure Settled (t u : Terminal) (p : Party) : Prop where
  handshakeComplete : p.connection.session.handshakeComplete = true
  events : p.events = [.handshake (u.handshake t.peer)]
  written : p.written =
    Wire.frame t.config.magic Command.version
      (t.versionMessage.encode t.config.protocolVersion) ++
    Wire.frame t.config.magic Command.verack []
  inbox : p.connection.inbox = {}

theorem Keeps.agrees (hu : u.Fits) (h : p.Keeps t u q) : p.Agrees t u := by
  obtain ⟨-, done, todo, start, hfollows⟩ := h
  refine ⟨hfollows.errors, ?_⟩
  rw [hfollows.events, Terminal.events_script hu hfollows.done_prefix]
  by_cases hnil : done = []
  · exact .inl (if_pos hnil)
  · exact .inr (if_neg hnil)

/-- An end that was given everything has completed exactly what the other end has said. -/
theorem Follows.done_eq {heard : Bytes} {done done' todo todo' : List Message}
    {start start' : Bytes} (hmagic : t.config.magic = u.config.magic)
    (hp : p.Follows t u q.written done todo start) (hq : q.Follows u t heard done' todo' start')
    (hunsent : q.unsent = []) : u.said done' = done ∧ start = [] := by
  have hsaid := hq.said
  rw [hunsent, List.append_nil, hp.heard_eq, ← hmagic] at hsaid
  have hprefix : u.said done' <+: done ++ todo := by
    rw [← hp.script]
    exact Terminal.said_prefix hq.done_prefix
  have hdone := Message.eq_of_stream_eq hp.begins hprefix hsaid
  rw [hdone, List.append_right_eq_self] at hsaid
  exact ⟨hdone, hsaid⟩

theorem Keeps.settled (hu : u.Fits) (hmagic : t.config.magic = u.config.magic)
    (hp : p.Keeps t u q) (hq : q.Keeps u t p) (hunsent : p.unsent = []) (hunsent' : q.unsent = [])
    (hheard : p.heard = q.written.length) (hheard' : q.heard = p.written.length) :
    p.Settled t u := by
  obtain ⟨-, done, todo, start, hp⟩ := hp
  obtain ⟨-, done', todo', start', hq⟩ := hq
  rw [hheard, List.take_length] at hp
  rw [hheard', List.take_length] at hq
  obtain ⟨hdone, rfl⟩ := hp.done_eq hmagic hq hunsent'
  obtain ⟨hdone', rfl⟩ := hq.done_eq hmagic.symm hp hunsent
  -- each end has the version message of the other one, so each has answered it
  have hne : done ≠ [] := by
    rw [← hdone, Terminal.said]
    exact List.cons_ne_nil _ _
  have hsaid : t.said done = t.script := by
    rw [Terminal.said, Terminal.replies_script hp.done_prefix, if_neg hne]
    rfl
  have hversion : (Message.lastIntroduction done).isSome = true := by
    rcases Terminal.prefix_script hp.done_prefix with h | h | h
    · exact absurd h hne
    · rw [h]; rfl
    · rw [h]; rfl
  refine ⟨?_, ?_, ?_, ?_⟩
  · rw [Session.handshakeComplete, hp.version, Option.isSome_map, hversion]
  · rw [hp.events, Terminal.events_script hu hp.done_prefix, if_neg hne]
  · have hwritten := hp.said
    rw [hunsent, List.append_nil, hsaid, Terminal.script, Message.stream_cons,
      Message.stream_cons, Message.stream_nil, List.append_nil] at hwritten
    exact hwritten
  · rw [hp.inbox, Inbox.awaiting_nil]

end Party

namespace Link

/-- **Two connections agree on who they are.** Let both ends of a link introduce themselves, and let
each write what it owes and receive what the other one has written, in any order, in any pieces and
whatever the sockets do. Then neither end refuses anything, and all that it tells is one handshake,
with the version and the services of the other end, and its user agent and height if the version has
them. Once nothing is left to write or to receive, both handshakes are complete, each end has
written a version message and one verack, and nothing waits in an inbox. -/
theorem handshake_agreement (t u : Terminal) (hmagic : t.config.magic = u.config.magic)
    (ht : (t.versionMessage.encode t.config.protocolVersion).length ≤ Wire.maxPayload)
    (hu : (u.versionMessage.encode u.config.protocolVersion).length ≤ Wire.maxPayload)
    (moves : List (Side × Move)) :
    let l := (start t u).run moves
    (l.near.Agrees t u ∧ l.far.Agrees u t) ∧
      (l.Quiet → l.near.Settled t u ∧ l.far.Settled u t) := by
  intro l
  have hkeeps : l.Keeps t u := keeps_run ht hu hmagic (keeps_start t u) moves
  refine ⟨⟨hkeeps.1.agrees hu, hkeeps.2.agrees ht⟩, fun hquiet => ⟨?_, ?_⟩⟩
  · exact hkeeps.1.settled hu hmagic hkeeps.2 hquiet.near_unsent hquiet.far_unsent
      hquiet.near_heard hquiet.far_heard
  · exact hkeeps.2.settled ht hmagic.symm hkeeps.1 hquiet.far_unsent hquiet.near_unsent
      hquiet.far_heard hquiet.near_heard

/-- A terminal at version 70015 and one at version 105, which tells neither a user agent nor a
height and verifies no checksums: the first introduction arrives in two pieces, and both veracks
follow. -/
theorem handshake_agreement_across_versions :
    let t : Terminal := ⟨{ localEndpoint := .error .notConnected }, Address.unspecified, .standard⟩
    let trusting := { Configuration.nonListening .bitcoin 105 none with verifyChecksum := false }
    let u : Terminal := { t with config := trusting }
    let moves : List (Side × Move) := [(.near, .send [.upTo 40] true), (.far, .receive 30),
      (.near, .send [] false), (.far, .receive 200), (.far, .send [] false), (.near, .receive 200),
      (.near, .send [] false), (.far, .receive 200)]
    let l := (start t u).run moves
    (l.near.Agrees t u ∧ l.far.Agrees u t) ∧ l.Quiet ∧ l.near.Settled t u ∧ l.far.Settled u t := by
  intro t trusting u moves l
  obtain ⟨hagree, hsettled⟩ := handshake_agreement t u rfl (by decide +kernel) (by decide) moves
  have hrest : l.near.unsent = [] ∧ l.far.unsent = [] ∧
      l.near.heard = l.far.written.length ∧ l.far.heard = l.near.written.length := by
    decide +kernel
  obtain ⟨hnear, hfar, hnear', hfar'⟩ := hrest
  have hquiet : l.Quiet := ⟨hnear, hfar, hnear', hfar'⟩
  exact ⟨hagree, hquiet, hsettled hquiet⟩

end Link

/-! ## Runs that come to rest -/

namespace Party

variable {t u : Terminal} {p q : Party} {heard : Bytes} {done todo : List Message} {start : Bytes}

/-- An end that has written its script owes nothing. -/
theorem Follows.unsent_eq_nil (h : p.Follows t u heard done todo start)
    (hwritten : p.written = Message.stream t.config.magic t.script) : p.unsent = [] := by
  obtain ⟨more, hmore⟩ := Terminal.said_prefix (t := t) h.done_prefix
  have hsaid := h.said
  rw [hwritten, ← hmore, Message.stream_append, List.append_assoc,
    List.append_right_eq_self] at hsaid
  exact (List.append_eq_nil_iff.1 hsaid).2

/-- An open flush writes all that an end has said so far. -/
theorem Follows.written_send_open (h : p.Follows t u heard done todo start) :
    (p.send [] false).written = Message.stream t.config.magic (t.said done) := by
  have hunsent : (p.send [] false).unsent = [] :=
    Outbox.unsent_flush_of_open _ h.outbox rfl rfl
  have hsaid := (h.send [] false).said
  rw [hunsent, List.append_nil] at hsaid
  exact hsaid

/-- An end that has heard a version message writes all of its script at the next open flush. -/
theorem Follows.script_written (h : p.Follows t u heard done todo start)
    (hheard : u.versionMessage.message.frame t.config.magic <+: heard) :
    (p.send [] false).written = Message.stream t.config.magic t.script := by
  have hne : done ≠ [] := by
    rintro rfl
    have hbegins := h.begins
    rw [show todo = u.script from h.script.symm] at hbegins
    rw [h.heard_eq] at hheard
    exact hbegins.2 (hbegins.1.eq_of_length (Nat.le_antisymm hbegins.1.length_le hheard.length_le))
  rw [h.written_send_open, Terminal.said, Terminal.replies_script h.done_prefix, if_neg hne]
  rfl

theorem heard_receive_all (h : p.heard ≤ q.written.length) :
    (p.act q (.receive q.written.length)).heard = q.written.length := by
  show p.heard + ((q.written.drop p.heard).take q.written.length).length = q.written.length
  rw [List.length_take, List.length_drop]
  omega

/-- An open flush writes the version message, if that was not written before. -/
theorem Follows.version_written (h : p.Follows t u heard done todo start) :
    t.versionMessage.message.frame t.config.magic <+: (p.send [] false).written := by
  rw [h.written_send_open, Terminal.said, Message.stream_cons]
  exact List.prefix_append _ _

end Party

namespace Link

variable {t u : Terminal} {l : Link}

/-- Both ends write all that they owe, and then receive all that was written. -/
def exchange (l : Link) : List (Side × Move) :=
  [(.near, .send [] false), (.far, .send [] false),
    (.near, .receive (l.far.send [] false).written.length),
    (.far, .receive (l.near.send [] false).written.length)]

theorem heard_exchange (h : l.Keeps t u) :
    (l.run l.exchange).near.heard = (l.run l.exchange).far.written.length ∧
      (l.run l.exchange).far.heard = (l.run l.exchange).near.written.length := by
  obtain ⟨⟨hnear, _, _, _, hp⟩, ⟨hfar, _, _, _, hq⟩⟩ := h
  obtain ⟨-, taken, hwritten, -⟩ := Party.moved_send hp.outbox [] false
  obtain ⟨-, taken', hwritten', -⟩ := Party.moved_send hq.outbox [] false
  refine ⟨?_, ?_⟩
  · refine Party.heard_receive_all (Nat.le_trans hnear ?_)
    rw [hwritten', List.length_append]
    omega
  · refine Party.heard_receive_all (Nat.le_trans hfar ?_)
    rw [hwritten, List.length_append]
    omega

/-- Two exchanges bring every run to rest. -/
theorem exists_quiet (t u : Terminal) (hmagic : t.config.magic = u.config.magic)
    (ht : (t.versionMessage.encode t.config.protocolVersion).length ≤ Wire.maxPayload)
    (hu : (u.versionMessage.encode u.config.protocolVersion).length ≤ Wire.maxPayload)
    (moves : List (Side × Move)) :
    ∃ more, ((start t u).run (moves ++ more)).Quiet := by
  let l := (start t u).run moves
  let l₁ := l.run l.exchange
  let l₂ := l₁.run l₁.exchange
  have hl : l.Keeps t u := keeps_run ht hu hmagic (keeps_start t u) moves
  have hl₁ : l₁.Keeps t u := keeps_run ht hu hmagic hl _
  have hl₂ : l₂.Keeps t u := keeps_run ht hu hmagic hl₁ _
  refine ⟨l.exchange ++ l₁.exchange, ?_⟩
  have hrun : (start t u).run (moves ++ (l.exchange ++ l₁.exchange)) = l₂ := by
    rw [run, List.foldl_append, List.foldl_append]
    rfl
  rw [hrun]
  -- the first exchange carries the version messages, the second one the veracks
  obtain ⟨hnear, hfar⟩ := heard_exchange hl
  have hversions : u.versionMessage.message.frame t.config.magic <+: l₁.far.written ∧
      t.versionMessage.message.frame t.config.magic <+: l₁.near.written := by
    obtain ⟨⟨-, _, _, _, hp⟩, ⟨-, _, _, _, hq⟩⟩ := hl
    rw [hmagic]
    refine ⟨hq.version_written, ?_⟩
    rw [← hmagic]
    exact hp.version_written
  have hwritten : l₂.near.written = Message.stream t.config.magic t.script ∧
      l₂.far.written = Message.stream u.config.magic u.script := by
    obtain ⟨⟨-, _, _, _, hp⟩, ⟨-, _, _, _, hq⟩⟩ := hl₁
    rw [show l₁.near.heard = _ from hnear, List.take_length] at hp
    rw [show l₁.far.heard = _ from hfar, List.take_length] at hq
    refine ⟨hp.script_written hversions.1, hq.script_written ?_⟩
    rw [← hmagic]
    exact hversions.2
  obtain ⟨hnear, hfar⟩ := heard_exchange hl₁
  obtain ⟨⟨-, _, _, _, hp⟩, ⟨-, _, _, _, hq⟩⟩ := hl₂
  exact ⟨hp.unsent_eq_nil hwritten.1, hq.unsent_eq_nil hwritten.2, hnear, hfar⟩

end Link

end PeerCrawl
