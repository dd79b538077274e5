import PeerCrawl.Crawl.Dispatch
import PeerCrawl.Proofs.Outbox

set_option autoImplicit false

/-! # What a connection stays

Whatever happens to a connection, it stays the connection of one peer on one socket, and the
handshakes that it tells are those of that peer: `Outcome.Keeps` says so of an outcome. It carries
over from one operation to the next (`Outcome.Keeps.andThen`), so it holds of all that one
notification does (`Connection.drive_keeps`). -/

namespace PeerCrawl

/-- The event is about a peer: a handshake bears the address that was dialed, with the services that
the peer advertises. -/
def PeerEvent.IsOf (peer : Address) : PeerEvent → Prop
  | handshake h => h.address = peer.withServices h.services
  | addresses _ => True

/-! ## Sockets and outboxes -/

namespace Socket

theorem number_write (s : Socket) (offered : Bytes) : (s.write offered).2.number = s.number := by
  unfold write
  split
  · split <;> rfl
  · rfl
  · rfl

theorem number_read (s : Socket) (limit : Nat) : (s.read limit).2.number = s.number := by
  unfold read
  split
  · rfl
  · rfl
  · rfl
  · split <;> rfl

theorem number_takeError (s : Socket) : s.takeError.2.number = s.number := by
  unfold takeError
  split <;> rfl

end Socket

/-- What no write changes, no flush changes. -/
theorem Outbox.flush_keeps {β : Type} {f : Socket → β}
    (hwrite : ∀ (s : Socket) (offered : Bytes), f (s.write offered).2 = f s) (o : Outbox)
    (s : Socket) : f (o.flush s).socket = f s := by
  fun_induction flush o s with
  | case1 o s => rfl
  | case2 o s front rest _ offered s' hw
  | case3 o s front rest _ offered n s' hw
  | case5 o s front rest _ offered s' hw
  | case7 o s front rest _ offered e s' _ _ hw =>
    have hsame := hwrite s offered
    rw [hw] at hsame
    exact hsame
  -- the flush goes on
  | case4 o s front rest _ offered n s' hw _ _ ih
  | case6 o s front rest _ offered s' hw ih =>
    have hsame := hwrite s offered
    rw [hw] at hsame
    exact ih.trans hsame

theorem Outbox.number_flush (o : Outbox) (s : Socket) : (o.flush s).socket.number = s.number :=
  o.flush_keeps Socket.number_write s

/-! ## Sessions -/

namespace Session

variable {s : Session}

theorem handleVersion_keeps {payload : Bytes} {r : Handled} (h : s.handleVersion payload = .ok r) :
    r.session.peer = s.peer ∧ ∀ event ∈ r.events, event.IsOf s.peer := by
  unfold handleVersion at h
  simp only [bind, Except.bind] at h
  split at h
  · exact absurd h (by simp)
  · split at h
    · exact absurd h (by simp)
    · rw [← Except.ok.inj h]
      refine ⟨rfl, ?_⟩
      intro event hevent
      rw [List.mem_singleton.1 hevent]
      rfl

theorem handlePing_keeps {payload : Bytes} {r : Handled} (h : s.handlePing payload = .ok r) :
    r.session.peer = s.peer ∧ ∀ event ∈ r.events, event.IsOf s.peer := by
  unfold handlePing at h
  split at h
  · rw [← Except.ok.inj h]
    exact ⟨rfl, by simp⟩
  · simp only [bind, Except.bind] at h
    split at h
    · exact absurd h (by simp)
    · rw [← Except.ok.inj h]
      exact ⟨rfl, by simp⟩

theorem handleAddresses_keeps {payload : Bytes} {r : Handled}
    (h : s.handleAddresses payload = .ok r) :
    r.session.peer = s.peer ∧ ∀ event ∈ r.events, event.IsOf s.peer := by
  unfold handleAddresses at h
  simp only [bind, Except.bind] at h
  split at h
  · exact absurd h (by simp)
  · rw [← Except.ok.inj h]
    refine ⟨rfl, ?_⟩
    intro event hevent
    rw [List.mem_singleton.1 hevent]
    trivial

theorem interpret_keeps {command : Command} {payload : Bytes} {r : Handled}
    (h : s.interpret command payload = .ok r) :
    r.session.peer = s.peer ∧ ∀ event ∈ r.events, event.IsOf s.peer := by
  unfold interpret at h
  split at h
  · exact handleVersion_keeps h
  split at h
  · rw [← Except.ok.inj h]
    exact ⟨rfl, by simp⟩
  split at h
  · exact handlePing_keeps h
  split at h
  · exact handleAddresses_keeps h
  · rw [← Except.ok.inj h]
    exact ⟨rfl, by simp⟩

theorem handle_keeps {header : Header} {payload : Bytes} {r : Handled}
    (h : s.handle header payload = .ok r) :
    r.session.peer = s.peer ∧ ∀ event ∈ r.events, event.IsOf s.peer := by
  unfold handle at h
  split at h
  · exact absurd h (by simp)
  · cases hr : s.interpret header.command payload with
    | error e =>
      rw [hr] at h
      exact absurd h nofun
    | ok r' =>
      rw [hr] at h
      rw [← Except.ok.inj h]
      exact interpret_keeps hr

/-- However many frames an inbox holds, the session is still about its peer. -/
theorem feed_keeps (s : Session) (inbox : Inbox) :
    (s.feed inbox).session.peer = s.peer ∧ ∀ event ∈ (s.feed inbox).events, event.IsOf s.peer := by
  fun_induction feed s inbox with
  | case1 s inbox _ _ | case2 s inbox _ _ | case3 s inbox _ _ _ _ _ _ => exact ⟨rfl, by simp⟩
  | case4 s inbox header payload rest _ r hr ih =>
    obtain ⟨hpeer, hevents⟩ := handle_keeps hr
    rw [hpeer] at ih
    refine ⟨ih.1, ?_⟩
    intro event hevent
    rcases List.mem_append.1 hevent with hfirst | hlater
    · exact hevents event hfirst
    · exact ih.2 event hlater

end Session

/-! ## Outcomes -/

/-- The outcome is still about a connection: its socket and its peer are the same, and what was told
is about that peer. -/
structure Outcome.Keeps {α : Type} (o : Outcome α) (c : Connection) : Prop where
  number : o.connection.socket.number = c.socket.number
  peer : o.connection.peer = c.peer
  events : ∀ event ∈ o.events, event.IsOf c.peer

namespace Outcome

variable {α β : Type} {c : Connection}

/-- An operation that tells nothing. -/
theorem Keeps.of_silent {o : Outcome α} (hnumber : o.connection.socket.number = c.socket.number)
    (hpeer : o.connection.peer = c.peer) (hevents : o.events = []) : o.Keeps c :=
  ⟨hnumber, hpeer, by simp [hevents]⟩

theorem keeps_unchanged (c : Connection) (a : α) : (unchanged c a).Keeps c := .of_silent rfl rfl rfl

theorem Keeps.andThen {o : Outcome α} {next : α → Connection → Outcome β} (h : o.Keeps c)
    (hnext : ∀ a c', (next a c').Keeps c') : (o.andThen next).Keeps c := by
  unfold Outcome.andThen
  split
  · exact ⟨h.number, h.peer, h.events⟩
  · rename_i a _
    have hlater := hnext a o.connection
    refine ⟨hlater.number.trans h.number, hlater.peer.trans h.peer, ?_⟩
    intro event hevent
    rcases List.mem_append.1 hevent with hfirst | hlast
    · exact h.events event hfirst
    · rw [← h.peer]
      exact hlater.events event hlast

end Outcome

/-! ## Connections -/

namespace Connection

theorem markConnected_keeps (c : Connection) : c.markConnected.Keeps c := .of_silent rfl rfl rfl

theorem introduce_keeps (c : Connection) : c.introduce.Keeps c := by
  unfold introduce
  split
  · exact .of_silent rfl rfl rfl
  · exact Outcome.keeps_unchanged c ()

theorem established_keeps (c : Connection) : c.established.Keeps c := by
  refine Outcome.Keeps.andThen ?_ fun _ c' => introduce_keeps c'
  split
  · exact Outcome.keeps_unchanged c ()
  · exact markConnected_keeps c

theorem flush_keeps (c : Connection) : c.flush.Keeps c :=
  .of_silent (c.session.outbox.number_flush c.socket) rfl rfl

theorem completeConnect_keeps (c : Connection) : c.completeConnect.Keeps c := by
  have hnumber := c.socket.number_takeError
  rcases h : c.socket.takeError with ⟨taken, socket⟩
  rw [h] at hnumber
  simp only [completeConnect, h]
  split
  · exact .of_silent hnumber rfl rfl
  · exact .of_silent hnumber rfl rfl
  · split
    · exact Outcome.Keeps.andThen (.of_silent hnumber rfl rfl) fun _ c' =>
        Outcome.keeps_unchanged c' true
    · exact .of_silent hnumber rfl rfl
    · exact .of_silent hnumber rfl rfl

theorem onWritable_keeps (c : Connection) : c.onWritable.Keeps c := by
  refine Outcome.Keeps.andThen ?_ fun complete c' => ?_
  · split
    · exact Outcome.keeps_unchanged c true
    · exact completeConnect_keeps c
  · split
    · exact Outcome.Keeps.andThen (introduce_keeps c') fun _ c'' => flush_keeps c''
    · exact Outcome.keeps_unchanged c' true

/-- However many reads it takes until the socket would block. -/
theorem onReadable_keeps (c : Connection) : c.onReadable.Keeps c := by
  fun_induction onReadable c with
  | case1 c socket h | case4 c socket h | case6 c e socket _ _ h =>
    have hnumber := c.socket.number_read readLimit
    rw [h] at hnumber
    exact .of_silent hnumber rfl rfl
  -- bytes were read, and refused or understood
  | case2 c b bs socket h fed c' e he =>
    have hnumber := c.socket.number_read readLimit
    rw [h] at hnumber
    obtain ⟨hpeer, hevents⟩ := c.session.feed_keeps (c.inbox.append (b :: bs))
    exact ⟨hnumber, hpeer, hevents⟩
  | case3 c b bs socket h fed c' he later ih =>
    have hnumber := c.socket.number_read readLimit
    rw [h] at hnumber
    obtain ⟨hpeer, hevents⟩ := c.session.feed_keeps (c.inbox.append (b :: bs))
    refine ⟨ih.number.trans hnumber, ih.peer.trans hpeer, ?_⟩
    intro event hevent
    rcases List.mem_append.1 hevent with hfirst | hlater
    · exact hevents event hfirst
    · have hlast := ih.events event hlater
      rw [show c'.peer = c.peer from hpeer] at hlast
      exact hlast
  | case5 c socket h ih =>
    have hnumber := c.socket.number_read readLimit
    rw [h] at hnumber
    exact ⟨ih.number.trans hnumber, ih.peer, ih.events⟩

theorem onError_keeps (c : Connection) :
    c.onError.1.socket.number = c.socket.number ∧ c.onError.1.peer = c.peer :=
  ⟨c.socket.number_takeError, rfl⟩

/-- A notification leaves a connection the one that it is, and what its peer tells is about the
peer. -/
theorem drive_keeps (c : Connection) (ready : Readiness) : (c.drive ready).Keeps c := by
  unfold drive
  refine Outcome.Keeps.andThen (Outcome.Keeps.andThen ?_ fun _ c' => ?_) fun _ c' => ?_
  · split
    · exact onWritable_keeps c
    · exact Outcome.keeps_unchanged c true
  · split
    · exact Outcome.Keeps.andThen (onReadable_keeps c') fun _ c'' => flush_keeps c''
    · exact Outcome.keeps_unchanged c' true
  · split
    · exact .of_silent (onError_keeps c').1 (onError_keeps c').2 rfl
    · exact Outcome.keeps_unchanged c' ()

end Connection

end PeerCrawl
