import PeerCrawl.Proofs.ConnectionChanges
import PeerCrawl.Proofs.Script

set_option autoImplicit false

/-! # What a connection hears

Bytes of the peer reach a connection by `Connection.receive`, and by the reads of
`Connection.onReadable`, which receive one piece after the other. Every other operation hears
nothing: the inbox and all that is known of the peer stay as they were, and there are no events
(`Connection.perform_cases`). So what receiving keeps, every run keeps
(`Connection.performAll_keeps`), and the events of an operation are what the messages tell that it
understands (`Connection.events_perform`). -/

namespace PeerCrawl

variable {c c' c'' : Connection}

/-- Nothing was heard in between: the inbox is the same, and so is the session, up to what is
queued. -/
structure Connection.HeardAlike (c c' : Connection) : Prop where
  inbox : c'.inbox = c.inbox
  session : c'.session = { c.session with outbox := c'.session.outbox }

/-- Nothing was heard, and nothing is told. -/
structure Outcome.Silent {α : Type} (o : Outcome α) (c : Connection) : Prop where
  alike : c.HeardAlike o.connection
  events : o.events = []

namespace Connection

theorem HeardAlike.refl (c : Connection) : c.HeardAlike c := ⟨rfl, rfl⟩

theorem HeardAlike.trans (h : c.HeardAlike c') (h' : c'.HeardAlike c'') : c.HeardAlike c'' := by
  refine ⟨h'.inbox.trans h.inbox, ?_⟩
  rw [h'.session, h.session]

theorem heardAlike_socket (c : Connection) (socket : Socket) : c.HeardAlike { c with socket } :=
  ⟨rfl, rfl⟩

end Connection

/-! ## Operations that hear nothing -/

namespace Outcome

variable {α β : Type}

theorem silent_unchanged (c : Connection) (a : α) : (unchanged c a).Silent c := ⟨.refl c, rfl⟩

theorem Silent.andThen {o : Outcome α} {next : α → Connection → Outcome β} (h : o.Silent c)
    (hnext : ∀ a c', (next a c').Silent c') : (o.andThen next).Silent c := by
  cases hresult : o.result with
  | error e =>
    rw [andThen_of_error hresult]
    exact ⟨h.alike, h.events⟩
  | ok a =>
    have hlater := hnext a o.connection
    rw [andThen_of_ok hresult]
    refine ⟨h.alike.trans hlater.alike, ?_⟩
    rw [h.events, hlater.events, List.append_nil]

end Outcome

namespace Connection

theorem markConnected_silent (c : Connection) : c.markConnected.Silent c := ⟨⟨rfl, rfl⟩, rfl⟩

theorem introduce_silent (c : Connection) : c.introduce.Silent c := by
  unfold introduce
  split
  · exact ⟨⟨rfl, rfl⟩, rfl⟩
  · exact Outcome.silent_unchanged c ()

theorem established_silent (c : Connection) : c.established.Silent c := by
  refine Outcome.Silent.andThen ?_ fun _ c' => introduce_silent c'
  split
  · exact Outcome.silent_unchanged c ()
  · exact markConnected_silent c

theorem flush_silent (c : Connection) : c.flush.Silent c := ⟨⟨rfl, rfl⟩, rfl⟩

theorem completeConnect_silent (c : Connection) : c.completeConnect.Silent c := by
  by_cases h : c.socket.Connected
  · rw [completeConnect_of_connected h]
    exact ⟨⟨rfl, rfl⟩, rfl⟩
  · refine ⟨?_, ?_⟩
    · rw [(completeConnect_of_not_connected h).1]
      exact heardAlike_socket c _
    · unfold completeConnect
      dsimp only
      split
      · rfl
      · rfl
      · split <;> rfl

theorem onWritable_silent (c : Connection) : c.onWritable.Silent c := by
  refine Outcome.Silent.andThen ?_ fun complete c' => ?_
  · split
    · exact Outcome.silent_unchanged c true
    · exact completeConnect_silent c
  · split
    · exact (introduce_silent c').andThen fun _ c'' => flush_silent c''
    · exact Outcome.silent_unchanged c' true

theorem markConnecting_heardAlike (c : Connection) : c.HeardAlike c.markConnecting := by
  unfold markConnecting
  split <;> exact ⟨rfl, rfl⟩

/-- An operation hears nothing, or receives bytes, or reads them. -/
theorem perform_cases (c : Connection) (op : Operation) :
    (c.perform op).Silent c ∧ c.understoodBy op = [] ∨
      (∃ bytes, op = .receive bytes) ∨ op = .readable := by
  cases op with
  | markConnecting => exact .inl ⟨⟨c.markConnecting_heardAlike, rfl⟩, rfl⟩
  | established => exact .inl ⟨⟨c.established_silent.alike, c.established_silent.events⟩, rfl⟩
  | writable => exact .inl ⟨⟨c.onWritable_silent.alike, c.onWritable_silent.events⟩, rfl⟩
  | flush => exact .inl ⟨⟨c.flush_silent.alike, rfl⟩, rfl⟩
  | error => exact .inl ⟨⟨c.heardAlike_socket _, rfl⟩, rfl⟩
  | socket change => exact .inl ⟨⟨c.heardAlike_socket _, rfl⟩, rfl⟩
  | receive bytes => exact .inr (.inl ⟨bytes, rfl⟩)
  | readable => exact .inr (.inr rfl)

/-! ## What receiving keeps -/

section Keeping

variable {P : Connection → Prop} (hquiet : ∀ {c c' : Connection}, c.HeardAlike c' → P c → P c')
  (hreceive : ∀ {c : Connection} (bytes : Bytes), P c → P (c.receive bytes).connection)

include hquiet hreceive

theorem onReadable_keeps_received (h : P c) : P c.onReadable.connection := by
  fun_induction onReadable c with
  | case1 c socket | case4 c socket | case6 c e socket =>
    exact hquiet (c.heardAlike_socket socket) h
  -- bytes were read, and refused or received
  | case2 c b bs socket => exact hreceive (b :: bs) (hquiet (c.heardAlike_socket socket) h)
  | case3 c b bs socket _ fed c' he later ih =>
    exact ih (hreceive (b :: bs) (hquiet (c.heardAlike_socket socket) h))
  | case5 c socket _ ih => exact ih (hquiet (c.heardAlike_socket socket) h)

theorem perform_keeps (h : P c) (op : Operation) : P (c.perform op).connection := by
  rcases c.perform_cases op with ⟨hsilent, -⟩ | ⟨bytes, rfl⟩ | rfl
  · exact hquiet hsilent.alike h
  · exact hreceive bytes h
  · exact onReadable_keeps_received hquiet hreceive h

/-- What receiving keeps, a run keeps. -/
theorem performAll_keeps (h : P c) (ops : List Operation) : P (c.performAll ops).connection := by
  induction ops generalizing c with
  | nil => exact h
  | cons op ops ih =>
    rw [connection_performAll_cons]
    exact ih (perform_keeps hquiet hreceive h op)

end Keeping

/-! ## Events -/

theorem events_onReadable (c : Connection) :
    c.onReadable.events = Message.eventsOf c.peer c.session.streamVersion c.overheard := by
  fun_induction onReadable c with
  | case1 c socket h => rw [overheard_of_closed h]; rfl
  | case2 c b bs socket h fed c' e he =>
    rw [overheard_of_bytes h, he, List.append_nil]
    exact (c.session.feed_understood (c.inbox.append (b :: bs))).2.1
  | case3 c b bs socket h fed c' he later ih =>
    obtain ⟨hsession, hevents, -⟩ := c.session.feed_understood (c.inbox.append (b :: bs))
    have hversion : c'.session.streamVersion =
        (c.session.understood (c.inbox.append (b :: bs))).foldl (fun v m => m.versionAfter v)
          c.session.streamVersion := by
      rw [← Session.streamVersion_heard_all, ← hsession]
    have hpeer : c'.peer = c.peer := (congrArg Session.peer hsession).trans (Session.peer_heard _ _)
    rw [overheard_of_bytes h, he, Message.eventsOf_append, ← hversion, ← hpeer]
    show fed.events ++ c'.onReadable.events = _
    rw [ih, hpeer]
    exact congrArg (· ++ _) hevents
  | case4 c socket h => rw [overheard_of_error h (by decide)]; rfl
  | case5 c socket h ih => rw [overheard_of_interrupted h]; exact ih
  | case6 c e socket _ hinterrupted h => rw [overheard_of_error h hinterrupted]; rfl

/-- An operation tells what the messages tell that it understands. -/
theorem events_perform (c : Connection) (op : Operation) :
    (c.perform op).events =
      Message.eventsOf c.peer c.session.streamVersion (c.understoodBy op) := by
  rcases c.perform_cases op with ⟨hsilent, hnone⟩ | ⟨bytes, rfl⟩ | rfl
  · rw [hsilent.events, hnone]
    rfl
  · exact (c.session.feed_understood (c.inbox.append bytes)).2.1
  · exact c.events_onReadable

theorem events_performAll_cons (c : Connection) (op : Operation) (ops : List Operation) :
    (c.performAll (op :: ops)).events =
      (c.perform op).events ++ ((c.perform op).connection.performAll ops).events := by
  cases op <;> rfl

end Connection

end PeerCrawl
