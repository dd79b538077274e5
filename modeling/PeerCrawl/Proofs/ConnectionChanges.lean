import PeerCrawl.Connection.Operation
import PeerCrawl.Proofs.Fragmentation
import PeerCrawl.Proofs.PeerIdentity
import PeerCrawl.Proofs.Understanding

set_option autoImplicit false

/-! # What happens to a connection

Whatever is done to a connection is a chain of elementary changes (`Connection.Changes`): its socket
does something without taking bytes, its connect is issued, its transport is established and we
introduce ourselves, queued bytes are written, or messages are understood. A change carries what it
gives the connection reason to say (`Cause`). The chain of an operation carries the causes of that
operation (`Connection.perform_changes`), and so does the chain of a whole run
(`Connection.performAll_changes`); what every change keeps, a run keeps. -/

namespace PeerCrawl

/-- Something that gives a connection reason to say something. -/
inductive Cause where
  /-- The transport is established, so we introduce ourselves. -/
  | established (introduction : VersionMessage)
  /-- A message of the peer was understood. -/
  | understood (message : Message)

namespace Cause

/-- What is said for a reason. -/
def said : Cause → List Message
  | established introduction => [introduction.message]
  | understood message => message.replies

/-- How we introduce ourselves, if that is the reason. -/
def introduction? : Cause → Option VersionMessage
  | established introduction => some introduction
  | understood _ => none

theorem introductions_understood (ms : List Message) :
    (ms.map understood).filterMap introduction? = [] := by
  rw [List.filterMap_map]
  exact List.filterMap_eq_nil_iff.2 fun _ _ => rfl

end Cause

/-- A connect has completed: no error waits, and the endpoint of the peer is known. -/
structure Socket.Connected (s : Socket) : Prop where
  takeFailure : s.takeFailure = none
  pendingError : s.pendingError = none
  peerFailure : s.peerFailure = none

theorem Socket.takeError_of_some {s : Socket} {e : IoError} (h : s.takeFailure = some e) :
    s.takeError = (.error e, { s with takeFailure := none }) := by
  rw [takeError]
  split <;> simp_all

theorem Socket.takeError_of_none {s : Socket} (h : s.takeFailure = none) :
    s.takeError = (.ok s.pendingError, { s with pendingError := none }) := by
  rw [takeError]
  split <;> simp_all

theorem Socket.written_takeError (s : Socket) : s.takeError.2.written = s.written := by
  unfold takeError
  split <;> rfl

theorem Socket.written_read (s : Socket) (limit : Nat) : (s.read limit).2.written = s.written := by
  unfold read
  split
  · rfl
  · rfl
  · rfl
  · split <;> rfl

theorem Outcome.andThen_of_error {α β : Type} {o : Outcome α} {e : ConnectionError}
    (h : o.result = .error e) (next : α → Connection → Outcome β) :
    o.andThen next = { connection := o.connection, result := .error e, events := o.events
                       notices := o.notices } := by
  simp only [andThen, h]

namespace Connection

/-! ## Causes -/

/-- How the connection introduces itself once its transport is established. -/
def introduction (c : Connection) : VersionMessage := c.markConnected.connection.versionMessage

/-- The connection once its transport is established and its introduction is queued. -/
def introduced (c : Connection) : Connection := c.markConnected.connection.introduce.connection

/-- The messages that a connection understands in the course of an operation, in order. -/
def understoodBy (c : Connection) : Operation → List Message
  | .receive bytes => c.session.understood (c.inbox.append bytes)
  | .readable => c.overheard
  | _ => []

/-- What an operation gives a connection reason to say: to introduce itself, if the transport is
established now and was not before, and to answer the messages that it understands. -/
def causes (c : Connection) (op : Operation) : List Cause :=
  (if c.isEstablished = false ∧ (c.perform op).connection.isEstablished = true then
    [.established c.introduction] else []) ++ (c.understoodBy op).map .understood

/-- The causes of operations one after the other. -/
def causesOf (c : Connection) : List Operation → List Cause
  | [] => []
  | op :: ops => c.causes op ++ (c.perform op).connection.causesOf ops

/-! ## Changes -/

/-- An elementary change, and what it gives reason to say. -/
inductive Change (c : Connection) : List Cause → Connection → Prop
  /-- The socket does something without taking bytes. -/
  | socket (socket : Socket) (h : socket.written = c.socket.written) : Change c [] { c with socket }
  /-- A connect is issued. -/
  | connecting (h : c.stage = .init) : Change c [] { c with stage := .connecting }
  /-- The transport is established, and the introduction is queued. -/
  | established (h : c.isEstablished = false) :
      Change c [.established c.introduction] c.introduced
  /-- Queued bytes are written. -/
  | flushed : Change c [] c.flush.connection
  /-- Messages are understood and answered. -/
  | understood (ms : List Message) (inbox : Inbox) (h : ∀ m ∈ ms, ∃ v, m.Decodes v) :
      Change c (ms.map .understood) { c with session := c.session.heard ms, inbox }

/-- Changes one after the other. -/
inductive Changes : Connection → List Cause → Connection → Prop
  | refl (c : Connection) : Changes c [] c
  | step {c c' c'' : Connection} {causes more : List Cause} (h : c.Change causes c')
      (rest : Changes c' more c'') : Changes c (causes ++ more) c''

variable {c c' c'' : Connection} {causes more : List Cause}

theorem Change.changes (h : c.Change causes c') : c.Changes causes c' := by
  rw [← List.append_nil causes]
  exact .step h (.refl c')

theorem Changes.trans (h : c.Changes causes c') (h' : c'.Changes more c'') :
    c.Changes (causes ++ more) c'' := by
  induction h with
  | refl c => exact h'
  | step h rest ih =>
    rw [List.append_assoc]
    exact .step h (ih h')

/-- What every change keeps, a chain of changes keeps. -/
theorem Changes.keeps {P : Connection → Prop}
    (hP : ∀ {c c' : Connection} {causes : List Cause}, c.Change causes c' → P c → P c')
    (h : c.Changes causes c') (hc : P c) : P c' := by
  induction h with
  | refl c => exact hc
  | step h rest ih => exact ih (hP h hc)

/-- Our introduction follows at once, so that no change leaves a connection in between. -/
theorem Change.stage (h : c.Change causes c') (hc : c.stage ≠ .connected) :
    c'.stage ≠ .connected := by
  cases h with
  | socket | flushed | understood => exact hc
  | connecting => exact Stage.noConfusion
  | established => exact Stage.noConfusion

theorem Changes.stage (h : c.Changes causes c') (hc : c.stage ≠ .connected) :
    c'.stage ≠ .connected :=
  h.keeps Change.stage hc

theorem Change.length_introductions (h : c.Change causes c') :
    c.isEstablished.toNat + (causes.filterMap Cause.introduction?).length =
      c'.isEstablished.toNat := by
  cases h with
  | socket | flushed => rfl
  | connecting h => rw [isEstablished, h]; rfl
  | established h => rw [h]; rfl
  | understood ms => rw [Cause.introductions_understood]; rfl

/-- We introduce ourselves when the transport is established, and never again. -/
theorem Changes.length_introductions (h : c.Changes causes c') :
    c.isEstablished.toNat + (causes.filterMap Cause.introduction?).length =
      c'.isEstablished.toNat := by
  induction h with
  | refl c => rfl
  | step h rest ih =>
    rw [List.filterMap_append, List.length_append, ← Nat.add_assoc, h.length_introductions, ih]

/-- Since it was made, a connection has introduced itself once if its transport is established, and
else not at all. -/
theorem Changes.length_introductions_of_new {socket : Socket} {peer : Address}
    {config : Configuration} (h : (ofSocket socket peer config).Changes causes c) :
    (causes.filterMap Cause.introduction?).length = c.isEstablished.toNat := by
  rw [← h.length_introductions]
  exact (Nat.zero_add _).symm

theorem isEstablished_iff (hc : c.stage ≠ .connected) :
    c.isEstablished = true ↔ c.stage = .versionSent := by
  unfold isEstablished Stage.isEstablished
  cases h : c.stage with
  | init | connecting => simp
  | connected => exact absurd h hc
  | versionSent => simp

/-! ## Operations -/

theorem introduce_of_settled (hc : c.stage ≠ .connected) : c.introduce = .unchanged c () := by
  rw [introduce, if_neg hc]

theorem markConnecting_changes (c : Connection) : c.Changes [] c.markConnecting := by
  unfold markConnecting
  split
  · next h => exact (Change.connecting h).changes
  · exact .refl c

theorem established_of_settled (hc : c.stage ≠ .connected) :
    c.established.connection = if c.isEstablished then c else c.introduced := by
  cases h : c.isEstablished with
  | true =>
    rw [established, h]
    exact congrArg Outcome.connection (introduce_of_settled hc)
  | false =>
    rw [established, h]
    rfl

theorem introduction_takeError (c : Connection) :
    introduction { c with socket := c.socket.takeError.2 } = c.introduction := by
  unfold introduction Socket.takeError
  split <;> rfl

/-- A transport that is established already has nothing to complete: queued bytes are written. -/
theorem onWritable_of_established (h : c.stage = .versionSent) :
    c.onWritable.connection = c.flush.connection ∧ c.onWritable.result = c.flush.result := by
  have hestablished : c.isEstablished = true := by rw [isEstablished, h]; rfl
  have hintroduce : c.introduce = .unchanged c () :=
    introduce_of_settled (by rw [h]; exact Stage.noConfusion)
  rw [onWritable, if_pos hestablished]
  show (c.introduce.andThen fun _ c => c.flush).connection = _ ∧
    (c.introduce.andThen fun _ c => c.flush).result = _
  rw [hintroduce]
  exact ⟨rfl, rfl⟩

theorem completeConnect_of_connected (h : c.socket.Connected) :
    c.completeConnect =
      (markConnected { c with socket := c.socket.takeError.2 }).andThen
        fun _ c => .unchanged c true := by
  obtain ⟨htake, hpending, hpeer⟩ := h
  have htaken := Socket.takeError_of_none htake
  rw [hpending] at htaken
  simp only [completeConnect, htaken, hpeer]

theorem completeConnect_of_not_connected (h : ¬ c.socket.Connected) :
    c.completeConnect.connection = { c with socket := c.socket.takeError.2 } ∧
      (c.completeConnect.result = .ok false ∨ ∃ e, c.completeConnect.result = .error e) := by
  cases htake : c.socket.takeFailure with
  | some e =>
    simp only [completeConnect, Socket.takeError_of_some htake]
    exact ⟨trivial, .inr ⟨.io e, rfl⟩⟩
  | none =>
    have htaken := Socket.takeError_of_none htake
    cases hpending : c.socket.pendingError with
    | some e =>
      rw [hpending] at htaken
      simp only [completeConnect, htaken]
      exact ⟨trivial, .inr ⟨.io e, rfl⟩⟩
    | none =>
      rw [hpending] at htaken
      simp only [completeConnect, htaken]
      split
      · next hpeer => exact absurd ⟨htake, hpending, hpeer⟩ h
      · exact ⟨rfl, .inl rfl⟩
      · next e _ _ => exact ⟨rfl, .inr ⟨.io e, rfl⟩⟩

/-- A connect that has completed: the introduction is queued, and then written. -/
theorem onWritable_of_connected (h : c.isEstablished = false) (hconnected : c.socket.Connected) :
    c.onWritable.connection =
        (introduced { c with socket := c.socket.takeError.2 }).flush.connection ∧
      c.onWritable.result =
        (introduced { c with socket := c.socket.takeError.2 }).flush.result := by
  rw [onWritable, if_neg (by rw [h]; exact Bool.false_ne_true),
    completeConnect_of_connected hconnected]
  exact ⟨rfl, rfl⟩

/-- A connect that is in flight, or has failed: nothing has become of the connection. -/
theorem onWritable_of_not_connected (h : c.isEstablished = false)
    (hconnected : ¬ c.socket.Connected) :
    c.onWritable.connection = { c with socket := c.socket.takeError.2 } ∧
      (c.onWritable.result = .ok true ∨ ∃ e, c.onWritable.result = .error e) := by
  obtain ⟨hconnection, hresult⟩ := completeConnect_of_not_connected hconnected
  rw [onWritable, if_neg (by rw [h]; exact Bool.false_ne_true), ← hconnection]
  rcases hresult with hfalse | ⟨e, he⟩
  · rw [Outcome.andThen_of_ok hfalse]
    exact ⟨rfl, .inl rfl⟩
  · rw [Outcome.andThen_of_error he]
    exact ⟨rfl, .inr ⟨e, rfl⟩⟩

/-- The messages of a feed are understood at once. -/
theorem receive_changes (c : Connection) (bytes : Bytes) :
    c.Changes ((c.session.understood (c.inbox.append bytes)).map .understood)
      (c.receive bytes).connection := by
  obtain ⟨hsession, -, hturn⟩ := c.session.feed_understood (c.inbox.append bytes)
  rw [receive, hsession]
  exact (Change.understood _ _ (Message.decodes_of_decodeInTurn hturn)).changes

theorem read_changes {r : Except IoError Bytes} {socket : Socket}
    (h : c.socket.read readLimit = (r, socket)) : c.Changes [] { c with socket } := by
  have hwritten := c.socket.written_read readLimit
  rw [h] at hwritten
  exact (Change.socket socket hwritten).changes

theorem onReadable_changes (c : Connection) :
    c.Changes (c.overheard.map .understood) c.onReadable.connection := by
  fun_induction onReadable c with
  | case1 c socket h =>
    rw [overheard_of_closed h]
    exact read_changes h
  -- bytes were read, and refused or understood
  | case2 c b bs socket h fed c' e he =>
    rw [overheard_of_bytes h, he, List.append_nil]
    exact (read_changes h).trans (receive_changes { c with socket } (b :: bs))
  | case3 c b bs socket h fed c' he later ih =>
    rw [overheard_of_bytes h, he, List.map_append]
    exact ((read_changes h).trans (receive_changes { c with socket } (b :: bs))).trans ih
  -- the socket would block, was interrupted, or has failed
  | case4 c socket h =>
    rw [overheard_of_error h (by decide)]
    exact read_changes h
  | case5 c socket h ih =>
    rw [overheard_of_interrupted h]
    exact (read_changes h).trans ih
  | case6 c e socket _ hinterrupted h =>
    rw [overheard_of_error h hinterrupted]
    exact read_changes h

/-! ## Runs -/

theorem causes_of_understood {op : Operation}
    (h : c.Changes ((c.understoodBy op).map .understood) (c.perform op).connection) :
    c.causes op = (c.understoodBy op).map .understood := by
  have hlen := h.length_introductions
  rw [Cause.introductions_understood] at hlen
  have hnot : ¬ (c.isEstablished = false ∧ (c.perform op).connection.isEstablished = true) := by
    rintro ⟨hbefore, hafter⟩
    rw [hbefore, hafter] at hlen
    exact absurd hlen (by decide)
  rw [causes, if_neg hnot, List.nil_append]

theorem causes_of_introduced {op : Operation} (h : c.isEstablished = false)
    (hop : (c.perform op).connection.isEstablished = true) (hnone : c.understoodBy op = []) :
    c.causes op = [.established c.introduction] := by
  rw [causes, if_pos ⟨h, hop⟩, hnone]
  rfl

/-- Most operations do not establish the transport. -/
theorem perform_changes_of_understood {op : Operation}
    (h : c.Changes ((c.understoodBy op).map .understood) (c.perform op).connection) :
    c.Changes (c.causes op) (c.perform op).connection := by
  rw [causes_of_understood h]
  exact h

theorem perform_established_changes (hc : c.stage ≠ .connected) :
    c.Changes (c.causes .established) (c.perform .established).connection := by
  have hop : (c.perform .established).connection = if c.isEstablished then c else c.introduced :=
    established_of_settled hc
  cases h : c.isEstablished with
  | true =>
    rw [h, if_pos rfl] at hop
    refine perform_changes_of_understood ?_
    rw [hop]
    exact .refl c
  | false =>
    rw [h, if_neg Bool.false_ne_true] at hop
    rw [causes_of_introduced h (by rw [hop]; rfl) rfl, hop]
    exact (Change.established h).changes

theorem perform_writable_changes (hc : c.stage ≠ .connected) :
    c.Changes (c.causes .writable) (c.perform .writable).connection := by
  have hop : (c.perform .writable).connection = c.onWritable.connection := rfl
  cases h : c.isEstablished with
  | true =>
    rw [(onWritable_of_established ((isEstablished_iff hc).1 h)).1] at hop
    refine perform_changes_of_understood ?_
    rw [hop]
    exact Change.flushed.changes
  | false =>
    have htaken : c.Changes [] { c with socket := c.socket.takeError.2 } :=
      (Change.socket _ c.socket.written_takeError).changes
    by_cases hconnected : c.socket.Connected
    · rw [(onWritable_of_connected h hconnected).1] at hop
      have hintroduced : Change { c with socket := c.socket.takeError.2 }
          [.established c.introduction] (introduced { c with socket := c.socket.takeError.2 }) := by
        rw [← c.introduction_takeError]
        exact .established h
      rw [causes_of_introduced h (by rw [hop]; rfl) rfl, hop]
      exact htaken.trans (hintroduced.changes.trans Change.flushed.changes)
    · rw [(onWritable_of_not_connected h hconnected).1] at hop
      refine perform_changes_of_understood ?_
      rw [hop]
      exact htaken

/-- An operation does what it gives reason to, and nothing else. -/
theorem perform_changes (hc : c.stage ≠ .connected) (op : Operation) :
    c.Changes (c.causes op) (c.perform op).connection := by
  cases op with
  | markConnecting => exact perform_changes_of_understood c.markConnecting_changes
  | established => exact perform_established_changes hc
  | writable => exact perform_writable_changes hc
  | flush => exact perform_changes_of_understood Change.flushed.changes
  | readable => exact perform_changes_of_understood c.onReadable_changes
  | receive bytes => exact perform_changes_of_understood (c.receive_changes bytes)
  | error =>
    have htaken : c.Change [] (c.perform .error).connection := .socket _ c.socket.written_takeError
    exact perform_changes_of_understood htaken.changes
  | socket change =>
    have hsocket : c.Change [] (c.perform (.socket change)).connection := .socket _ rfl
    exact perform_changes_of_understood hsocket.changes

theorem connection_performAll_cons (c : Connection) (op : Operation) (ops : List Operation) :
    (c.performAll (op :: ops)).connection =
      ((c.perform op).connection.performAll ops).connection := by
  cases op <;> rfl

/-- A run does what its operations give reason to, one after the other. -/
theorem performAll_changes (hc : c.stage ≠ .connected) (ops : List Operation) :
    c.Changes (c.causesOf ops) (c.performAll ops).connection := by
  induction ops generalizing c with
  | nil => exact .refl c
  | cons op ops ih =>
    have hop := perform_changes hc op
    rw [causesOf, connection_performAll_cons]
    exact hop.trans (ih (hop.stage hc))

end Connection

end PeerCrawl
