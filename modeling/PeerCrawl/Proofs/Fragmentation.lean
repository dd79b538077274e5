import PeerCrawl.Connection.Operation
import PeerCrawl.Proofs.Framing

set_option autoImplicit false

/-! # Streams that arrive in pieces

A peer's bytes arrive in pieces that are cut anywhere. `Connection.receiveAll` receives one piece
after the other, up to the first that is refused; what comes after that piece is left unread. It
makes no difference where the stream is cut (`Connection.receive_independent_of_cuts`): up to the
unread bytes, which a single call would have left at the end of the inbox, the outcome is that of
receiving the whole stream at once. -/

namespace PeerCrawl

namespace Outcome

variable {α β : Type}

/-- The same outcome with more bytes at the end of the inbox. -/
def leaving (o : Outcome α) (b : Bytes) : Outcome α :=
  { o with connection := { o.connection with inbox := o.connection.inbox.append b } }

@[simp] theorem leaving_nil (o : Outcome α) : o.leaving [] = o := by simp [leaving]

theorem andThen_of_ok {o : Outcome α} {a : α} (h : o.result = .ok a)
    (next : α → Connection → Outcome β) :
    o.andThen next = { next a o.connection with
      events := o.events ++ (next a o.connection).events
      notices := o.notices ++ (next a o.connection).notices } := by
  simp only [andThen, h]

/-- Doing nothing after a success. -/
theorem andThen_unchanged (o : Outcome Unit) :
    (o.andThen fun _ c => .unchanged c ()) = o := by
  obtain ⟨connection, result, events, notices⟩ := o
  cases result <;> simp [andThen, unchanged]

end Outcome

/-- What becomes of a stream that arrives in pieces. -/
structure Reception where
  /-- All calls taken together, up to the first that fails. -/
  outcome : Outcome Unit
  /-- The bytes of the pieces after that one. -/
  unread : Bytes

namespace Connection

/-- Receive pieces one after the other, as long as none is refused. -/
def receiveAll (c : Connection) : List Bytes → Reception
  | [] => { outcome := .unchanged c (), unread := [] }
  | b :: rest =>
    let first := c.receive b
    match first.result with
    | .error _ => { outcome := first, unread := rest.flatten }
    | .ok () =>
      let later := first.connection.receiveAll rest
      { outcome := first.andThen fun _ _ => later.outcome, unread := later.unread }

variable {c : Connection} {b : Bytes} {rest : List Bytes}

theorem receiveAll_of_ok (h : (c.receive b).result = .ok ()) :
    c.receiveAll (b :: rest) =
      { outcome := (c.receive b).andThen fun _ c' => (c'.receiveAll rest).outcome
        unread := ((c.receive b).connection.receiveAll rest).unread } := by
  simp only [receiveAll, h, Outcome.andThen]

theorem receiveAll_of_error {e : ConnectionError} (h : (c.receive b).result = .error e) :
    c.receiveAll (b :: rest) = { outcome := c.receive b, unread := rest.flatten } := by
  simp only [receiveAll, h]

/-! ## One cut -/

theorem receive_append_of_ok {b₁ : Bytes} (h : (c.receive b₁).result = .ok ()) (b₂ : Bytes) :
    c.receive (b₁ ++ b₂) = (c.receive b₁).andThen fun _ c' => c'.receive b₂ := by
  have hfed : c.session.feed (c.inbox.append (b₁ ++ b₂)) =
      (c.session.feed (c.inbox.append b₁)).resume b₂ := by
    rw [← Inbox.append_append, Session.feed_append]
  rw [Fed.resume_of_ok h] at hfed
  rw [Outcome.andThen_of_ok h]
  simp only [receive, hfed, Fed.after_session, Fed.after_inbox, Fed.after_result,
    Fed.after_events, Fed.after_notices]

theorem receive_append_of_error {b₁ : Bytes} {e : ConnectionError}
    (h : (c.receive b₁).result = .error e) (b₂ : Bytes) :
    c.receive (b₁ ++ b₂) = (c.receive b₁).leaving b₂ := by
  have hfed : c.session.feed (c.inbox.append (b₁ ++ b₂)) =
      (c.session.feed (c.inbox.append b₁)).resume b₂ := by
    rw [← Inbox.append_append, Session.feed_append]
  rw [Fed.resume_of_error h] at hfed
  simp only [receive, hfed, Outcome.leaving]

/-! ## Any number of cuts -/

/-- Receiving pieces is receiving the whole stream, if there is a piece at all. -/
theorem receive_flatten (c : Connection) (first : Bytes) (rest : List Bytes) :
    c.receive (first :: rest).flatten =
      (c.receiveAll (first :: rest)).outcome.leaving (c.receiveAll (first :: rest)).unread := by
  rw [List.flatten_cons]
  induction rest generalizing c first with
  | nil =>
    cases h : (c.receive first).result with
    | error e => rw [receiveAll_of_error h, receive_append_of_error h]
    | ok u =>
      rw [receiveAll_of_ok h, List.flatten_nil, List.append_nil]
      simp only [receiveAll, Outcome.leaving_nil, Outcome.andThen_unchanged]
  | cons b rest ih =>
    cases h : (c.receive first).result with
    | error e => rw [receiveAll_of_error h, receive_append_of_error h]
    | ok u =>
      rw [receiveAll_of_ok h, receive_append_of_ok h, Outcome.andThen_of_ok h, List.flatten_cons,
        ih (c.receive first).connection b, Outcome.andThen_of_ok h]
      rfl

/-- **It makes no difference where a stream is cut.** After a call that succeeds, the next one
goes on as if its bytes had come with the first; after a call that fails, more bytes would only have
waited at the end of the inbox. So every way of cutting a stream into pieces, empty ones included,
has the outcome of receiving it at once: the same connection, result, events and notices. -/
theorem receive_independent_of_cuts (c : Connection) :
    (∀ b₁ b₂, (c.receive b₁).result = .ok () →
      c.receive (b₁ ++ b₂) = (c.receive b₁).andThen fun _ c' => c'.receive b₂) ∧
    (∀ b₁ b₂ e, (c.receive b₁).result = .error e →
      c.receive (b₁ ++ b₂) = (c.receive b₁).leaving b₂) ∧
    ∀ first rest, c.receive (first :: rest).flatten =
      (c.receiveAll (first :: rest)).outcome.leaving (c.receiveAll (first :: rest)).unread :=
  ⟨fun _ b₂ h => receive_append_of_ok h b₂, fun _ b₂ _ h => receive_append_of_error h b₂,
    fun first rest => c.receive_flatten first rest⟩

end Connection

end PeerCrawl
