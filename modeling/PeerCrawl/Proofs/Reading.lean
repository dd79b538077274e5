import PeerCrawl.Proofs.InboxBounds
import PeerCrawl.Proofs.MessageStream

set_option autoImplicit false

/-! # Reading until the socket would block

A readable socket is read piece by piece (`Socket.pieces`), and each piece is received. Unless a
piece is refused, this is receiving all that the socket serves at once, and the result is how the
reading ends (`Connection.onReadable_of_received`); a piece that is refused is the last one that is
read (`Connection.onReadable_of_refused`). Hence reading refines receiving
(`Connection.onReadable_refines_receive`). -/

namespace PeerCrawl

namespace Arrival

/-! ## What a socket serves -/

/-- The bytes that reads will get, up to the first read that has none to give. -/
def served : List Arrival → Bytes
  | data (b :: bs) :: rest => (b :: bs) ++ served rest
  | failed .interrupted :: rest => served rest
  | _ => []

/-- How that read ends the reading. -/
def ending : List Arrival → Except ConnectionError Unit
  | data (_ :: _) :: rest => ending rest
  | failed .interrupted :: rest => ending rest
  | [] | failed .wouldBlock :: _ => .ok ()
  | data [] :: _ | eof :: _ => .error .peerClosed
  | failed e :: _ => .error (.io e)

/-- What is left for later. -/
def unserved : List Arrival → List Arrival
  | data (_ :: _) :: rest => unserved rest
  | failed .interrupted :: rest => unserved rest
  | [] => []
  | _ :: rest => rest

/-- Bytes that arrive are served, and do not end the reading. -/
theorem of_data {bytes : Bytes} (h : bytes ≠ []) (rest : List Arrival) :
    served (data bytes :: rest) = bytes ++ served rest ∧
      ending (data bytes :: rest) = ending rest ∧
      unserved (data bytes :: rest) = unserved rest := by
  cases bytes with
  | nil => exact absurd rfl h
  | cons b bs => exact ⟨rfl, rfl, rfl⟩

theorem of_failed {e : IoError} (he : e ≠ .interrupted) (rest : List Arrival) :
    served (failed e :: rest) = [] ∧
      ending (failed e :: rest) = (if e = .wouldBlock then .ok () else .error (.io e)) ∧
      unserved (failed e :: rest) = rest := by
  cases e <;> simp_all [served, ending, unserved]

end Arrival

namespace Socket

variable {s s' s'' : Socket} {bytes bytes' : Bytes}

/-- The socket once the reading has ended. -/
def drained (s : Socket) : Socket := { s with arrivals := Arrival.unserved s.arrivals }

/-- Reads have got the bytes from a socket, and the reading goes on. -/
structure Reads (s : Socket) (bytes : Bytes) (s' : Socket) : Prop where
  served : Arrival.served s.arrivals = bytes ++ Arrival.served s'.arrivals
  ending : Arrival.ending s'.arrivals = Arrival.ending s.arrivals
  drained : s'.drained = s.drained

/-- A read has ended the reading. -/
structure Stops (s : Socket) (result : Except ConnectionError Unit) (s' : Socket) : Prop where
  served : Arrival.served s.arrivals = []
  ending : Arrival.ending s.arrivals = result
  drained : s.drained = s'

theorem Reads.trans (h : s.Reads bytes s') (h' : s'.Reads bytes' s'') :
    s.Reads (bytes ++ bytes') s'' where
  served := by rw [h.served, h'.served, List.append_assoc]
  ending := h'.ending.trans h.ending
  drained := h'.drained.trans h.drained

/-! ## One read -/

theorem reads_of_bytes {b : UInt8} {bs : Bytes}
    (h : s.read Connection.readLimit = (.ok (b :: bs), s')) :
    s.Reads (b :: bs) s' ∧ (b :: bs).length ≤ Connection.readLimit := by
  unfold read at h
  split at h
  · simp at h
  · simp at h
  · simp at h
  · next piece rest ha =>
    split at h <;> simp only [Prod.mk.injEq, Except.ok.injEq] at h
    · next hle =>
      obtain ⟨rfl, rfl⟩ := h
      exact ⟨⟨by rw [ha]; rfl, by rw [ha]; rfl, by rw [drained, drained, ha]; rfl⟩, hle⟩
    · next hlt =>
      -- the rest of a long piece stays in front
      obtain ⟨htake, rfl⟩ := h
      have hpiece : piece ≠ [] := by
        rintro rfl
        exact absurd htake (by simp)
      have hleft : piece.drop Connection.readLimit ≠ [] := by
        rw [Ne, List.drop_eq_nil_iff]
        exact hlt
      obtain ⟨hserved, hending, hunserved⟩ := Arrival.of_data hpiece rest
      obtain ⟨hserved', hending', hunserved'⟩ := Arrival.of_data hleft rest
      refine ⟨⟨?_, ?_, ?_⟩, ?_⟩
      · rw [ha, hserved, hserved', ← htake, ← List.append_assoc, List.take_append_drop]
      · rw [ha, hending, hending']
      · simp only [drained, ha, hunserved, hunserved']
      · rw [← htake]
        exact List.length_take_le _ _

theorem reads_of_interrupted (h : s.read Connection.readLimit = (.error .interrupted, s')) :
    s.Reads [] s' := by
  unfold read at h
  split at h
  · simp at h
  · simp at h
  · next e rest ha =>
    simp only [Prod.mk.injEq, Except.error.injEq] at h
    obtain ⟨rfl, rfl⟩ := h
    exact ⟨by rw [ha]; rfl, by rw [ha]; rfl, by rw [drained, drained, ha]; rfl⟩
  · split at h <;> simp at h

theorem stops_of_closed (h : s.read Connection.readLimit = (.ok [], s')) :
    s.Stops (.error .peerClosed) s' := by
  unfold read at h
  split at h
  · simp at h
  · next rest ha =>
    simp only [Prod.mk.injEq, true_and] at h
    subst h
    exact ⟨by rw [ha]; rfl, by rw [ha]; rfl, by rw [drained, ha]; rfl⟩
  · simp at h
  · next piece rest ha =>
    split at h <;> simp only [Prod.mk.injEq, Except.ok.injEq] at h
    · obtain ⟨rfl, rfl⟩ := h
      exact ⟨by rw [ha]; rfl, by rw [ha]; rfl, by rw [drained, ha]; rfl⟩
    · next hlt =>
      have hlen := congrArg List.length h.1
      rw [List.length_take, Connection.readLimit, List.length_nil] at hlen
      rw [Connection.readLimit] at hlt
      omega

theorem stops_of_error {e : IoError} (h : s.read Connection.readLimit = (.error e, s'))
    (he : e ≠ .interrupted) :
    s.Stops (if e = .wouldBlock then .ok () else .error (.io e)) s' := by
  unfold read at h
  split at h
  · next ha =>
    simp only [Prod.mk.injEq, Except.error.injEq] at h
    obtain ⟨rfl, rfl⟩ := h
    refine ⟨by rw [ha]; rfl, by rw [ha]; rfl, ?_⟩
    cases s
    subst ha
    rfl
  · simp at h
  · next e' rest ha =>
    simp only [Prod.mk.injEq, Except.error.injEq] at h
    obtain ⟨rfl, rfl⟩ := h
    obtain ⟨hserved, hending, hunserved⟩ := Arrival.of_failed he rest
    exact ⟨by rw [ha, hserved], by rw [ha, hending], by rw [drained, ha, hunserved]⟩
  · split at h <;> simp at h

/-! ## Pieces -/

/-- The bytes that reads will get, read by read. -/
def pieces (s : Socket) : List Bytes :=
  match _h : s.read Connection.readLimit with
  | (.ok (b :: bs), s') => (b :: bs) :: s'.pieces
  | (.error .interrupted, s') => s'.pieces
  | _ => []
termination_by s.unread
decreasing_by
  · exact unread_read_lt (by decide) _h (by simp)
  · exact unread_read_lt (by decide) _h (by simp)

theorem pieces_of_bytes {b : UInt8} {bs : Bytes}
    (h : s.read Connection.readLimit = (.ok (b :: bs), s')) :
    s.pieces = (b :: bs) :: s'.pieces := by
  rw [pieces]
  split <;> simp_all

theorem pieces_of_interrupted (h : s.read Connection.readLimit = (.error .interrupted, s')) :
    s.pieces = s'.pieces := by
  rw [pieces]
  split <;> simp_all

theorem pieces_of_closed (h : s.read Connection.readLimit = (.ok [], s')) : s.pieces = [] := by
  rw [pieces]
  split <;> simp_all

theorem pieces_of_error {e : IoError} (h : s.read Connection.readLimit = (.error e, s'))
    (he : e ≠ .interrupted) : s.pieces = [] := by
  rw [pieces]
  split <;> simp_all

/-- The pieces are all that is served, and none of them is empty or longer than a read. -/
theorem pieces_served (s : Socket) :
    s.pieces.flatten = Arrival.served s.arrivals ∧
      ∀ piece ∈ s.pieces, piece ≠ [] ∧ piece.length ≤ Connection.readLimit := by
  fun_induction pieces s with
  | case1 s b bs s' h ih =>
    obtain ⟨hreads, hle⟩ := reads_of_bytes h
    obtain ⟨hserved, hpieces⟩ := ih
    rw [List.flatten_cons, hserved, hreads.served]
    exact ⟨rfl, List.forall_mem_cons.2 ⟨⟨List.cons_ne_nil b bs, hle⟩, hpieces⟩⟩
  | case2 s s' h ih =>
    rw [(reads_of_interrupted h).served]
    exact ih
  | case3 s hbytes hinterrupted =>
    have hnone : Arrival.served s.arrivals = [] := by
      rcases h : s.read Connection.readLimit with ⟨_ | (_ | ⟨b, bs⟩), s'⟩
      · exact (stops_of_error h fun he => hinterrupted s' (he ▸ h)).served
      · exact (stops_of_closed h).served
      · exact absurd h (hbytes b bs s')
    rw [hnone]
    exact ⟨rfl, by simp⟩

end Socket

/-! ## Feeding -/

/-- A feed that nothing stops leaves nothing complete. -/
theorem Session.next_feed {s : Session} {i : Inbox} (h : (s.feed i).result = .ok ()) :
    (s.feed i).inbox.next (s.feed i).session.config.magic =
      .incomplete (s.feed i).inbox.header := by
  fun_induction feed s i with
  | case1 s i header hn =>
    have hsame := Inbox.next_append_of_incomplete hn []
    rw [Inbox.append_nil, Inbox.append_nil] at hsame
    exact hsame.trans hn
  | case2 s i e hn => cases h
  | case3 s i header payload rest hn e he => cases h
  | case4 s i header payload rest hn r hr ih => exact ih h

/-! ## Reading is receiving -/

/-- The same outcome with another socket. -/
def Outcome.over {α : Type} (o : Outcome α) (socket : Socket) : Outcome α :=
  { o with connection := { o.connection with socket } }

namespace Connection

variable {c c' : Connection} {e : ConnectionError}

/-- Receiving leaves the socket alone. -/
theorem receive_over (c : Connection) (socket : Socket) (bytes : Bytes) :
    receive { c with socket } bytes = (c.receive bytes).over socket := rfl

theorem receiveAll_over (c : Connection) (socket : Socket) (pieces : List Bytes) :
    receiveAll { c with socket } pieces =
      { c.receiveAll pieces with outcome := (c.receiveAll pieces).outcome.over socket } := by
  induction pieces generalizing c with
  | nil => rfl
  | cons piece pieces ih =>
    have hover := receive_over c socket piece
    cases h : (c.receive piece).result with
    | error e =>
      rw [receiveAll_of_error h, receiveAll_of_error (by rw [hover]; exact h), hover]
    | ok u =>
      have h' : (receive { c with socket } piece).result = .ok () := by rw [hover]; exact h
      rw [receiveAll_of_ok h, receiveAll_of_ok h', hover, Outcome.andThen_of_ok h,
        Outcome.andThen_of_ok (o := (c.receive piece).over socket) h]
      have hlater := ih (c.receive piece).connection
      simp only [Outcome.over, hlater]

/-- If no piece is refused, all of them are received, and the result is how the reading ends. -/
theorem onReadable_of_received (h : (c.receiveAll c.socket.pieces).outcome.result = .ok ()) :
    c.onReadable = { (c.receiveAll c.socket.pieces).outcome.over c.socket.drained with
      result := Arrival.ending c.socket.arrivals } := by
  fun_induction onReadable c with
  | case1 c socket hread =>
    have hstops := Socket.stops_of_closed hread
    rw [Socket.pieces_of_closed hread, hstops.ending, hstops.drained]
    rfl
  | case2 c b bs socket hread fed c' e he =>
    rw [Socket.pieces_of_bytes hread, receiveAll_of_error he] at h
    cases he.symm.trans h
  | case3 c b bs socket hread fed c' he later ih =>
    obtain ⟨hreads, -⟩ := Socket.reads_of_bytes hread
    have hc' : c'.receiveAll socket.pieces = _ :=
      receiveAll_over (c.receive (b :: bs)).connection socket socket.pieces
    rw [Socket.pieces_of_bytes hread, receiveAll_of_ok he, Outcome.andThen_of_ok he] at h ⊢
    have hlater : later = _ := ih (by rw [hc']; exact h)
    rw [hlater, hc', hreads.ending, hreads.drained]
    rfl
  | case4 c socket hread =>
    have hstops := Socket.stops_of_error hread (by decide)
    rw [Socket.pieces_of_error hread (by decide), hstops.ending, hstops.drained]
    rfl
  | case5 c socket hread ih =>
    have hreads := Socket.reads_of_interrupted hread
    rw [Socket.pieces_of_interrupted hread, ← hreads.ending, ← hreads.drained]
    have hover := receiveAll_over c socket socket.pieces
    rw [Socket.pieces_of_interrupted hread] at h
    rw [ih (by rw [hover]; exact h), hover]
    rfl
  | case6 c e socket hblock hinterrupted hread =>
    have hstops := Socket.stops_of_error hread hinterrupted
    rw [Socket.pieces_of_error hread hinterrupted, hstops.ending, hstops.drained,
      if_neg hblock]
    rfl

/-! ## Settled connections -/

/-- Nothing complete waits in the inbox. -/
def Settled (c : Connection) : Prop :=
  c.inbox.next c.session.config.magic = .incomplete c.inbox.header

theorem Settled.heardAlike (h : c.HeardAlike c') (hc : c.Settled) : c'.Settled := by
  rw [Settled, h.session, h.inbox]
  exact hc

theorem Settled.receive_nil (hc : c.Settled) : c.receive [] = .unchanged c () := by
  rw [receive, Inbox.append_nil, Session.feed_of_incomplete hc]
  rfl

/-- Once bytes are received, nothing complete is left. -/
theorem settled_receive {bytes : Bytes} (h : (c.receive bytes).result = .ok ()) :
    (c.receive bytes).connection.Settled :=
  Session.next_feed h

/-- Receiving pieces is receiving the whole stream, also if there is no piece. -/
theorem receive_pieces {pieces : List Bytes} (hc : pieces = [] → c.Settled) :
    c.receive pieces.flatten =
      (c.receiveAll pieces).outcome.leaving (c.receiveAll pieces).unread := by
  cases pieces with
  | nil => rw [List.flatten_nil, (hc rfl).receive_nil, receiveAll, Outcome.leaving_nil]
  | cons first rest => exact c.receive_flatten first rest

/-- If all pieces are received, they might as well have come at once. -/
theorem receive_pieces_of_ok {pieces : List Bytes} (hc : pieces = [] → c.Settled)
    (h : (c.receiveAll pieces).outcome.result = .ok ()) :
    c.receive pieces.flatten = (c.receiveAll pieces).outcome := by
  rw [receive_pieces hc, unread_of_ok h, Outcome.leaving_nil]

/-! ## Pieces that are refused -/

/-- A piece is refused, and the ones before it, if any, are not. What has arrived behind that piece
is still in the socket. -/
structure RefusedAt (c : Connection) (e : ConnectionError) (before : List Bytes) (piece : Bytes)
    (socket : Socket) : Prop where
  pieces : c.socket.pieces = before ++ piece :: socket.pieces
  received : before ≠ [] → (c.receive before.flatten).result = .ok ()
  refused : (c.receive (before.flatten ++ piece)).result = .error e
  reads : c.socket.Reads (before.flatten ++ piece) socket

/-- If a piece is refused, the reading ends there. -/
theorem onReadable_of_refused
    (h : (c.receiveAll c.socket.pieces).outcome.result = .error e) :
    ∃ before piece socket, c.RefusedAt e before piece socket ∧
      c.onReadable = (c.receive (before.flatten ++ piece)).over socket := by
  fun_induction onReadable c with
  | case1 c socket hread =>
    rw [Socket.pieces_of_closed hread] at h
    cases h
  | case2 c b bs socket hread fed c' e' he =>
    obtain ⟨hreads, -⟩ := Socket.reads_of_bytes hread
    rw [Socket.pieces_of_bytes hread, receiveAll_of_error he] at h
    obtain rfl : e' = e := Except.error.inj (he.symm.trans h)
    have hpiece : (c.receive (b :: bs)).over socket = {
        connection := c', result := .error e', events := fed.events
        notices := fed.notices } := by
      rw [← he]
      rfl
    exact ⟨[], b :: bs, socket, ⟨Socket.pieces_of_bytes hread, absurd rfl, h, hreads⟩, hpiece.symm⟩
  | case3 c b bs socket hread fed c' he later ih =>
    obtain ⟨hreads, -⟩ := Socket.reads_of_bytes hread
    have hc' : c'.receiveAll socket.pieces = _ :=
      receiveAll_over (c.receive (b :: bs)).connection socket socket.pieces
    rw [Socket.pieces_of_bytes hread, receiveAll_of_ok he, Outcome.andThen_of_ok he] at h
    obtain ⟨before, piece, socket', hrefused, hlater⟩ := ih (by rw [hc']; exact h)
    have hmore : ∀ bytes, c.receive ((b :: bs) ++ bytes) = _ := receive_append_of_ok he
    have hlast : ∀ bytes, (c.receive ((b :: bs) ++ bytes)).result = (c'.receive bytes).result := by
      intro bytes
      rw [hmore, Outcome.andThen_of_ok he]
      rfl
    refine ⟨(b :: bs) :: before, piece, socket', ⟨?_, ?_, ?_, ?_⟩, ?_⟩
    · rw [Socket.pieces_of_bytes hread, List.cons_append]
      exact congrArg _ hrefused.pieces
    · intro _
      rw [List.flatten_cons]
      by_cases hfirst : before = []
      · rw [hfirst, List.flatten_nil, List.append_nil]
        exact he
      · rw [hlast]
        exact hrefused.received hfirst
    · rw [List.flatten_cons, List.append_assoc, hlast]
      exact hrefused.refused
    · rw [List.flatten_cons, List.append_assoc]
      exact hreads.trans hrefused.reads
    · have hlater' : later = _ := hlater
      rw [List.flatten_cons, List.append_assoc, hmore, Outcome.andThen_of_ok he, hlater']
      rfl
  | case4 c socket hread =>
    rw [Socket.pieces_of_error hread (by decide)] at h
    cases h
  | case5 c socket hread ih =>
    have hreads := Socket.reads_of_interrupted hread
    have hover := receiveAll_over c socket socket.pieces
    rw [Socket.pieces_of_interrupted hread] at h
    obtain ⟨before, piece, socket', hrefused, hlater⟩ := ih (by rw [hover]; exact h)
    refine ⟨before, piece, socket', ⟨?_, hrefused.received, hrefused.refused, ?_⟩, hlater⟩
    · rw [Socket.pieces_of_interrupted hread]
      exact hrefused.pieces
    · exact hreads.trans hrefused.reads
  | case6 c e' socket hblock hinterrupted hread =>
    rw [Socket.pieces_of_error hread hinterrupted] at h
    cases h

/-- If anything is served, reading tells what receiving it tells. -/
theorem events_onReadable_of_served (h : Arrival.served c.socket.arrivals ≠ []) :
    c.onReadable.events = (c.receive (Arrival.served c.socket.arrivals)).events := by
  obtain ⟨hflat, -⟩ := c.socket.pieces_served
  have hpieces : c.socket.pieces ≠ [] := by
    intro hnil
    rw [hnil] at hflat
    exact h hflat.symm
  cases hall : (c.receiveAll c.socket.pieces).outcome.result with
  | ok u =>
    rw [onReadable_of_received hall, ← hflat,
      receive_pieces_of_ok (fun hnil => absurd hnil hpieces) hall]
    rfl
  | error e =>
    obtain ⟨before, piece, socket, hrefused, hreadable⟩ := onReadable_of_refused hall
    rw [hreadable, hrefused.reads.served, receive_append_of_error hrefused.refused]
    rfl

/-! ## Runs -/

/-- How the last receive of an operation ends, if bytes are received at all. -/
def lastReceive? (c : Connection) : Operation → Option (Except ConnectionError Unit)
  | .receive bytes => some (c.receive bytes).result
  | .readable =>
    if c.socket.pieces = [] then none else some (c.receiveAll c.socket.pieces).outcome.result
  | _ => none

/-- How the last receive of a run ends, if bytes are received at all. -/
def lastReceiveOf? (c : Connection) : List Operation → Option (Except ConnectionError Unit)
  | [] => none
  | op :: ops => ((c.perform op).connection.lastReceiveOf? ops).or (c.lastReceive? op)

/-- An operation leaves nothing complete, unless the last bytes that it receives are refused. -/
theorem settled_perform {op : Operation} (h : ∀ e, c.lastReceive? op ≠ some (.error e))
    (hc : c.lastReceive? op = none → c.Settled) : (c.perform op).connection.Settled := by
  cases op with
  | markConnecting => exact (hc rfl).heardAlike c.markConnecting_heardAlike
  | established => exact (hc rfl).heardAlike c.established_silent.alike
  | writable => exact (hc rfl).heardAlike c.onWritable_silent.alike
  | flush => exact (hc rfl).heardAlike c.flush_silent.alike
  | error | socket change => exact (hc rfl).heardAlike (c.heardAlike_socket _)
  | receive bytes =>
    cases hok : (c.receive bytes).result with
    | error e => exact absurd (congrArg some hok) (h e)
    | ok u => exact settled_receive hok
  | readable =>
    have hnone : c.socket.pieces = [] → c.Settled := fun hp => hc (if_pos hp)
    have hok : (c.receiveAll c.socket.pieces).outcome.result = .ok () := by
      cases hr : (c.receiveAll c.socket.pieces).outcome.result with
      | ok u => rfl
      | error e =>
        have hp : c.socket.pieces ≠ [] := fun hp => by
          rw [hp] at hr
          cases hr
        exact absurd ((if_neg hp).trans (congrArg some hr)) (h e)
    have hflat := receive_pieces_of_ok hnone hok
    show c.onReadable.connection.Settled
    rw [onReadable_of_received hok, ← hflat]
    exact (settled_receive (by rw [hflat]; exact hok)).heardAlike (heardAlike_socket _ _)

theorem settled_performAll {ops : List Operation} (h : ∀ e, c.lastReceiveOf? ops ≠ some (.error e))
    (hc : c.lastReceiveOf? ops = none → c.Settled) : (c.performAll ops).connection.Settled := by
  induction ops generalizing c with
  | nil => exact hc rfl
  | cons op ops ih =>
    rw [connection_performAll_cons]
    cases hlater : (c.perform op).connection.lastReceiveOf? ops with
    | some r =>
      -- what the operation receives is not the last
      have hlast : c.lastReceiveOf? (op :: ops) = some r := by rw [lastReceiveOf?, hlater]; rfl
      exact ih (fun e => by rw [hlater, ← hlast]; exact h e)
        (fun hnone => absurd (hlater.symm.trans hnone) nofun)
    | none =>
      have hlast : c.lastReceiveOf? (op :: ops) = c.lastReceive? op := by
        rw [lastReceiveOf?, hlater]; rfl
      rw [hlast] at h hc
      exact ih (fun e => by rw [hlater]; exact nofun) (fun _ => settled_perform h hc)

/-- **Reading refines receiving.** Let the last bytes that a connection received, if any, not have
been refused, and let its socket serve some bytes before the first read that would block, finds the
end of the stream or fails in another way. The socket serves them in pieces that are not empty and
not longer than a read, whatever their number and whatever interrupts the reads.

* If all those bytes can be received at once, reading leaves behind what that leaves, and its result
  is how the reads end.
* If they are refused when received at once, reading fails with the same error, the same events, and
  the same connection, but for the bytes of the peer that nothing has looked at: those behind the
  first piece that is refused, after those before it, stay in the socket. -/
theorem onReadable_refines_receive (socket : Socket) (peer : Address) (config : Configuration)
    (ops : List Operation)
    (h : ∀ e, (ofSocket socket peer config).lastReceiveOf? ops ≠ some (.error e)) :
    let c := ((ofSocket socket peer config).performAll ops).connection
    let served := Arrival.served c.socket.arrivals
    c.socket.pieces.flatten = served ∧
      (∀ piece ∈ c.socket.pieces, piece ≠ [] ∧ piece.length ≤ 16384) ∧
      ((c.receive served).result = .ok () →
        c.onReadable = { (c.receive served).over c.socket.drained with
          result := Arrival.ending c.socket.arrivals }) ∧
      ∀ e, (c.receive served).result = .error e →
        ∃ before piece socket', c.RefusedAt e before piece socket' ∧
          c.onReadable = (c.receive (before.flatten ++ piece)).over socket' ∧
          c.onReadable.result = .error e ∧ c.onReadable.events = (c.receive served).events ∧
          c.onReadable.notices = (c.receive served).notices ∧
          c.onReadable.connection.session = (c.receive served).connection.session ∧
          c.onReadable.connection.inbox.header = (c.receive served).connection.inbox.header := by
  intro c served
  have hc : c.Settled := settled_performAll h fun _ => rfl
  obtain ⟨hflat, hpieces⟩ := c.socket.pieces_served
  have hserved : c.receive served = _ :=
    (congrArg c.receive hflat.symm).trans (receive_pieces fun _ => hc)
  refine ⟨hflat, hpieces, fun hok => ?_, fun e he => ?_⟩
  · have hall : (c.receiveAll c.socket.pieces).outcome.result = .ok () := by
      rw [hserved] at hok
      exact hok
    rw [onReadable_of_received hall, ← receive_pieces_of_ok (fun _ => hc) hall, hflat]
  · have hsome : (c.receiveAll c.socket.pieces).outcome.result = .error e := by
      rw [hserved] at he
      exact he
    obtain ⟨before, piece, socket', hrefused, hreadable⟩ := onReadable_of_refused hsome
    have hmore : c.receive served = _ :=
      (congrArg c.receive hrefused.reads.served).trans
        (receive_append_of_error hrefused.refused (Arrival.served socket'.arrivals))
    refine ⟨before, piece, socket', hrefused, hreadable, ?_⟩
    rw [hreadable, hmore]
    exact ⟨hrefused.refused, rfl, rfl, rfl, rfl⟩

/-- A ping whose first bytes were received, and whose other bytes come in two arrivals, with an
interrupted read between them and the end of the stream behind them. -/
theorem onReadable_refines_receive_ping :
    let config := { Configuration.standard with verifyChecksum := false }
    let header : Header := {
      magic := config.magic, command := Command.ping, payloadLength := 8
      checksum := Octets.zero 4 }
    let stream := header.encode ++ [1, 2, 3, 4, 5, 6, 7, 8]
    let socket : Socket := {
      localEndpoint := .error .notConnected
      arrivals := [.data (stream.drop 7 |>.take 20), .failed .interrupted, .data (stream.drop 27),
        .eof] }
    let ops : List Operation := [.receive (stream.take 7)]
    let c := ((ofSocket socket Address.unspecified config).performAll ops).connection
    (ofSocket socket Address.unspecified config).lastReceiveOf? ops = some (.ok ()) ∧
      c.onReadable = { (c.receive (stream.drop 7)).over c.socket.drained with
        result := .error .peerClosed } := by
  intro config header stream socket ops c
  have hlast : (ofSocket socket Address.unspecified config).lastReceiveOf? ops = some (.ok ()) := by
    decide +kernel
  have hok : (c.receive (stream.drop 7)).result = .ok () := by decide +kernel
  refine ⟨hlast, ?_⟩
  obtain ⟨-, -, hreceived, -⟩ := onReadable_refines_receive socket Address.unspecified config ops
    (fun e => by rw [hlast]; exact nofun)
  exact hreceived hok

end Connection

end PeerCrawl
