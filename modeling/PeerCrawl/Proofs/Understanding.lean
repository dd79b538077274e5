import PeerCrawl.Connection.Basic
import PeerCrawl.Proofs.Framing
import PeerCrawl.Proofs.Messages

set_option autoImplicit false

/-! # Messages that were understood

A feed handles the frames of an inbox up to the first one that is refused. `Session.understood`
lists the messages that it handles, and they are all that matters: the session has heard exactly
these, and what was told is what these tell (`Session.feed_understood`). `Connection.overheard`
lists the messages of all reads that one notification leads to. -/

namespace PeerCrawl

/-! ## One message -/

namespace Message

variable {s : Session} {m : Message} {r : Handled}

theorem exists_versionMessage_of_handleVersion {payload : Bytes}
    (h : s.handleVersion payload = .ok r) :
    ∃ d, (Reader.versionMessage (declaredVersion payload)).value payload = .ok d := by
  simp only [Session.handleVersion, bind, Except.bind] at h
  split at h
  · exact absurd h (by simp)
  · next peeked hpeek =>
    obtain ⟨version, services⟩ := peeked
    obtain ⟨rfl, -⟩ := declared_of_versionPeek hpeek
    split at h
    · exact absurd h (by simp)
    · next d hd => exact ⟨d, hd⟩

theorem length_of_handlePing {payload : Bytes} (h : s.handlePing payload = .ok r) :
    payload = [] ∨ 8 ≤ payload.length := by
  unfold Session.handlePing at h
  split at h
  · next hnil => exact .inl hnil
  · simp only [bind, Except.bind] at h
    split at h
    · exact absurd h (by simp)
    · next nonce hnonce =>
      have hrun : Reader.u64le.run payload = (.ok nonce, (Reader.u64le.run payload).2) :=
        Prod.ext hnonce rfl
      obtain ⟨n, rest, hn, -⟩ := Reader.run_bind_eq_ok hrun
      exact .inr (Reader.run_littleEndian_eq_ok hn).1

theorem exists_addressList_of_handleAddresses {payload : Bytes}
    (h : s.handleAddresses payload = .ok r) :
    ∃ as, (Reader.addressList s.streamVersion).value payload = .ok as := by
  simp only [Session.handleAddresses, bind, Except.bind] at h
  split at h
  · exact absurd h (by simp)
  · next as has => exact ⟨as, has⟩

/-- A message that a session makes something of can be understood. -/
theorem decodes_of_interpret (h : s.interpret m.command m.payload = .ok r) :
    m.Decodes s.streamVersion := by
  refine ⟨?_, ?_, ?_⟩
  · intro hc
    rw [Session.interpret, if_pos hc] at h
    exact exists_versionMessage_of_handleVersion h
  · intro hc
    rw [Session.interpret, if_neg (by rw [hc]; decide), if_neg (by rw [hc]; decide),
      if_pos hc] at h
    exact length_of_handlePing h
  · intro hc
    rw [Session.interpret, if_neg (by rw [hc]; decide), if_neg (by rw [hc]; decide),
      if_neg (by rw [hc]; decide), if_pos hc] at h
    exact exists_addressList_of_handleAddresses h

theorem decodes_of_decodeInTurn {v : ProtocolVersion} {ms : List Message} (h : DecodeInTurn v ms) :
    ∀ m ∈ ms, ∃ v, m.Decodes v := by
  induction ms generalizing v with
  | nil => simp
  | cons m ms ih =>
    intro m' hm'
    rcases List.mem_cons.1 hm' with rfl | hrest
    · exact ⟨v, h.1⟩
    · exact ih h.2 m' hrest

end Message

/-! ## The messages of an inbox -/

namespace Session

/-- A frame that is handled holds a message that can be understood, and changes what that
changes. -/
theorem handle_eq_ok {s : Session} {header : Header} {payload : Bytes} {r : Handled}
    (h : s.handle header payload = .ok r) :
    Message.Decodes ⟨header.command, payload⟩ s.streamVersion ∧
      r.session = s.heard [⟨header.command, payload⟩] ∧
      r.events = Message.events s.peer s.streamVersion ⟨header.command, payload⟩ := by
  unfold handle at h
  split at h
  · exact absurd h (by simp)
  · cases hr : s.interpret header.command payload with
    | error e =>
      rw [hr] at h
      exact absurd h nofun
    | ok r' =>
      rw [hr] at h
      have hdecodes := Message.decodes_of_interpret (m := ⟨header.command, payload⟩) hr
      obtain ⟨notices, hi⟩ := interpret_of_decodes hdecodes
      rw [← Except.ok.inj h, Except.ok.inj (hr.symm.trans hi)]
      exact ⟨hdecodes, rfl, rfl⟩

/-- The messages that an inbox holds, in order, up to the first one that is refused. -/
def understood (s : Session) (inbox : Inbox) : List Message :=
  match _h : inbox.next s.config.magic with
  | .frame header payload rest =>
    match s.handle header payload with
    | .ok r => ⟨header.command, payload⟩ :: r.session.understood { buffer := rest }
    | .error _ => []
  | _ => []
termination_by inbox.buffer.length
decreasing_by exact Inbox.length_rest_lt_of_next _h

/-- A feed comes to the messages that it understands, and to nothing else. -/
theorem feed_understood (s : Session) (inbox : Inbox) :
    (s.feed inbox).session = s.heard (s.understood inbox) ∧
      (s.feed inbox).events = Message.eventsOf s.peer s.streamVersion (s.understood inbox) ∧
      Message.DecodeInTurn s.streamVersion (s.understood inbox) := by
  fun_induction understood s inbox with
  | case1 s inbox header payload rest hn r hr ih =>
    obtain ⟨hdecodes, hsession, hevents⟩ := handle_eq_ok hr
    rw [hsession, peer_heard, streamVersion_heard] at ih
    obtain ⟨hlast, htold, hturn⟩ := ih
    rw [feed_of_handled hn hr, Fed.after_session, Fed.after_events, hsession, hlast, htold,
      hevents, ← heard_append]
    exact ⟨rfl, rfl, hdecodes, hturn⟩
  | case2 s inbox header payload rest hn e he =>
    rw [feed_of_refused hn he, heard_nil]
    exact ⟨rfl, rfl, trivial⟩
  | case3 s inbox hn =>
    cases hnext : inbox.next s.config.magic with
    | incomplete header =>
      rw [feed_of_incomplete hnext, heard_nil]
      exact ⟨rfl, rfl, trivial⟩
    | rejected e =>
      rw [feed_of_rejected hnext, heard_nil]
      exact ⟨rfl, rfl, trivial⟩
    | frame header payload rest => exact absurd hnext (hn header payload rest)

end Session

namespace Connection

/-- The messages that a connection understands while it reads until its socket would block. -/
def overheard (c : Connection) : List Message :=
  match _h : c.socket.read readLimit with
  | (.ok (b :: bs), socket) =>
    let inbox := c.inbox.append (b :: bs)
    let fed := c.session.feed inbox
    c.session.understood inbox ++
      match fed.result with
      | .ok () => { c with socket, session := fed.session, inbox := fed.inbox }.overheard
      | .error _ => []
  | (.error .interrupted, socket) => { c with socket }.overheard
  | _ => []
termination_by c.socket.unread
decreasing_by
  · exact Socket.unread_read_lt (by decide) _h (by simp)
  · exact Socket.unread_read_lt (by decide) _h (by simp)

variable {c : Connection} {socket : Socket}

theorem overheard_of_bytes {b : UInt8} {bs : Bytes}
    (h : c.socket.read readLimit = (.ok (b :: bs), socket)) :
    c.overheard = c.session.understood (c.inbox.append (b :: bs)) ++
      match (c.session.feed (c.inbox.append (b :: bs))).result with
      | .ok () => overheard { c with
          socket
          session := (c.session.feed (c.inbox.append (b :: bs))).session
          inbox := (c.session.feed (c.inbox.append (b :: bs))).inbox }
      | .error _ => [] := by
  rw [overheard]
  split <;> simp_all

theorem overheard_of_interrupted (h : c.socket.read readLimit = (.error .interrupted, socket)) :
    c.overheard = overheard { c with socket } := by
  rw [overheard]
  split <;> simp_all

theorem overheard_of_closed (h : c.socket.read readLimit = (.ok [], socket)) :
    c.overheard = [] := by
  rw [overheard]
  split <;> simp_all

theorem overheard_of_error {e : IoError} (h : c.socket.read readLimit = (.error e, socket))
    (he : e ≠ .interrupted) : c.overheard = [] := by
  rw [overheard]
  split <;> simp_all

end Connection

end PeerCrawl
