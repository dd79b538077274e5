import PeerCrawl.Proofs.MessageStream

set_option autoImplicit false

/-! # Scripts

A peer whose messages are known beforehand follows a script. Whatever part of the script has
arrived, it is some messages and the start of the next one (`Message.begins_of_prefix_stream`), and
bytes that arrive next take the session from one such point of the script to a later one
(`Session.feed_script`). -/

namespace PeerCrawl

namespace Message

variable {magic : Magic} {ms done todo : List Message} {start : Bytes}

/-! ## Points of a script -/

/-- What has arrived of the messages to come: the start of the first one, and not all of it. -/
def Begins (magic : Magic) : List Message → Bytes → Prop
  | [], start => start = []
  | m :: _, start => start <+: m.frame magic ∧ start ≠ m.frame magic

theorem begins_nil (magic : Magic) (ms : List Message) : Begins magic ms [] := by
  cases ms with
  | nil => rfl
  | cons m ms => exact ⟨List.nil_prefix, (frame_ne_nil magic m).symm⟩

theorem stream_nil (magic : Magic) : stream magic [] = [] := rfl

theorem eq_nil_of_stream (h : stream magic ms = []) : ms = [] := by
  cases ms with
  | nil => rfl
  | cons m ms =>
    rw [stream_cons] at h
    exact absurd (List.append_eq_nil_iff.1 h).1 (frame_ne_nil magic m)

/-- A part of a stream ends inside one of its messages, or between two of them. -/
theorem begins_of_prefix_stream {bytes : Bytes} (h : bytes <+: stream magic ms) :
    ∃ done todo start, ms = done ++ todo ∧ bytes = stream magic done ++ start ∧
      Begins magic todo start := by
  induction ms generalizing bytes with
  | nil =>
    have hnil : bytes = [] := List.prefix_nil.1 h
    exact ⟨[], [], [], rfl, hnil, rfl⟩
  | cons m ms ih =>
    rw [stream_cons] at h
    by_cases hlt : bytes.length < (m.frame magic).length
    · refine ⟨[], m :: ms, bytes, rfl, rfl, ?_, ?_⟩
      · exact List.prefix_of_prefix_length_le h (List.prefix_append _ _) (Nat.le_of_lt hlt)
      · intro heq
        rw [heq] at hlt
        exact Nat.lt_irrefl _ hlt
    · obtain ⟨rest, rfl⟩ := List.prefix_of_prefix_length_le (List.prefix_append _ _) h
        (Nat.not_lt.1 hlt)
      rw [List.prefix_append_right_inj] at h
      obtain ⟨done, todo, start, rfl, rfl, hbegins⟩ := ih h
      exact ⟨m :: done, todo, start, rfl, by rw [stream_cons, List.append_assoc], hbegins⟩

/-- Messages of a script that make up all that has arrived are those that are complete. -/
theorem eq_of_stream_eq {said : List Message} (hbegins : Begins magic todo start)
    (hsaid : said <+: done ++ todo) (h : stream magic done ++ start = stream magic said) :
    said = done := by
  rcases List.prefix_or_prefix_of_prefix hsaid (List.prefix_append done todo) with hle | hle
  · obtain ⟨more, rfl⟩ := hle
    rw [stream_append, List.append_assoc, List.append_right_eq_self] at h
    rw [eq_nil_of_stream (List.append_eq_nil_iff.1 h).1, List.append_nil]
  · obtain ⟨more, rfl⟩ := hle
    rw [stream_append, List.append_cancel_left_eq] at h
    rw [List.prefix_append_right_inj] at hsaid
    cases more with
    | nil => exact List.append_nil done
    | cons m more =>
      -- then all of the next message would have arrived
      obtain ⟨rest, rfl⟩ := hsaid
      obtain ⟨hstart, hne⟩ := hbegins
      rw [h, stream_cons] at hstart hne
      have hle := hstart.length_le
      rw [List.length_append] at hle
      have hnil : stream magic more = [] := List.length_eq_zero_iff.1 (by omega)
      exact absurd (by rw [hnil, List.append_nil]) hne

/-! ## Messages that are understood at any version -/

theorem decodeInTurn_of_decodes (h : ∀ m ∈ ms, ∀ v, m.Decodes v) (v : ProtocolVersion) :
    DecodeInTurn v ms := by
  induction ms generalizing v with
  | nil => trivial
  | cons m ms ih =>
    exact ⟨h m List.mem_cons_self v, ih (fun m' hm => h m' (List.mem_cons_of_mem m hm)) _⟩

theorem eventsOf_append (peer : Address) (v : ProtocolVersion) (ms₁ ms₂ : List Message) :
    eventsOf peer v (ms₁ ++ ms₂) =
      eventsOf peer v ms₁ ++ eventsOf peer (ms₁.foldl (fun v m => m.versionAfter v) v) ms₂ := by
  induction ms₁ generalizing v with
  | nil => rfl
  | cons m ms ih =>
    rw [List.cons_append, eventsOf, ih, eventsOf, List.append_assoc, List.foldl_cons]

end Message

/-- The inbox at a point of a script. -/
def Inbox.awaiting (magic : Magic) : List Message → Bytes → Inbox
  | [], _ => {}
  | m :: _, start => waiting magic m start

theorem Inbox.awaiting_nil (magic : Magic) (todo : List Message) : awaiting magic todo [] = {} := by
  cases todo <;> rfl

namespace Session

variable {s : Session} {todo : List Message} {start : Bytes}

/-! ## Feeding what comes next -/

theorem streamVersion_heard_all (s : Session) (ms : List Message) :
    (s.heard ms).streamVersion = ms.foldl (fun v m => m.versionAfter v) s.streamVersion := by
  induction ms generalizing s with
  | nil => rw [heard_nil]; rfl
  | cons m ms ih =>
    rw [← List.singleton_append, heard_append, ih, streamVersion_heard]
    rfl

theorem feed_begins (hms : ∀ m ∈ todo, m.Sendable) (h : Message.Begins s.config.magic todo start) :
    s.feed { buffer := start } =
      { session := s, inbox := Inbox.awaiting s.config.magic todo start } := by
  cases todo with
  | nil =>
    rw [show start = [] from h, feed_of_incomplete (Inbox.next_of_lt rfl (by decide))]
    rfl
  | cons m ms => exact feed_start (hms m List.mem_cons_self) h.1 h.2

/-- What waits is read again together with what arrives. -/
theorem feed_awaiting (hms : ∀ m ∈ todo, m.Sendable)
    (h : Message.Begins s.config.magic todo start) (bytes : Bytes) :
    s.feed ((Inbox.awaiting s.config.magic todo start).append bytes) =
      s.feed { buffer := start ++ bytes } := by
  have happend : s.feed { buffer := start ++ bytes } = (s.feed { buffer := start }).resume bytes :=
    s.feed_append { buffer := start } bytes
  rw [happend, feed_begins hms h, Fed.resume_of_ok rfl, Fed.after_nil]

/-- More bytes of a script complete some of the messages to come, and start the next one. -/
theorem feed_script (hms : ∀ m ∈ todo, m.Sendable ∧ ∀ v, m.Decodes v)
    (h : Message.Begins s.config.magic todo start) {bytes : Bytes}
    (hbytes : start ++ bytes <+: Message.stream s.config.magic todo) :
    ∃ done rest start' notices, todo = done ++ rest ∧
      start ++ bytes = Message.stream s.config.magic done ++ start' ∧
      Message.Begins s.config.magic rest start' ∧
      s.feed ((Inbox.awaiting s.config.magic todo start).append bytes) =
        { session := s.heard done
          inbox := Inbox.awaiting s.config.magic rest start'
          events := Message.eventsOf s.peer s.streamVersion done
          notices } := by
  have hsend : ∀ m ∈ todo, m.Sendable := fun m hm => (hms m hm).1
  obtain ⟨done, rest, start', htodo, hcut, hbegins⟩ := Message.begins_of_prefix_stream hbytes
  have hdone : ∀ m ∈ done, m ∈ todo := fun m hm => by rw [htodo]; exact List.mem_append_left _ hm
  have hrest : ∀ m ∈ rest, m ∈ todo := fun m hm => by rw [htodo]; exact List.mem_append_right _ hm
  obtain ⟨notices, hfed⟩ := feed_stream (s := s) (fun m hm => hsend m (hdone m hm))
    (Message.decodeInTurn_of_decodes (fun m hm => (hms m (hdone m hm)).2) _) start'
  have hlast := feed_begins (s := s.heard done) (fun m hm => hsend m (hrest m hm)) hbegins
  refine ⟨done, rest, start', notices, htodo, hcut, hbegins, ?_⟩
  rw [feed_awaiting hsend h, hcut, hfed, hlast]
  simp only [Fed.after, List.append_nil, config_heard]

end Session

end PeerCrawl
