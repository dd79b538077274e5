import PeerCrawl.Proofs.ConnectionChanges
import PeerCrawl.Proofs.MessageStream

set_option autoImplicit false

/-! # The outbound stream

What a socket has taken from a connection and what is still queued for it make up whole frames, in
the order in which there was reason to send them (`Connection.Carries`). Replies may be queued while
an earlier frame is half written, and a flush may stop anywhere: every change keeps the stream
whole, so every run does (`Connection.stream_performAll`). -/

namespace PeerCrawl

/-- Messages are queued behind all that is unsent. -/
theorem Outbox.unsent_append_frames {o : Outbox} (h : o.WellFormed) (magic : Magic)
    (ms : List Message) :
    WellFormed { o with frames := o.frames ++ ms.map (Message.frame magic) } ∧
      unsent { o with frames := o.frames ++ ms.map (Message.frame magic) } =
        o.unsent ++ Message.stream magic ms := by
  refine ⟨h.append fun f hf => ?_, ?_⟩
  · obtain ⟨m, -, rfl⟩ := List.mem_map.1 hf
    exact Message.frame_ne_nil magic m
  · rw [unsent_append h, Message.stream, List.flatMap_def]

namespace Connection

variable {c c' : Connection} {causes : List Cause} {before : Bytes} {said : List Message}

/-! ## One change -/

/-- Since the bytes `before`, the connection has sent or queued just these messages, in order. -/
structure Carries (before : Bytes) (c : Connection) (said : List Message) : Prop where
  wellFormed : c.session.outbox.WellFormed
  stream : c.socket.written ++ c.session.outbox.unsent =
    before ++ Message.stream c.session.config.magic said

theorem carries_ofSocket (socket : Socket) (peer : Address) (config : Configuration) :
    Carries socket.written (ofSocket socket peer config) [] where
  wellFormed := Outbox.wellFormed_empty
  stream := rfl

/-- Messages are queued; the socket is left alone. -/
theorem Carries.queued (h : c.Carries before said) {ms : List Message}
    (hwritten : c'.socket.written = c.socket.written)
    (hconfig : c'.session.config = c.session.config)
    (houtbox : c'.session.outbox = { c.session.outbox with
      frames := c.session.outbox.frames ++ ms.map (Message.frame c.session.config.magic) }) :
    c'.Carries before (said ++ ms) := by
  obtain ⟨hwf, hunsent⟩ :=
    Outbox.unsent_append_frames h.wellFormed c.session.config.magic ms
  refine ⟨by rw [houtbox]; exact hwf, ?_⟩
  rw [houtbox, hunsent, hwritten, ← List.append_assoc, h.stream, hconfig, List.append_assoc,
    Message.stream_append]

theorem Carries.flush (h : c.Carries before said) : c.flush.connection.Carries before said := by
  obtain ⟨hwf, taken, hwritten, hunsent⟩ := Outbox.flush_conserves c.socket h.wellFormed
  refine ⟨hwf, ?_⟩
  calc (c.session.outbox.flush c.socket).socket.written ++
        (c.session.outbox.flush c.socket).outbox.unsent
    _ = c.socket.written ++ (taken ++ (c.session.outbox.flush c.socket).outbox.unsent) := by
      rw [hwritten, List.append_assoc]
    _ = before ++ Message.stream c.session.config.magic said := by rw [hunsent, h.stream]

theorem session_introduced (c : Connection) :
    c.introduced.session = { c.session with outbox := { c.session.outbox with
      frames := c.session.outbox.frames ++
        [c.introduction.message].map (Message.frame c.session.config.magic) } } :=
  c.session.queue_eq Command.version (c.introduction.encode c.session.config.protocolVersion)

/-- What a change gives reason to say is queued, and nothing else. -/
theorem Change.carries (h : c.Change causes c') (hc : c.Carries before said) :
    c'.Carries before (said ++ causes.flatMap Cause.said) := by
  cases h with
  | socket socket hwritten =>
    rw [List.flatMap_nil, List.append_nil]
    exact ⟨hc.wellFormed, by rw [← hc.stream, ← hwritten]⟩
  | connecting =>
    rw [List.flatMap_nil, List.append_nil]
    exact ⟨hc.wellFormed, hc.stream⟩
  | established =>
    exact hc.queued rfl (by rw [session_introduced]) (by rw [session_introduced]; rfl)
  | flushed =>
    rw [List.flatMap_nil, List.append_nil]
    exact hc.flush
  | understood ms inbox =>
    rw [List.flatMap_map]
    exact hc.queued rfl rfl rfl

/-! ## Runs -/

theorem Changes.carries (h : c.Changes causes c') (hc : c.Carries before said) :
    c'.Carries before (said ++ causes.flatMap Cause.said) := by
  induction h generalizing said with
  | refl c =>
    rw [List.flatMap_nil, List.append_nil]
    exact hc
  | step h rest ih =>
    rw [List.flatMap_append, ← List.append_assoc]
    exact ih (h.carries hc)

theorem Change.config (h : c.Change causes c') : c'.session.config = c.session.config := by
  cases h with
  | socket | connecting | flushed | understood => rfl
  | established => rw [session_introduced]

theorem Changes.config (h : c.Changes causes c') : c'.session.config = c.session.config :=
  h.keeps (P := fun c' => c'.session.config = c.session.config) (fun h hc => h.config.trans hc) rfl

theorem Change.decodes (h : c.Change causes c') {m : Message} (hm : .understood m ∈ causes) :
    ∃ v, m.Decodes v := by
  cases h with
  | socket | connecting | flushed => exact absurd hm List.not_mem_nil
  | established => exact absurd (List.mem_singleton.1 hm) nofun
  | understood ms inbox hms =>
    obtain ⟨m', hm', heq⟩ := List.mem_map.1 hm
    rw [← Cause.understood.inj heq]
    exact hms m' hm'

theorem Changes.decodes (h : c.Changes causes c') {m : Message} (hm : .understood m ∈ causes) :
    ∃ v, m.Decodes v := by
  induction h with
  | refl c => exact absurd hm List.not_mem_nil
  | step h rest ih =>
    rcases List.mem_append.1 hm with hfirst | hlater
    · exact h.decodes hfirst
    · exact ih hlater

theorem hasPendingWrites_iff (h : c.Carries before said) :
    c.hasPendingWrites = true ↔ c.session.outbox.unsent ≠ [] := by
  rw [hasPendingWrites, Bool.not_eq_true', ← Bool.not_eq_true, Outbox.isEmpty_iff h.wellFormed]

/-- **The outbound stream is whole.** Do anything to a fresh connection, going on after failures,
over a socket that does anything. Then what the socket has taken since, and what is queued after
it, are complete frames, in the order of their causes: our introduction when the transport is
established, which happens at most once; an acknowledgement for each version message that was
understood; and the first eight bytes back for each ping that was understood and is not empty, which
has at least that many. Something is pending just if a part of that stream is still queued. -/
theorem stream_performAll (socket : Socket) (peer : Address) (config : Configuration)
    (ops : List Operation) :
    let start := ofSocket socket peer config
    let c := (start.performAll ops).connection
    let causes := start.causesOf ops
    c.socket.written ++ c.session.outbox.unsent =
        socket.written ++ Message.stream config.magic (causes.flatMap Cause.said) ∧
      (c.hasPendingWrites = true ↔ c.session.outbox.unsent ≠ []) ∧
      (causes.filterMap Cause.introduction?).length = c.isEstablished.toNat ∧
      ∀ m, .understood m ∈ causes → m.command = Command.ping →
        m.payload = [] ∨ 8 ≤ m.payload.length := by
  intro start c causes
  have hchanges : start.Changes causes c := performAll_changes Stage.noConfusion ops
  have hcarries : c.Carries socket.written (causes.flatMap Cause.said) :=
    hchanges.carries (carries_ofSocket socket peer config)
  have hconfig : c.session.config = config := hchanges.config
  refine ⟨?_, hasPendingWrites_iff hcarries, hchanges.length_introductions_of_new, ?_⟩
  · rw [hcarries.stream, hconfig]
  · intro m hm hping
    obtain ⟨v, hdecodes⟩ := hchanges.decodes hm
    exact hdecodes.ping hping

end Connection

end PeerCrawl
