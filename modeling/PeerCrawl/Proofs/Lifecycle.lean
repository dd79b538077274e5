import PeerCrawl.Proofs.OutboundStream

set_option autoImplicit false

/-! # The life of a connection

The stage of a connection only moves on (`Connection.Changes.rank_le`), and the transport is never
left established without our introduction. What belongs to that moment happens there and nowhere
else: the introduction is queued, and our side of the socket becomes known. Whether it has come is
what `Socket.Connected` says of the socket, and `onWritable` says whether to wait for the socket
again (`Connection.result_onWritable`). -/

namespace PeerCrawl

/-- How far a stage is from the first one. -/
def Stage.rank : Stage → Nat
  | init => 0
  | connecting => 1
  | connected => 2
  | versionSent => 3

namespace Cause

variable {causes : List Cause}

theorem version_notMem_replies (m : Message) : ∀ r ∈ m.replies, r.command ≠ Command.version := by
  intro r hr
  unfold Message.replies at hr
  split at hr
  · rw [List.mem_singleton.1 hr]
    decide
  split at hr
  · rw [List.mem_singleton.1 hr]
    show Command.pong ≠ Command.version
    decide
  · exact absurd hr List.not_mem_nil

/-- Among what is said, the version messages are our introductions. -/
theorem versions_said (causes : List Cause) :
    (causes.flatMap said).filter (fun m => m.command = Command.version) =
      (causes.filterMap introduction?).map VersionMessage.message := by
  induction causes with
  | nil => rfl
  | cons cause causes ih =>
    rw [List.flatMap_cons, List.filter_append, ih]
    cases cause with
    | established introduction => rfl
    | understood m =>
      have hnone : m.replies.filter (fun m => m.command = Command.version) = [] :=
        List.filter_eq_nil_iff.2 fun r hr => by simpa using version_notMem_replies m r hr
      rw [said, hnone]
      rfl

end Cause

namespace Connection

variable {c c' : Connection} {causes : List Cause}

/-! ## Stages -/

theorem Change.rank_le (h : c.Change causes c') : c.stage.rank ≤ c'.stage.rank := by
  cases h with
  | socket | flushed | understood => exact Nat.le_refl _
  | connecting h =>
    rw [h]
    exact Nat.zero_le _
  | established =>
    show c.stage.rank ≤ Stage.rank .versionSent
    cases c.stage <;> decide

theorem Changes.rank_le (h : c.Changes causes c') : c.stage.rank ≤ c'.stage.rank :=
  h.keeps (P := fun c' => c.stage.rank ≤ c'.stage.rank) (fun h hc => hc.trans h.rank_le)
    (Nat.le_refl _)

/-! ## Our side of the socket -/

theorem Change.localAddress_eq (h : c.Change causes c') (hc : c.stage = .versionSent) :
    c'.stage = .versionSent ∧ c'.localAddress = c.localAddress := by
  cases h with
  | socket | flushed | understood => exact ⟨hc, rfl⟩
  | connecting h => cases hc.symm.trans h
  | established h =>
    rw [isEstablished, hc] at h
    cases h

/-- Our side of the socket is learnt when the transport is established, and kept. -/
theorem Changes.localAddress_eq (h : c.Changes causes c') (hc : c.stage = .versionSent) :
    c'.localAddress = c.localAddress := by
  have hkept : c'.stage = .versionSent ∧ c'.localAddress = c.localAddress := by
    refine h.keeps (P := fun c' => c'.stage = .versionSent ∧ c'.localAddress = c.localAddress)
      ?_ ⟨hc, rfl⟩
    rintro c₁ c₂ causes hchange ⟨hstage, hlocal⟩
    obtain ⟨hstage', hlocal'⟩ := hchange.localAddress_eq hstage
    exact ⟨hstage', hlocal'.trans hlocal⟩
  exact hkept.2

theorem Change.localAddress_none (h : c.Change causes c')
    (hc : c.stage ≠ .versionSent → c.localAddress = none) :
    c'.stage ≠ .versionSent → c'.localAddress = none := by
  cases h with
  | socket | flushed | understood => exact hc
  | connecting h =>
    intro _
    exact hc (by rw [h]; exact Stage.noConfusion)
  | established => exact fun hne => absurd rfl hne

theorem Changes.localAddress_none (h : c.Changes causes c')
    (hc : c.stage ≠ .versionSent → c.localAddress = none) :
    c'.stage ≠ .versionSent → c'.localAddress = none :=
  h.keeps Change.localAddress_none hc

/-! ## Writable sockets -/

theorem result_flush {b : Bool} (h : c.flush.result = .ok b) :
    b = c.flush.connection.hasPendingWrites := by
  have hflush : (c.session.outbox.flush c.socket).result = .ok b := by
    cases hr : (c.session.outbox.flush c.socket).result with
    | ok b' =>
      rw [flush, hr] at h
      rw [Except.ok.inj h]
    | error e =>
      rw [flush, hr] at h
      exact absurd h nofun
  exact Outbox.result_flush hflush

/-- The transport is established when the socket says so, and else nothing but the socket has
changed. -/
theorem onWritable_of_not_established (h : c.isEstablished = false) :
    (c.onWritable.connection.isEstablished = true ↔ c.socket.Connected) ∧
      (c.onWritable.connection.isEstablished = false →
        c.onWritable.connection = { c with socket := c.socket.takeError.2 }) := by
  by_cases hconnected : c.socket.Connected
  · have hop := (onWritable_of_connected h hconnected).1
    have hestablished : c.onWritable.connection.isEstablished = true := by rw [hop]; rfl
    refine ⟨⟨fun _ => hconnected, fun _ => hestablished⟩, fun hnot => ?_⟩
    exact absurd (hestablished.symm.trans hnot) nofun
  · have hop := (onWritable_of_not_connected h hconnected).1
    refine ⟨⟨fun hestablished => ?_, fun hsocket => absurd hsocket hconnected⟩, fun _ => hop⟩
    have hsame : isEstablished { c with socket := c.socket.takeError.2 } = c.isEstablished := rfl
    rw [hop, hsame, h] at hestablished
    exact absurd hestablished nofun

/-- The answer says whether to wait for the socket again: the connect is in flight, or something is
left to write. -/
theorem result_onWritable (hc : c.stage ≠ .connected) {b : Bool} (h : c.onWritable.result = .ok b) :
    b = (!c.onWritable.connection.isEstablished || c.onWritable.connection.hasPendingWrites) := by
  cases hestablished : c.isEstablished with
  | true =>
    obtain ⟨hop, hresult⟩ := onWritable_of_established ((isEstablished_iff hc).1 hestablished)
    have hkept : c.flush.connection.isEstablished = true := hestablished
    rw [hop, hkept]
    exact result_flush (hresult.symm.trans h)
  | false =>
    by_cases hconnected : c.socket.Connected
    · obtain ⟨hop, hresult⟩ := onWritable_of_connected hestablished hconnected
      rw [hop]
      exact result_flush (hresult.symm.trans h)
    · obtain ⟨hop, hresult⟩ := onWritable_of_not_connected hestablished hconnected
      have hkept : isEstablished { c with socket := c.socket.takeError.2 } = false := hestablished
      rw [hop, hkept]
      rcases hresult with htrue | ⟨e, he⟩
      · exact Except.ok.inj (h.symm.trans htrue)
      · exact absurd (h.symm.trans he) nofun

/-! ## Runs -/

/-- A connection says one version message, when its transport is established. -/
theorem Changes.length_versions {socket : Socket} {peer : Address} {config : Configuration}
    (h : (ofSocket socket peer config).Changes causes c) :
    ((causes.flatMap Cause.said).filter fun m => m.command = Command.version).length =
      if c.stage = .versionSent then 1 else 0 := by
  have hestablished := isEstablished_iff (h.stage Stage.noConfusion)
  rw [Cause.versions_said, List.length_map, h.length_introductions_of_new]
  by_cases hsent : c.stage = .versionSent
  · rw [hestablished.2 hsent, if_pos hsent]
    rfl
  · rw [Bool.eq_false_iff.2 fun h => hsent (hestablished.1 h), if_neg hsent]
    rfl

/-- **The life of a connection.** Do anything to a fresh connection, going on after failures, over a
socket that does anything.

* The stage never moves back, and no operation leaves the transport established without our
  introduction.
* What was sent and what is queued holds one version message if that stage has come, and else none.
* Our side of the socket is unknown before, and stays what it is after.
* A writable socket completes the connect just if no error waits and the endpoint of the peer is
  known. If it does not, nothing but the socket has changed.
* A writable socket is to be waited for again just if the connect is in flight or something is left
  to write. -/
theorem lifecycle (socket : Socket) (peer : Address) (config : Configuration)
    (ops more : List Operation) :
    let start := ofSocket socket peer config
    let c := (start.performAll ops).connection
    let later := (c.performAll more).connection
    let said := (start.causesOf ops).flatMap Cause.said
    (c.stage.rank ≤ later.stage.rank ∧ c.stage ≠ .connected) ∧
      (c.socket.written ++ c.session.outbox.unsent =
          socket.written ++ Message.stream config.magic said ∧
        (said.filter fun m => m.command = Command.version).length =
          if c.stage = .versionSent then 1 else 0) ∧
      ((c.stage ≠ .versionSent → c.localAddress = none) ∧
        (c.stage = .versionSent → later.localAddress = c.localAddress)) ∧
      (c.isEstablished = false →
        (c.onWritable.connection.isEstablished = true ↔ c.socket.Connected) ∧
          (c.onWritable.connection.isEstablished = false →
            c.onWritable.connection = { c with socket := c.socket.takeError.2 })) ∧
      ∀ b, c.onWritable.result = .ok b → b =
        (!c.onWritable.connection.isEstablished || c.onWritable.connection.hasPendingWrites) := by
  intro start c later said
  have hchanges : start.Changes (start.causesOf ops) c := performAll_changes Stage.noConfusion ops
  have hstage : c.stage ≠ .connected := hchanges.stage Stage.noConfusion
  have hlater : c.Changes (c.causesOf more) later := performAll_changes hstage more
  have hcarries : c.Carries socket.written said :=
    hchanges.carries (carries_ofSocket socket peer config)
  refine ⟨⟨hlater.rank_le, hstage⟩, ⟨?_, hchanges.length_versions⟩,
    ⟨?_, hlater.localAddress_eq⟩, onWritable_of_not_established,
    fun b h => result_onWritable hstage h⟩
  · rw [hcarries.stream, hchanges.config]
    rfl
  · exact hchanges.localAddress_none fun _ => rfl

end Connection

end PeerCrawl
