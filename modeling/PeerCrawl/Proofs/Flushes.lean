import PeerCrawl.Proofs.Outbox

set_option autoImplicit false

/-! # Every byte is sent once

A flush is a series of writes (`Outbox.writes`), each of which offers what is left of the front
frame. The bytes that they take are the bytes that the outbox loses (`Outbox.taken_writes`), and the
flush fails just if one of them does: because nothing was taken, or for a reason that does not pass
by itself (`Outbox.flush_accounts`). So the frames that are pushed go out in order, whatever their
writers do, and each byte of them goes out once (`Outbox.every_byte_once`). -/

namespace PeerCrawl

/-- One write of a flush. -/
structure Write where
  offered : Bytes
  answer : Except IoError Nat

namespace Write

/-- The bytes that the writer has taken. -/
def taken (w : Write) : Bytes :=
  match w.answer with
  | .ok n => w.offered.take n
  | .error _ => []

/-- A flush fails with a write that takes nothing, and with one whose error is neither to be waited
out nor to be tried again. -/
def FailsWith (w : Write) (e : IoError) : Prop :=
  w.answer = .ok 0 ∧ e = .writeZero ∨
    w.answer = .error e ∧ e ≠ .wouldBlock ∧ e ≠ .interrupted

variable {offered : Bytes} {e e' : IoError}

theorem failsWith_ok {n : Nat} : FailsWith ⟨offered, .ok n⟩ e ↔ n = 0 ∧ e = .writeZero := by
  simp [FailsWith]

theorem failsWith_error :
    FailsWith ⟨offered, .error e'⟩ e ↔ (e' ≠ .wouldBlock ∧ e' ≠ .interrupted) ∧ e' = e := by
  simp only [FailsWith, reduceCtorEq, false_and, false_or, Except.error.injEq]
  constructor
  · rintro ⟨rfl, hpass⟩
    exact ⟨hpass, rfl⟩
  · rintro ⟨hpass, rfl⟩
    exact ⟨rfl, hpass⟩

end Write

namespace Outbox

variable {o : Outbox} {s s' : Socket} {front : Bytes} {rest : List Bytes}

/-! ## The writes of a flush -/

/-- The writes that a flush makes, in order. -/
def writes (o : Outbox) (s : Socket) : List Write :=
  match _ho : o.frames with
  | [] => []
  | front :: rest =>
    let offered := front.drop o.offset
    match _hw : s.write offered with
    | (.ok n, s') =>
      ⟨offered, .ok n⟩ ::
        if n = 0 ∨ n < offered.length then [] else writes { frames := rest, offset := 0 } s'
    | (.error .interrupted, s') => ⟨offered, .error .interrupted⟩ :: writes o s'
    | (.error e, _) => [⟨offered, .error e⟩]
termination_by o.frames.length + s.acceptances.length
decreasing_by
  · have := s.length_write_le offered
    simp only [_hw] at this
    simp only [_ho, List.length_cons]
    omega
  · have := Socket.length_write_of_interrupted _hw
    omega

theorem writes_of_nil (hf : o.frames = []) : o.writes s = [] := by
  rw [writes]
  split <;> simp_all

theorem writes_of_ok {n : Nat} (hf : o.frames = front :: rest)
    (hw : s.write (front.drop o.offset) = (.ok n, s')) :
    o.writes s = ⟨front.drop o.offset, .ok n⟩ ::
      if n = 0 ∨ n < (front.drop o.offset).length then []
      else writes { frames := rest, offset := 0 } s' := by
  rw [writes]
  split
  · simp_all
  · next hcons =>
    obtain ⟨rfl, rfl⟩ := List.cons.inj (hf.symm.trans hcons)
    dsimp only
    split <;> simp_all

theorem writes_of_interrupted (hf : o.frames = front :: rest)
    (hw : s.write (front.drop o.offset) = (.error .interrupted, s')) :
    o.writes s = ⟨front.drop o.offset, .error .interrupted⟩ :: o.writes s' := by
  rw [writes]
  split
  · simp_all
  · next hcons =>
    obtain ⟨rfl, rfl⟩ := List.cons.inj (hf.symm.trans hcons)
    dsimp only
    split <;> simp_all

theorem writes_of_error {e : IoError} (hf : o.frames = front :: rest)
    (hw : s.write (front.drop o.offset) = (.error e, s')) (he : e ≠ .interrupted) :
    o.writes s = [⟨front.drop o.offset, .error e⟩] := by
  rw [writes]
  split
  · simp_all
  · next hcons =>
    obtain ⟨rfl, rfl⟩ := List.cons.inj (hf.symm.trans hcons)
    dsimp only
    split <;> simp_all

/-! ## What the writes of a flush tell -/

/-- The writes account for what a flush has done to the socket, and for its failure. -/
structure Accounts (s : Socket) (ws : List Write) (f : Flushed) : Prop where
  offered : ∀ w ∈ ws, w.offered ≠ []
  written : f.socket.written = s.written ++ ws.flatMap Write.taken
  failed : ∀ e, f.result = .error e ↔ ∃ w ∈ ws, w.FailsWith e

variable {f : Flushed} {w : Write} {ws : List Write}

theorem Accounts.last (hoffered : w.offered ≠ [])
    (hwritten : f.socket.written = s.written ++ w.taken)
    (hfailed : ∀ e, f.result = .error e ↔ w.FailsWith e) : Accounts s [w] f where
  offered := by simpa using hoffered
  written := by rw [hwritten, List.flatMap_singleton]
  failed := by simpa using hfailed

/-- A write with which the flush does not fail, and the writes after it. -/
theorem Accounts.cons (hoffered : w.offered ≠ []) (hwritten : s'.written = s.written ++ w.taken)
    (hpasses : ∀ e, ¬ w.FailsWith e) (h : Accounts s' ws f) : Accounts s (w :: ws) f where
  offered := List.forall_mem_cons.2 ⟨hoffered, h.offered⟩
  written := by rw [h.written, hwritten, List.flatMap_cons, List.append_assoc]
  failed := fun e => by simp [h.failed e, hpasses e]

theorem WellFormed.drop_ne_nil (h : o.WellFormed) (hf : o.frames = front :: rest) :
    front.drop o.offset ≠ [] := fun hnil =>
  absurd (List.drop_eq_nil_iff.1 hnil) (Nat.not_le.2 (h.offset_lt front rest hf))

theorem flush_accounts (s : Socket) (h : o.WellFormed) : Accounts s (o.writes s) (o.flush s) := by
  fun_induction flush o s with
  | case1 o s hf =>
    rw [writes_of_nil hf]
    exact ⟨by simp, by simp, by simp⟩
  -- the socket takes nothing, part of what is left of the front frame, or all of it
  | case2 o s front rest hf offered s' hw =>
    rw [writes_of_ok hf hw, if_pos (.inl rfl)]
    exact .last (h.drop_ne_nil hf) (Socket.written_of_write_ok hw).2
      fun e => by simp [Write.failsWith_ok, eq_comm]
  | case3 o s front rest hf offered n s' hw hne hn =>
    rw [writes_of_ok hf hw, if_pos (.inr hn)]
    exact .last (h.drop_ne_nil hf) (Socket.written_of_write_ok hw).2
      fun e => by simp [Write.failsWith_ok, hne]
  | case4 o s front rest hf offered n s' hw hne hn ih =>
    rw [writes_of_ok hf hw, if_neg (not_or.2 ⟨hne, hn⟩)]
    exact .cons (h.drop_ne_nil hf) (Socket.written_of_write_ok hw).2
      (fun e => by simp [Write.failsWith_ok, hne]) (ih (h.tail hf))
  -- the socket blocks, is interrupted, or fails
  | case5 o s front rest hf offered s' hw =>
    rw [writes_of_error hf hw IoError.noConfusion]
    refine .last (h.drop_ne_nil hf) ?_ fun e => by simp [Write.failsWith_error]
    exact (Socket.written_of_write_error hw).trans (List.append_nil _).symm
  | case6 o s front rest hf offered s' hw ih =>
    rw [writes_of_interrupted hf hw]
    refine .cons (h.drop_ne_nil hf) ?_ (fun e => by simp [Write.failsWith_error]) (ih h)
    exact (Socket.written_of_write_error hw).trans (List.append_nil _).symm
  | case7 o s front rest hf offered e s' hblock hinterrupted hw =>
    rw [writes_of_error hf hw hinterrupted]
    refine .last (h.drop_ne_nil hf) ?_ fun e' => ?_
    · exact (Socket.written_of_write_error hw).trans (List.append_nil _).symm
    · rw [Write.failsWith_error, Except.error.injEq]
      exact ⟨fun he => ⟨⟨hblock, hinterrupted⟩, he⟩, fun he => he.2⟩

/-- The writes of a flush take the front of what was unsent, and leave the rest. -/
theorem taken_writes (s : Socket) (h : o.WellFormed) :
    (o.writes s).flatMap Write.taken ++ (o.flush s).outbox.unsent = o.unsent := by
  obtain ⟨taken, hwritten, hunsent⟩ := (flush_conserves s h).moved
  rw [(flush_accounts s h).written, List.append_right_inj] at hwritten
  rw [hwritten, hunsent]

/-- A flush that fails leaves something behind. -/
theorem isEmpty_flush_of_error {e : IoError} (h : (o.flush s).result = .error e) :
    (o.flush s).outbox.isEmpty = false := by
  fun_induction flush o s with
  | case1 | case3 | case5 => cases h
  | case2 o s front rest hf | case7 o s front rest hf => rw [isEmpty, hf]; rfl
  | case4 o s front rest hf offered n s' hw hne hn ih | case6 o s front rest hf offered s' hw ih =>
    exact ih h

/-- A flush that does not fail says whether something is left. -/
theorem result_flush_iff (s : Socket) (h : o.WellFormed) :
    ((o.flush s).result = .ok false ↔ (o.flush s).outbox.unsent = []) ∧
      ((o.flush s).result = .ok true ↔
        (o.flush s).outbox.unsent ≠ [] ∧ ∀ w ∈ o.writes s, ∀ e, ¬ w.FailsWith e) := by
  have hempty := isEmpty_iff (flush_conserves s h).wellFormed
  have hfailed := (flush_accounts s h).failed
  cases hresult : (o.flush s).result with
  | ok more =>
    have hmore := result_flush hresult
    have hnone : ∀ w ∈ o.writes s, ∀ e, ¬ w.FailsWith e := fun w hw e hfails =>
      absurd (hresult.symm.trans ((hfailed e).2 ⟨w, hw, hfails⟩)) nofun
    rw [Ne, ← hempty, hmore]
    cases (o.flush s).outbox.isEmpty with
    | true => exact ⟨by simp, nofun, fun hall => absurd rfl hall.1⟩
    | false => exact ⟨by simp, fun _ => ⟨Bool.false_ne_true, hnone⟩, fun _ => rfl⟩
  | error e =>
    obtain ⟨w, hw, hfails⟩ := (hfailed e).1 hresult
    have hleft : (o.flush s).outbox.unsent ≠ [] := fun hnil =>
      absurd ((hempty.2 hnil).symm.trans (isEmpty_flush_of_error hresult)) nofun
    exact ⟨⟨nofun, fun hnil => absurd hnil hleft⟩, nofun, fun hall => absurd hfails (hall.2 w hw e)⟩

/-! ## Runs -/

/-- What its owner does with an outbox. -/
inductive Use where
  | push (frame : Bytes)
  /-- Flush it to a writer, which does as it pleases. -/
  | flush (writer : Socket)

/-- The bytes that are pushed. -/
def Use.pushed : Use → Bytes
  | push frame => frame
  | flush _ => []

/-- An outbox, and all the bytes that its writers have taken. -/
structure Sending where
  outbox : Outbox := {}
  sent : Bytes := []

namespace Sending

def step (x : Sending) : Use → Sending
  | .push frame => { x with outbox := x.outbox.push frame }
  | .flush writer =>
    { outbox := (x.outbox.flush writer).outbox
      sent := x.sent ++ (x.outbox.writes writer).flatMap Write.taken }

def run (x : Sending) (uses : List Use) : Sending := uses.foldl step x

end Sending

/-- A frame is queued behind all that is unsent, and an empty one is not queued. -/
theorem push_unsent (h : o.WellFormed) (frame : Bytes) :
    (o.push frame).WellFormed ∧ (o.push frame).unsent = o.unsent ++ frame := by
  unfold push
  split
  · next hnil => exact ⟨h, by rw [hnil, List.append_nil]⟩
  · next hne =>
    have hframes : ∀ f ∈ [frame], f ≠ [] := by simpa using hne
    exact ⟨h.append hframes, by rw [unsent_append h, List.flatten_singleton]⟩

theorem foldl_length (frames : List Bytes) (start : Nat) :
    frames.foldl (fun total frame => total + frame.length) start =
      start + frames.flatten.length := by
  induction frames generalizing start with
  | nil => rfl
  | cons frame frames ih =>
    rw [List.foldl_cons, ih, List.flatten_cons, List.length_append, Nat.add_assoc]

/-- The count of unsent bytes is right, and nothing is subtracted from less. -/
theorem pendingBytes_eq (h : o.WellFormed) :
    o.offset ≤ o.frames.foldl (fun total frame => total + frame.length) 0 ∧
      o.pendingBytes = o.unsent.length := by
  rw [pendingBytes, foldl_length, Nat.zero_add, unsent, List.length_drop]
  exact ⟨h.offset_le, rfl⟩

namespace Sending

/-- What was sent and what is unsent make up what was pushed. -/
structure Keeps (pushed : Bytes) (x : Sending) : Prop where
  wellFormed : x.outbox.WellFormed
  stream : x.sent ++ x.outbox.unsent = pushed

variable {x : Sending} {pushed : Bytes}

theorem Keeps.step (h : x.Keeps pushed) (use : Use) :
    (x.step use).Keeps (pushed ++ use.pushed) := by
  cases use with
  | push frame =>
    obtain ⟨hwf, hunsent⟩ := push_unsent h.wellFormed frame
    refine ⟨hwf, ?_⟩
    show x.sent ++ (x.outbox.push frame).unsent = pushed ++ frame
    rw [hunsent, ← List.append_assoc, h.stream]
  | flush writer =>
    refine ⟨(flush_conserves writer h.wellFormed).wellFormed, ?_⟩
    show x.sent ++ (x.outbox.writes writer).flatMap Write.taken ++
      (x.outbox.flush writer).outbox.unsent = pushed ++ []
    rw [List.append_assoc, taken_writes writer h.wellFormed, h.stream, List.append_nil]

theorem Keeps.run (h : x.Keeps pushed) (uses : List Use) :
    (x.run uses).Keeps (pushed ++ uses.flatMap Use.pushed) := by
  induction uses generalizing x pushed with
  | nil =>
    rw [List.flatMap_nil, List.append_nil]
    exact h
  | cons use uses ih =>
    rw [List.flatMap_cons, ← List.append_assoc]
    exact ih (h.step use)

end Sending

/-- **Every byte is sent once.** Push frames to an empty outbox, empty ones among them, and flush it
in between to writers that do as they please, going on after failures.

* The bytes that were sent, and then the unsent ones, are the frames in the order in which they were
  pushed.
* No empty frame is queued. The offset is 0 if nothing is queued, and else less than the length of
  the front frame. The unsent bytes are counted right, and nothing is subtracted from less.
* A flush offers something with each of its writes, and sends what they take, from the front of what
  was unsent. It fails with "nothing taken" just if a write took nothing (or reports that very
  error), and with another error just if a write did that is neither to be waited out nor to be
  tried again. It answers false just if nothing is left, and true just if something is left and no
  write has failed. -/
theorem every_byte_once (uses : List Use) :
    let x := Sending.run {} uses
    x.sent ++ x.outbox.unsent = uses.flatMap Use.pushed ∧
      ((∀ frame ∈ x.outbox.frames, frame ≠ []) ∧
        (x.outbox.frames = [] → x.outbox.offset = 0) ∧
        (∀ front rest, x.outbox.frames = front :: rest → x.outbox.offset < front.length) ∧
        x.outbox.offset ≤ x.outbox.frames.foldl (fun total frame => total + frame.length) 0 ∧
        x.outbox.pendingBytes = x.outbox.unsent.length) ∧
      ∀ writer : Socket,
        let flushed := x.outbox.flush writer
        let writes := x.outbox.writes writer
        (∀ w ∈ writes, w.offered ≠ []) ∧
          flushed.socket.written = writer.written ++ writes.flatMap Write.taken ∧
          writes.flatMap Write.taken ++ flushed.outbox.unsent = x.outbox.unsent ∧
          (∀ e, flushed.result = .error e ↔
            (∃ w ∈ writes, w.answer = .ok 0) ∧ e = .writeZero ∨
              (∃ w ∈ writes, w.answer = .error e) ∧ e ≠ .wouldBlock ∧ e ≠ .interrupted) ∧
          (flushed.result = .ok false ↔ flushed.outbox.unsent = []) ∧
          (flushed.result = .ok true ↔
            flushed.outbox.unsent ≠ [] ∧ ∀ w ∈ writes, ∀ e, ¬ w.FailsWith e) := by
  intro x
  have hempty : Sending.Keeps [] {} := ⟨wellFormed_empty, rfl⟩
  have hkeeps : x.Keeps (uses.flatMap Use.pushed) := hempty.run uses
  obtain ⟨hwf, hstream⟩ := hkeeps
  obtain ⟨hle, hpending⟩ := pendingBytes_eq hwf
  refine ⟨hstream, ⟨hwf.nonempty, hwf.offset_of_nil, hwf.offset_lt, hle, hpending⟩, ?_⟩
  intro writer flushed writes
  obtain ⟨hoffered, hwritten, hfailed⟩ := flush_accounts writer hwf
  obtain ⟨hfalse, htrue⟩ := result_flush_iff writer hwf
  refine ⟨hoffered, hwritten, taken_writes writer hwf, fun e => ?_, hfalse, htrue⟩
  rw [hfailed e]
  constructor
  · rintro ⟨w, hw, ⟨hzero, he⟩ | ⟨herror, hpass⟩⟩
    · exact .inl ⟨⟨w, hw, hzero⟩, he⟩
    · exact .inr ⟨⟨w, hw, herror⟩, hpass⟩
  · rintro (⟨⟨w, hw, hzero⟩, he⟩ | ⟨⟨w, hw, herror⟩, hpass⟩)
    · exact ⟨w, hw, .inl ⟨hzero, he⟩⟩
    · exact ⟨w, hw, .inr ⟨herror, hpass⟩⟩

end Outbox

end PeerCrawl
