import PeerCrawl.Connection.Outbox

set_option autoImplicit false

/-! # What an outbox keeps

An outbox that was built by pushes and flushes is `Outbox.WellFormed`: no frame is empty, and the
socket has taken less than all of the front frame. Then a flush moves bytes from the front of what
is unsent to the end of what the socket has taken, whatever the socket does, and loses none
(`Outbox.flush_conserves`). -/

namespace PeerCrawl

namespace Socket

variable {s s' : Socket} {offered : Bytes}

/-! ## Writes -/

theorem written_of_write_ok {n : Nat} (h : s.write offered = (.ok n, s')) :
    n ≤ offered.length ∧ s'.written = s.written ++ offered.take n := by
  unfold write at h
  split at h
  · split at h
    · simp at h
    · simp only [Prod.mk.injEq, Except.ok.injEq] at h
      obtain ⟨rfl, rfl⟩ := h
      exact ⟨Nat.le_refl _, by rw [List.take_length]⟩
  · simp only [Prod.mk.injEq, Except.ok.injEq] at h
    obtain ⟨rfl, rfl⟩ := h
    exact ⟨Nat.min_le_right _ _, by rw [List.take_eq_take_min]⟩
  · simp at h

theorem written_of_write_error {e : IoError} (h : s.write offered = (.error e, s')) :
    s'.written = s.written := by
  unfold write at h
  split at h
  · split at h <;> simp only [Prod.mk.injEq] at h
    · rw [← h.2]
    · exact absurd h.1 (by simp)
  · simp at h
  · simp only [Prod.mk.injEq] at h
    rw [← h.2]

end Socket

namespace Outbox

/-- What pushes and flushes keep true of an outbox. -/
structure WellFormed (o : Outbox) : Prop where
  nonempty : ∀ f ∈ o.frames, f ≠ []
  offset_of_nil : o.frames = [] → o.offset = 0
  offset_lt : ∀ front rest, o.frames = front :: rest → o.offset < front.length

theorem wellFormed_empty : WellFormed {} where
  nonempty := by simp
  offset_of_nil := fun _ => rfl
  offset_lt := by simp

variable {o : Outbox}

theorem WellFormed.append (h : o.WellFormed) {frames : List Bytes} (hf : ∀ f ∈ frames, f ≠ []) :
    WellFormed { o with frames := o.frames ++ frames } := by
  refine ⟨?_, ?_, ?_⟩
  · intro f hmem
    rcases List.mem_append.1 hmem with hold | hnew
    · exact h.nonempty f hold
    · exact hf f hnew
  · intro hnil
    exact h.offset_of_nil (List.append_eq_nil_iff.1 hnil).1
  · intro front rest hcons
    have happend : o.frames ++ frames = front :: rest := hcons
    show o.offset < front.length
    cases hframes : o.frames with
    | nil =>
      rw [hframes, List.nil_append] at happend
      have hmem : front ∈ frames := by
        rw [happend]
        exact List.mem_cons_self
      rw [h.offset_of_nil hframes]
      exact List.length_pos_iff.2 (hf front hmem)
    | cons front' rest' =>
      rw [hframes, List.cons_append, List.cons.injEq] at happend
      rw [← happend.1]
      exact h.offset_lt front' rest' hframes

theorem WellFormed.offset_le (h : o.WellFormed) : o.offset ≤ o.frames.flatten.length := by
  cases hframes : o.frames with
  | nil => rw [h.offset_of_nil hframes]; exact Nat.zero_le _
  | cons front rest =>
    have hlt := h.offset_lt front rest hframes
    rw [List.flatten_cons, List.length_append]
    omega

theorem unsent_append (h : o.WellFormed) (frames : List Bytes) :
    unsent { o with frames := o.frames ++ frames } = o.unsent ++ frames.flatten := by
  rw [unsent, List.flatten_append, List.drop_append_of_le_length h.offset_le, unsent]

theorem unsent_cons {front : Bytes} {rest : List Bytes} (h : o.WellFormed)
    (hf : o.frames = front :: rest) : o.unsent = front.drop o.offset ++ rest.flatten := by
  have hlt := h.offset_lt front rest hf
  rw [unsent, hf, List.flatten_cons, List.drop_append_of_le_length (Nat.le_of_lt hlt)]

theorem isEmpty_iff (h : o.WellFormed) : o.isEmpty = true ↔ o.unsent = [] := by
  rw [isEmpty, List.isEmpty_iff]
  constructor
  · intro hnil
    rw [unsent, hnil, List.flatten_nil, List.drop_nil]
  · intro hunsent
    cases hframes : o.frames with
    | nil => rfl
    | cons front rest =>
      rw [unsent_cons h hframes] at hunsent
      have hfront : front.drop o.offset = [] := (List.append_eq_nil_iff.1 hunsent).1
      exact absurd (List.drop_eq_nil_iff.1 hfront) (Nat.not_le.2 (h.offset_lt front rest hframes))

/-! ## Flushes -/

/-- A flush has moved bytes from the front of what was unsent to what the socket has taken. -/
structure Conserved (o : Outbox) (s : Socket) (f : Flushed) : Prop where
  wellFormed : f.outbox.WellFormed
  moved : ∃ taken, f.socket.written = s.written ++ taken ∧ taken ++ f.outbox.unsent = o.unsent

theorem Conserved.of_written {s : Socket} {f : Flushed} (h : o.WellFormed) (ho : f.outbox = o)
    (hs : f.socket.written = s.written) : Conserved o s f where
  wellFormed := by rw [ho]; exact h
  moved := ⟨[], by rw [hs, List.append_nil], by rw [ho, List.nil_append]⟩

/-- The socket takes part of what is left of the front frame. -/
theorem Conserved.of_part {s s' : Socket} {front : Bytes} {rest : List Bytes} {n : Nat}
    {result : Except IoError Bool} (h : o.WellFormed) (hf : o.frames = front :: rest)
    (hn : n < (front.drop o.offset).length)
    (hw : s'.written = s.written ++ (front.drop o.offset).take n) :
    Conserved o s ⟨result, { o with offset := o.offset + n }, s'⟩ := by
  have hwf : WellFormed { o with offset := o.offset + n } := by
    refine ⟨h.nonempty, fun hnil => ?_, fun front' rest' hcons => ?_⟩
    · rw [hf] at hnil
      exact absurd hnil (by simp)
    · rw [hf, List.cons.injEq] at hcons
      rw [List.length_drop] at hn
      rw [← hcons.1]
      show o.offset + n < front.length
      omega
  refine ⟨hwf, (front.drop o.offset).take n, hw, ?_⟩
  rw [unsent_cons hwf hf, unsent_cons h hf, ← List.append_assoc]
  show (front.drop o.offset).take n ++ front.drop (o.offset + n) ++ rest.flatten = _
  rw [← List.drop_drop, List.take_append_drop]

/-- The socket takes all that is left of the front frame, and then more. -/
theorem Conserved.of_whole {s s' : Socket} {front : Bytes} {rest : List Bytes} {f : Flushed}
    (h : o.WellFormed) (hf : o.frames = front :: rest)
    (hw : s'.written = s.written ++ front.drop o.offset)
    (hrest : Conserved { frames := rest, offset := 0 } s' f) : Conserved o s f := by
  obtain ⟨taken, htaken, hunsent⟩ := hrest.moved
  refine ⟨hrest.wellFormed, front.drop o.offset ++ taken, ?_, ?_⟩
  · rw [htaken, hw, List.append_assoc]
  · rw [List.append_assoc, hunsent, unsent_cons h hf]
    rfl

theorem WellFormed.tail {front : Bytes} {rest : List Bytes} (h : o.WellFormed)
    (hf : o.frames = front :: rest) : WellFormed { frames := rest, offset := 0 } := by
  have hne : ∀ f ∈ rest, f ≠ [] := fun f hmem =>
    h.nonempty f (by rw [hf]; exact List.mem_cons_of_mem front hmem)
  refine ⟨hne, fun _ => rfl, fun front' rest' hcons => ?_⟩
  have hmem : front' ∈ rest := by
    rw [show rest = front' :: rest' from hcons]
    exact List.mem_cons_self
  exact List.length_pos_iff.2 (hne front' hmem)

/-- Whatever the socket does, a flush loses nothing and repeats nothing. -/
theorem flush_conserves (s : Socket) (h : o.WellFormed) : Conserved o s (o.flush s) := by
  fun_induction flush o s with
  -- nothing is queued
  | case1 o s => exact Conserved.of_written h rfl rfl
  -- the socket takes nothing, part of what is left of the front frame, or all of it
  | case2 o s front rest hf offered s' hw =>
    refine Conserved.of_written h rfl ?_
    obtain ⟨-, hw⟩ := Socket.written_of_write_ok hw
    rw [hw, List.take_zero, List.append_nil]
  | case3 o s front rest hf offered n s' hw _ hn =>
    exact Conserved.of_part h hf hn (Socket.written_of_write_ok hw).2
  | case4 o s front rest hf offered n s' hw _ hn ih =>
    obtain ⟨hle, hw⟩ := Socket.written_of_write_ok hw
    rw [List.take_of_length_le (Nat.le_of_not_lt hn)] at hw
    exact Conserved.of_whole h hf hw (ih (h.tail hf))
  -- the socket blocks, is interrupted, or fails
  | case5 o s front rest hf offered s' hw =>
    exact Conserved.of_written h rfl (Socket.written_of_write_error hw)
  | case6 o s front rest hf offered s' hw ih =>
    obtain ⟨taken, htaken, hunsent⟩ := (ih h).moved
    exact ⟨(ih h).wellFormed, taken, by rw [htaken, Socket.written_of_write_error hw], hunsent⟩
  | case7 o s front rest hf offered e s' _ _ hw =>
    exact Conserved.of_written h rfl (Socket.written_of_write_error hw)

/-- A flush that stops without a failure says whether something is left. -/
theorem result_flush {s : Socket} {b : Bool} (h : (o.flush s).result = .ok b) :
    b = !(o.flush s).outbox.isEmpty := by
  fun_induction flush o s with
  | case1 o s hframes =>
    rw [← Except.ok.inj h, isEmpty, hframes]
    rfl
  | case3 o s front rest hframes | case5 o s front rest hframes =>
    rw [← Except.ok.inj h, isEmpty, hframes]
    rfl
  | case4 o s front rest hframes offered n s' _ _ _ ih
  | case6 o s front rest hframes offered s' _ ih => exact ih h
  | case2 | case7 => cases h

/-- A socket that takes everything leaves nothing unsent. -/
theorem unsent_flush_of_open (s : Socket) (h : o.WellFormed) (haccept : s.acceptances = [])
    (hblocks : s.blocks = false) : (o.flush s).outbox.unsent = [] := by
  have hwrite : ∀ (s : Socket) (offered : Bytes), s.acceptances = [] → s.blocks = false →
      s.write offered = (.ok offered.length, { s with written := s.written ++ offered }) := by
    intro s offered haccept hblocks
    simp only [Socket.write, haccept, hblocks]
    rfl
  -- of all that a socket can do, only taking a whole frame is left
  fun_induction flush o s with
  | case1 o s hf => rw [unsent, hf, List.flatten_nil, List.drop_nil]
  | case2 o s front rest hf offered s' hw =>
    rw [hwrite s offered haccept hblocks, Prod.mk.injEq, Except.ok.injEq] at hw
    have hlt := h.offset_lt front rest hf
    rw [List.length_drop] at hw
    omega
  | case3 o s front rest hf offered n s' hw _ hn =>
    rw [hwrite s offered haccept hblocks, Prod.mk.injEq, Except.ok.injEq] at hw
    omega
  | case4 o s front rest hf offered n s' hw _ hn ih =>
    rw [hwrite s offered haccept hblocks, Prod.mk.injEq] at hw
    obtain ⟨-, rfl⟩ := hw
    exact ih (h.tail hf) haccept hblocks
  | case5 o s front rest hf offered s' hw =>
    rw [hwrite s offered haccept hblocks] at hw
    simp at hw
  | case6 o s front rest hf offered s' hw ih =>
    rw [hwrite s offered haccept hblocks] at hw
    simp at hw
  | case7 o s front rest hf offered e s' _ _ hw =>
    rw [hwrite s offered haccept hblocks] at hw
    simp at hw

end Outbox

end PeerCrawl
