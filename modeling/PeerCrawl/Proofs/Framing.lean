import PeerCrawl.Connection.Session

set_option autoImplicit false

/-! # Frames and the bytes that follow them

What stands at the front of an inbox is settled by the bytes that have arrived: later bytes end up
behind a frame (`Inbox.next_append_of_frame`), change nothing about a bad header
(`Inbox.next_append_of_rejected`), and complete the start of a frame as if its header had not been
read yet (`Inbox.next_append_of_incomplete`). Hence feeding an inbox and then more bytes is feeding
it all of them (`Session.feed_append`). -/

namespace PeerCrawl

namespace Inbox

variable {i : Inbox} {magic : Magic} {header : Header} {buffer b : Bytes}

@[simp] theorem append_nil (i : Inbox) : i.append [] = i := by simp [append]

theorem append_append (i : Inbox) (b₁ b₂ : Bytes) :
    (i.append b₁).append b₂ = i.append (b₁ ++ b₂) := by simp [append]

@[simp] theorem buffer_append (i : Inbox) (b : Bytes) : (i.append b).buffer = i.buffer ++ b := rfl

@[simp] theorem header_append (i : Inbox) (b : Bytes) : (i.append b).header = i.header := rfl

/-! ## What a header makes of a buffer -/

theorem frameOf_of_lt (h : buffer.length < Wire.headerWidth + header.payloadLength.toNat) :
    frameOf header buffer = .incomplete (some header) := by
  simp only [frameOf, isShorter_iff.2 h, if_true]

theorem frameOf_of_le (h : Wire.headerWidth + header.payloadLength.toNat ≤ buffer.length) :
    frameOf header buffer = .frame header
      ((buffer.drop Wire.headerWidth).take header.payloadLength.toNat)
      ((buffer.drop Wire.headerWidth).drop header.payloadLength.toNat) := by
  have hlong : ¬ isShorter buffer (Wire.headerWidth + header.payloadLength.toNat) = true := by
    rw [isShorter_iff]
    omega
  simp only [frameOf, hlong, if_false, Bool.false_eq_true]

theorem le_of_frameOf {h : Header} {payload rest : Bytes}
    (hf : frameOf h buffer = .frame header payload rest) :
    Wire.headerWidth + h.payloadLength.toNat ≤ buffer.length := by
  rcases Nat.lt_or_ge buffer.length (Wire.headerWidth + h.payloadLength.toNat) with hlt | hge
  · rw [frameOf_of_lt hlt] at hf
    exact absurd hf (by simp)
  · exact hge

theorem frameOf_append {h : Header} {payload rest : Bytes}
    (hf : frameOf h buffer = .frame header payload rest) (b : Bytes) :
    frameOf h (buffer ++ b) = .frame header payload (rest ++ b) := by
  have hle := le_of_frameOf hf
  have hhead : Wire.headerWidth ≤ buffer.length := by omega
  have htail : h.payloadLength.toNat ≤ (buffer.drop Wire.headerWidth).length := by
    rw [List.length_drop]
    omega
  rw [frameOf_of_le hle] at hf
  simp only [Arrived.frame.injEq] at hf
  obtain ⟨rfl, rfl, rfl⟩ := hf
  rw [frameOf_of_le (by rw [List.length_append]; omega), List.drop_append_of_le_length hhead,
    List.take_append_of_le_length htail, List.drop_append_of_le_length htail]

theorem ne_rejected_of_frameOf {e : ConnectionError} : frameOf header buffer ≠ .rejected e := by
  simp only [frameOf]
  split <;> simp

theorem eq_of_frameOf_incomplete {h : Option Header}
    (hf : frameOf header buffer = .incomplete h) : h = some header := by
  simp only [frameOf] at hf
  split at hf
  · simpa using hf.symm
  · exact absurd hf (by simp)

/-! ## More bytes behind what stands at the front -/

theorem next_of_header (h : i.header = some header) : i.next magic = frameOf header i.buffer := by
  simp only [next, h]

theorem next_of_lt (h : i.header = none) (hlt : i.buffer.length < Wire.headerWidth) :
    i.next magic = .incomplete none := by
  simp only [next, h, isShorter_iff.2 hlt, if_true]

theorem next_of_badHeader {e : ConnectionError} (h : i.header = none)
    (hle : Wire.headerWidth ≤ i.buffer.length) (hr : readHeader magic i.buffer = .error e) :
    i.next magic = .rejected e := by
  have hlong : ¬ isShorter i.buffer Wire.headerWidth = true := by
    rw [isShorter_iff]
    omega
  simp only [next, h, hlong, hr, if_false, Bool.false_eq_true]

theorem next_of_goodHeader (h : i.header = none) (hle : Wire.headerWidth ≤ i.buffer.length)
    (hr : readHeader magic i.buffer = .ok header) :
    i.next magic = frameOf header i.buffer := by
  have hlong : ¬ isShorter i.buffer Wire.headerWidth = true := by
    rw [isShorter_iff]
    omega
  simp only [next, h, hlong, hr, if_false, Bool.false_eq_true]

/-- Only the first bytes of a buffer matter to its header. -/
theorem readHeader_append (h : Wire.headerWidth ≤ buffer.length) (b : Bytes) :
    readHeader magic (buffer ++ b) = readHeader magic buffer := by
  rw [readHeader, readHeader, List.take_append_of_le_length h]

/-- What stands at the front: too little for a header, a bad header, or what a good header, stored
or read just now, makes of the buffer. More bytes change only the first of these. -/
theorem next_append_cases (i : Inbox) (magic : Magic) :
    i.header = none ∧ i.next magic = .incomplete none ∨
    (∃ e, i.next magic = .rejected e ∧ ∀ b, (i.append b).next magic = .rejected e) ∨
    ∃ header, i.next magic = frameOf header i.buffer ∧
      (∀ b, (i.append b).next magic = frameOf header (i.buffer ++ b)) := by
  cases hi : i.header with
  | some stored =>
    exact Or.inr (Or.inr ⟨stored, next_of_header hi, fun b => next_of_header (i := i.append b) hi⟩)
  | none =>
    rcases Nat.lt_or_ge i.buffer.length Wire.headerWidth with hlt | hge
    · exact Or.inl ⟨rfl, next_of_lt hi hlt⟩
    · have hmore : ∀ b, Wire.headerWidth ≤ (i.append b).buffer.length := by
        intro b
        rw [buffer_append, List.length_append]
        omega
      cases hr : readHeader magic i.buffer with
      | error e =>
        refine Or.inr (Or.inl ⟨e, next_of_badHeader hi hge hr, fun b => ?_⟩)
        exact next_of_badHeader hi (hmore b) (by rw [buffer_append, readHeader_append hge, hr])
      | ok header =>
        refine Or.inr (Or.inr ⟨header, next_of_goodHeader hi hge hr, fun b => ?_⟩)
        exact next_of_goodHeader hi (hmore b) (by rw [buffer_append, readHeader_append hge, hr])

theorem next_append_of_frame {payload rest : Bytes}
    (h : i.next magic = .frame header payload rest) (b : Bytes) :
    (i.append b).next magic = .frame header payload (rest ++ b) := by
  rcases next_append_cases i magic with ⟨-, hn⟩ | ⟨e, hn, -⟩ | ⟨good, hn, hmore⟩
  · exact absurd (hn.symm.trans h) (by simp)
  · exact absurd (hn.symm.trans h) (by simp)
  · rw [hmore, frameOf_append (hn.symm.trans h)]

theorem next_append_of_rejected {e : ConnectionError} (h : i.next magic = .rejected e)
    (b : Bytes) : (i.append b).next magic = .rejected e := by
  rcases next_append_cases i magic with ⟨-, hn⟩ | ⟨e', hn, hmore⟩ | ⟨good, hn, -⟩
  · exact absurd (hn.symm.trans h) (by simp)
  · rw [hmore, ← hn, h]
  · exact absurd (hn.symm.trans h) ne_rejected_of_frameOf

/-- A bad header is never stored. -/
theorem header_of_rejected {e : ConnectionError} (h : i.next magic = .rejected e) :
    i.header = none := by
  cases hi : i.header with
  | none => rfl
  | some stored =>
    rw [next_of_header hi] at h
    exact absurd h ne_rejected_of_frameOf

/-- A header that was read and stored makes no difference to what is found later. -/
theorem next_append_of_incomplete {h : Option Header} (hn : i.next magic = .incomplete h)
    (b : Bytes) : (Inbox.append { i with header := h } b).next magic = (i.append b).next magic := by
  rcases next_append_cases i magic with ⟨hi, hn'⟩ | ⟨e, hn', -⟩ | ⟨good, hn', hmore⟩
  · have : h = i.header := by simpa [hi] using hn.symm.trans hn'
    rw [this]
  · exact absurd (hn'.symm.trans hn) (by simp)
  · rw [hmore, next_of_header (eq_of_frameOf_incomplete (hn'.symm.trans hn))]
    rfl

end Inbox

namespace Fed

@[simp] theorem after_session (f : Fed) (events : List PeerEvent)
    (notices : List ConnectionNotice) : (f.after events notices).session = f.session := rfl

@[simp] theorem after_inbox (f : Fed) (events : List PeerEvent)
    (notices : List ConnectionNotice) : (f.after events notices).inbox = f.inbox := rfl

@[simp] theorem after_result (f : Fed) (events : List PeerEvent)
    (notices : List ConnectionNotice) : (f.after events notices).result = f.result := rfl

@[simp] theorem after_events (f : Fed) (events : List PeerEvent)
    (notices : List ConnectionNotice) : (f.after events notices).events = events ++ f.events := rfl

@[simp] theorem after_notices (f : Fed) (events : List PeerEvent)
    (notices : List ConnectionNotice) : (f.after events notices).notices = notices ++ f.notices :=
  rfl

@[simp] theorem after_nil (f : Fed) : f.after [] [] = f := rfl

theorem after_after (f : Fed) (events₁ events₂ : List PeerEvent)
    (notices₁ notices₂ : List ConnectionNotice) :
    (f.after events₂ notices₂).after events₁ notices₁ =
      f.after (events₁ ++ events₂) (notices₁ ++ notices₂) := by
  simp [after]

end Fed

namespace Session

variable {s : Session} {i : Inbox} {header : Header}

/-! ## Feeding an inbox, by what stands at its front -/

theorem feed_of_incomplete {h : Option Header} (hn : i.next s.config.magic = .incomplete h) :
    s.feed i = { session := s, inbox := { i with header := h } } := by
  rw [feed]
  split <;> simp_all

theorem feed_of_rejected {e : ConnectionError} (hn : i.next s.config.magic = .rejected e) :
    s.feed i = { session := s, inbox := i, result := .error e } := by
  rw [feed]
  split <;> simp_all

theorem feed_of_refused {payload rest : Bytes} {e : ConnectionError}
    (hn : i.next s.config.magic = .frame header payload rest)
    (hh : s.handle header payload = .error e) :
    s.feed i = { session := s, inbox := { buffer := rest }, result := .error e } := by
  rw [feed]
  split <;> simp_all

theorem feed_of_handled {payload rest : Bytes} {r : Handled}
    (hn : i.next s.config.magic = .frame header payload rest)
    (hh : s.handle header payload = .ok r) :
    s.feed i = (r.session.feed { buffer := rest }).after r.events r.notices := by
  rw [feed]
  split <;> simp_all

/-- Nothing but what stands at the front, and the bytes behind it, matters to a feed. -/
theorem feed_congr {i j : Inbox} (hn : i.next s.config.magic = j.next s.config.magic)
    (hb : i.buffer = j.buffer) : s.feed i = s.feed j := by
  cases hj : j.next s.config.magic with
  | incomplete h =>
    rw [feed_of_incomplete (hn.trans hj), feed_of_incomplete hj, hb]
  | rejected e =>
    have hi := Inbox.header_of_rejected (hn.trans hj)
    have hj' := Inbox.header_of_rejected hj
    obtain ⟨buffer, header⟩ := i
    obtain ⟨buffer', header'⟩ := j
    simp only at hb hi hj'
    rw [hb, hi, hj']
  | frame header payload rest =>
    cases hh : s.handle header payload with
    | error e => rw [feed_of_refused (hn.trans hj) hh, feed_of_refused hj hh]
    | ok r => rw [feed_of_handled (hn.trans hj) hh, feed_of_handled hj hh]

/-! ## Feeding more -/

end Session

/-- What becomes of bytes that arrive after an inbox was fed: they are fed as well, unless
something was refused; then they wait behind it. -/
def Fed.resume (f : Fed) (b : Bytes) : Fed :=
  match f.result with
  | .ok () => (f.session.feed (f.inbox.append b)).after f.events f.notices
  | .error _ => { f with inbox := f.inbox.append b }

namespace Fed

theorem resume_of_ok {f : Fed} (h : f.result = .ok ()) (b : Bytes) :
    f.resume b = (f.session.feed (f.inbox.append b)).after f.events f.notices := by
  simp only [resume, h]

theorem resume_of_error {f : Fed} {e : ConnectionError} (h : f.result = .error e) (b : Bytes) :
    f.resume b = { f with inbox := f.inbox.append b } := by
  simp only [resume, h]

theorem resume_after (f : Fed) (events : List PeerEvent) (notices : List ConnectionNotice)
    (b : Bytes) : (f.after events notices).resume b = (f.resume b).after events notices := by
  cases h : f.result with
  | ok u => rw [resume_of_ok (f := f.after events notices) h, resume_of_ok h, after_after]; rfl
  | error e => rw [resume_of_error (f := f.after events notices) h, resume_of_error h]; rfl

end Fed

/-- Feeding an inbox and then more bytes is feeding it all of them. -/
theorem Session.feed_append (s : Session) (i : Inbox) (b : Bytes) :
    s.feed (i.append b) = (s.feed i).resume b := by
  -- what follows a frame is shorter than what began with it
  induction hn : i.buffer.length using Nat.strongRecOn generalizing s i with
  | _ n ih =>
    cases hf : i.next s.config.magic with
    | incomplete h =>
      -- a header that was stored on one side is read again on the other
      rw [feed_of_incomplete hf, Fed.resume_of_ok rfl, Fed.after_nil]
      exact feed_congr (Inbox.next_append_of_incomplete hf b).symm rfl
    | rejected e =>
      rw [feed_of_rejected hf, feed_of_rejected (Inbox.next_append_of_rejected hf b),
        Fed.resume_of_error rfl]
    | frame header payload rest =>
      have hlt : rest.length < n := hn ▸ Inbox.length_rest_lt_of_next hf
      have hf' := Inbox.next_append_of_frame hf b
      cases hh : s.handle header payload with
      | error e => rw [feed_of_refused hf hh, feed_of_refused hf' hh, Fed.resume_of_error rfl]; rfl
      | ok r =>
        rw [feed_of_handled hf hh, feed_of_handled hf' hh, Fed.resume_after,
          ← ih rest.length hlt r.session { buffer := rest } rfl]
        rfl

end PeerCrawl
