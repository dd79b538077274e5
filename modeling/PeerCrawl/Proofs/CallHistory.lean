import PeerCrawl.Proofs.Conservation

set_option autoImplicit false

/-! # What the calls of a crawl come to

The history of a network stack holds every call, and why it failed if it did. Read from it here are
the sockets that were registered and forgotten again, what each tag is watched for, and the address
that was dialed for a tag. Each kind of call adds to the history at its end
(`NetworkStack.request_history`, `dial_cases`, `wait_history`), and each view of an extended history
is that of the old one with that of the new calls behind it. -/

namespace PeerCrawl

/-! ## Views of one call -/

namespace Request

/-- The socket and the tag of a registration. -/
def registration? (r : Request) : Option (Nat × Tag) :=
  match r.call with
  | .register socket tag _ => some (socket, tag)
  | _ => none

/-- The socket that is to be forgotten. -/
def deregistration? (r : Request) : Option Nat :=
  match r.call with
  | .deregister socket => some socket
  | _ => none

/-- What a tag is watched for after a call that succeeded in changing that. -/
def grant? (tag : Tag) (r : Request) : Option Interest :=
  match r.failure, r.call with
  | none, .register _ t interest | none, .reregister _ t interest =>
    if t = tag then some interest else none
  | _, _ => none

/-- A change of what a tag is watched for, which failed. -/
def FailedChange (tag : Tag) (r : Request) : Prop :=
  r.failure ≠ none ∧ ∃ socket interest, r.call = .reregister socket tag interest

/-- The call neither registers nor forgets a socket, and changes nobody's interest. -/
structure Neutral (r : Request) : Prop where
  registration : r.registration? = none
  deregistration : r.deregistration? = none
  grant : ∀ tag, r.grant? tag = none

theorem neutral_wait (capacity : Nat) (timeout : Duration) (failure : Option IoError) :
    Neutral ⟨.wait capacity timeout, failure⟩ :=
  ⟨rfl, rfl, fun _ => by cases failure <;> rfl⟩

end Request

namespace NetworkStack

/-! ## Views of a history -/

/-- The sockets that were to be registered, with their tags, in order. -/
def attempts (n : NetworkStack) : List (Nat × Tag) := n.history.filterMap Request.registration?

/-- Those of them whose registration succeeded. -/
def registrations (n : NetworkStack) : List (Nat × Tag) :=
  (n.history.filter fun r => r.failure = none).filterMap Request.registration?

/-- Those of them whose registration failed. -/
def rejections (n : NetworkStack) : List (Nat × Tag) :=
  (n.history.filter fun r => ¬ r.failure = none).filterMap Request.registration?

/-- The sockets that were to be forgotten, whether or not that succeeded. -/
def deregistrations (n : NetworkStack) : List Nat := n.history.filterMap Request.deregistration?

/-- The sockets, with their tags, that were registered and not forgotten since. -/
def registered (n : NetworkStack) : List (Nat × Tag) :=
  n.registrations.filter fun r => r.1 ∉ n.deregistrations

/-- What the last call that succeeded has a tag watched for. -/
def interest (n : NetworkStack) (tag : Tag) : Option Interest :=
  n.history.reverse.findSome? (Request.grant? tag)

/-- The dial of an address has opened the socket that was then registered under a tag. -/
def DialedFor (n : NetworkStack) (a : Address) (tag : Tag) : Prop :=
  ∃ before socket interest failure after, n.history =
    before ++ ⟨.dial a, none⟩ :: ⟨.register socket tag interest, failure⟩ :: after

variable {n n' : NetworkStack} {made : List Request}

theorem attempts_of_history (h : n'.history = n.history ++ made) :
    n'.attempts = n.attempts ++ made.filterMap Request.registration? := by
  rw [attempts, h, List.filterMap_append, attempts]

theorem registrations_of_history (h : n'.history = n.history ++ made) :
    n'.registrations = n.registrations ++
      (made.filter fun r => r.failure = none).filterMap Request.registration? := by
  rw [registrations, h, List.filter_append, List.filterMap_append, registrations]

theorem deregistrations_of_history (h : n'.history = n.history ++ made) :
    n'.deregistrations = n.deregistrations ++ made.filterMap Request.deregistration? := by
  rw [deregistrations, h, List.filterMap_append, deregistrations]

theorem interest_of_history (h : n'.history = n.history ++ made) (tag : Tag) :
    n'.interest tag = (made.reverse.findSome? (Request.grant? tag)).or (n.interest tag) := by
  rw [interest, h, List.reverse_append, List.findSome?_append, interest]

theorem DialedFor.of_history {a : Address} {tag : Tag} (h : n.DialedFor a tag)
    (hhistory : n'.history = n.history ++ made) : n'.DialedFor a tag := by
  obtain ⟨before, socket, interest, failure, after, hn⟩ := h
  refine ⟨before, socket, interest, failure, after ++ made, ?_⟩
  rw [hhistory, hn, List.append_assoc]
  rfl

/-- Two places of a history at which an address was dialed for one tag, the second after the first
or the same, are the same if no tag was registered twice. -/
theorem dialed_unique {a b : Address} {tag : Tag} {before between after after' : List Request}
    {socket socket' : Nat} {interest interest' : Interest} {failure failure' : Option IoError}
    (hnodup : (n.attempts.map Prod.snd).Nodup)
    (hn : n.history = before ++ between ++
      ⟨.dial b, none⟩ :: ⟨.register socket' tag interest', failure'⟩ :: after')
    (hbetween : ⟨.dial a, none⟩ :: ⟨.register socket tag interest, failure⟩ :: after =
      between ++ ⟨.dial b, none⟩ :: ⟨.register socket' tag interest', failure'⟩ :: after') :
    a = b := by
  rcases between with _ | ⟨first, _ | ⟨second, between⟩⟩
  · simp only [List.nil_append, List.cons.injEq, Request.mk.injEq, Call.dial.injEq] at hbetween
    exact hbetween.1.1
  · simp at hbetween
  · -- the tag would have been registered at both places
    simp only [List.cons_append, List.cons.injEq] at hbetween
    simp [attempts, hn, ← hbetween.1, ← hbetween.2.1, List.filterMap_cons, Request.registration?,
      List.nodup_append] at hnodup

/-- If no tag was registered twice, one address was dialed for it. -/
theorem DialedFor.unique {a b : Address} {tag : Tag} (ha : n.DialedFor a tag)
    (hb : n.DialedFor b tag) (hnodup : (n.attempts.map Prod.snd).Nodup) : a = b := by
  obtain ⟨before, socket, interest, failure, after, hn⟩ := ha
  obtain ⟨before', socket', interest', failure', after', hn'⟩ := hb
  rcases List.append_eq_append_iff.1 (hn.symm.trans hn') with
    ⟨between, rfl, hbetween⟩ | ⟨between, rfl, hbetween⟩
  · exact dialed_unique hnodup hn' hbetween
  · exact (dialed_unique hnodup hn hbetween).symm

/-- A registration either succeeded or failed. -/
theorem registrations_append_rejections (n : NetworkStack) :
    (n.registrations ++ n.rejections).Perm n.attempts := by
  rw [registrations, rejections, ← List.filterMap_append]
  refine List.Perm.filterMap _ ?_
  have hperm := List.filter_append_perm (fun r : Request => decide (r.failure = none)) n.history
  simpa only [decide_not] using hperm

theorem registrations_sublist (n : NetworkStack) : n.registrations.Sublist n.attempts :=
  List.filter_sublist.filterMap _

theorem registered_sublist (n : NetworkStack) : n.registered.Sublist n.attempts :=
  List.filter_sublist.trans n.registrations_sublist

/-- Calls that are neutral leave every view as it is. -/
theorem views_of_neutral (h : n'.history = n.history ++ made) (hmade : ∀ r ∈ made, r.Neutral) :
    n'.attempts = n.attempts ∧ n'.registrations = n.registrations ∧
      n'.deregistrations = n.deregistrations ∧ ∀ tag, n'.interest tag = n.interest tag := by
  have hattempts : made.filterMap Request.registration? = [] :=
    List.filterMap_eq_nil_iff.2 fun r hr => (hmade r hr).registration
  have hregistrations :
      (made.filter fun r => r.failure = none).filterMap Request.registration? = [] :=
    List.filterMap_eq_nil_iff.2 fun r hr => (hmade r (List.mem_filter.1 hr).1).registration
  have hderegistrations : made.filterMap Request.deregistration? = [] :=
    List.filterMap_eq_nil_iff.2 fun r hr => (hmade r hr).deregistration
  have hinterest : ∀ tag, made.reverse.findSome? (Request.grant? tag) = none := fun tag =>
    List.findSome?_eq_none_iff.2 fun r hr => (hmade r (List.mem_reverse.1 hr)).grant tag
  refine ⟨?_, ?_, ?_, fun tag => ?_⟩
  · rw [attempts_of_history h, hattempts, List.append_nil]
  · rw [registrations_of_history h, hregistrations, List.append_nil]
  · rw [deregistrations_of_history h, hderegistrations, List.append_nil]
  · rw [interest_of_history h, hinterest, Option.none_or]

/-- A socket was forgotten and closed. -/
theorem views_of_forgotten {socket : Nat} {failure : Option IoError}
    (h : n'.history = n.history ++ [⟨.deregister socket, failure⟩, ⟨.close socket, none⟩]) :
    n'.attempts = n.attempts ∧ n'.registrations = n.registrations ∧
      n'.deregistrations = n.deregistrations ++ [socket] ∧
      ∀ tag, n'.interest tag = n.interest tag := by
  refine ⟨?_, ?_, deregistrations_of_history h, fun tag => ?_⟩
  · rw [attempts_of_history h]
    exact List.append_nil _
  · rw [registrations_of_history h]
    cases failure <;> exact List.append_nil _
  · rw [interest_of_history h]
    cases failure <;> rfl

/-- A socket was opened, and its registration failed. -/
theorem views_of_rejected {a : Address} {socket : Nat} {tag : Tag} {error : IoError}
    (h : n'.history = n.history ++ [⟨.dial a, none⟩, ⟨.register socket tag .readWrite, some error⟩,
      ⟨.close socket, none⟩]) :
    n'.attempts = n.attempts ++ [(socket, tag)] ∧ n'.registrations = n.registrations ∧
      n'.deregistrations = n.deregistrations ∧ ∀ other, n'.interest other = n.interest other := by
  refine ⟨attempts_of_history h, ?_, ?_, fun other => ?_⟩
  · rw [registrations_of_history h]
    exact List.append_nil _
  · rw [deregistrations_of_history h]
    exact List.append_nil _
  · rw [interest_of_history h]
    rfl

/-- A socket was opened and registered. -/
theorem views_of_registered {a : Address} {socket : Nat} {tag : Tag}
    (h : n'.history = n.history ++ [⟨.dial a, none⟩, ⟨.register socket tag .readWrite, none⟩]) :
    n'.attempts = n.attempts ++ [(socket, tag)] ∧
      n'.registrations = n.registrations ++ [(socket, tag)] ∧
      n'.deregistrations = n.deregistrations ∧
      ∀ other, n'.interest other = if tag = other then some .readWrite else n.interest other := by
  refine ⟨attempts_of_history h, registrations_of_history h, ?_, fun other => ?_⟩
  · rw [deregistrations_of_history h]
    exact List.append_nil _
  · rw [interest_of_history h]
    by_cases heq : tag = other <;> simp [Request.grant?, heq]

/-- The interest of a tag was changed. -/
theorem views_of_changed {socket : Nat} {tag : Tag} {interest : Interest}
    (h : n'.history = n.history ++ [⟨.reregister socket tag interest, none⟩]) :
    n'.attempts = n.attempts ∧ n'.registrations = n.registrations ∧
      n'.deregistrations = n.deregistrations ∧
      ∀ other, n'.interest other = if tag = other then some interest else n.interest other := by
  refine ⟨?_, ?_, ?_, fun other => ?_⟩
  · rw [attempts_of_history h]
    exact List.append_nil _
  · rw [registrations_of_history h]
    exact List.append_nil _
  · rw [deregistrations_of_history h]
    exact List.append_nil _
  · rw [interest_of_history h]
    by_cases heq : tag = other <;> simp [Request.grant?, heq]

/-! ## What each call adds -/

theorem opened_failureFor (n : NetworkStack) (call : Call) :
    (n.failureFor call).2.opened = n.opened := by
  unfold failureFor
  dsimp only
  split <;> rfl

theorem request_history (n : NetworkStack) (call : Call) :
    (n.request call).2.history = n.history ++ [⟨call, (n.request call).1⟩] ∧
      (n.request call).2.opened = n.opened := by
  have hhistory := n.history_failureFor call
  have hopened := n.opened_failureFor call
  refine ⟨?_, hopened⟩
  show (n.failureFor call).2.history ++ _ = _
  rw [hhistory]
  rfl

theorem opened_nextDial (n : NetworkStack) (a : Address) :
    (n.nextDial a).2.opened = n.opened := by
  have hopened := n.opened_failureFor (.dial a)
  unfold nextDial
  split <;> rename_i h <;> rw [h] at hopened <;> exact hopened

/-- A dial fails, or it opens the next socket. -/
theorem dial_cases (n : NetworkStack) (a : Address) :
    (∃ error net, n.dial a = (.error error, net) ∧
      net.history = n.history ++ [⟨.dial a, some error⟩] ∧ net.opened = n.opened) ∨
    ∃ socket complete net, n.dial a = (.ok (socket, complete), net) ∧ socket.number = n.opened ∧
      net.history = n.history ++ [⟨.dial a, none⟩] ∧ net.opened = n.opened + 1 := by
  have hhistory := n.history_nextDial a
  have hopened := n.opened_nextDial a
  rcases hnext : n.nextDial a with ⟨outcome, net⟩
  rw [hnext] at hhistory hopened
  dsimp only at hhistory hopened
  have hrecord : ∀ failure, (net.record (.dial a) failure).history =
      n.history ++ [⟨.dial a, failure⟩] := by
    intro failure
    rw [← hhistory]
    rfl
  have hcount : net.opened + 1 = n.opened + 1 := by rw [hopened]
  simp only [dial, hnext]
  cases outcome with
  | failed error => exact .inl ⟨error, _, rfl, hrecord (some error), hopened⟩
  | inProgress => exact .inr ⟨_, false, _, rfl, hopened, hrecord none, hcount⟩
  | established => exact .inr ⟨_, true, _, rfl, hopened, hrecord none, hcount⟩

theorem wait_history (n : NetworkStack) (buffer : List Readiness) (capacity : Nat)
    (timeout : Duration) :
    (n.wait buffer capacity timeout).2.2.history =
        n.history ++ [⟨.wait capacity timeout, (n.wait buffer capacity timeout).1⟩] ∧
      (n.wait buffer capacity timeout).2.2.opened = n.opened := by
  obtain ⟨hhistory, hopened⟩ := n.request_history (.wait capacity timeout)
  rcases hrequest : n.request (.wait capacity timeout) with ⟨_ | error, net⟩ <;>
  · rw [hrequest] at hhistory hopened
    simp only [wait, hrequest]
    exact ⟨hhistory, hopened⟩

end NetworkStack

end PeerCrawl
