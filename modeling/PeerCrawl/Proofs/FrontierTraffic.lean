import Mathlib.Data.List.Dedup
import Mathlib.Data.List.Perm.Basic
import PeerCrawl.Crawl.SharedFrontier
import PeerCrawl.Proofs.Offers

set_option autoImplicit false

/-! # Traffic at a frontier

Any number of callers use a frontier at once: they offer addresses, drain batches, waiting for them
if they may, and ask how many addresses wait or were seen. What each caller does at a time is an
`Access`, and `Exchange.step` carries it out: a call is one access, but an offer that accepts its
address reports it in an access of its own, and a drain that waits looks again in another one. The
log of an exchange holds what the calls were answered. Every entry is right, given those before it
(`Entry.Right`), and the log accounts for every address (`Exchange.traffic`). -/

namespace PeerCrawl

/-! ## Frontiers that are shared -/

/-- What a drain comes to at a frontier, and what it leaves there. -/
inductive Frontier.Drains (f : Frontier) (max : Nat) : DrainStep → Frontier → Prop
  | refused (h : max = 0) : Drains f max (.refused .zeroCount) f
  | waits (h : f.pending = []) : Drains f max .waits f
  | batch (h : 0 < max) : Drains f max (.batch (f.pending.take max))
      { f with pending := f.pending.drop max }

namespace SharedFrontier

theorem frontier_notifyOne (s : SharedFrontier) (pick : Nat) :
    (s.notifyOne pick).frontier = s.frontier := by
  unfold notifyOne
  dsimp only
  split <;> rfl

theorem offer_eq (s : SharedFrontier) (a : Address) (pick : Nat) :
    (s.offer a pick).1 = (s.frontier.offer a).fresh ∧
      (s.offer a pick).2.frontier = (s.frontier.offer a).frontier := by
  unfold offer
  refine ⟨rfl, ?_⟩
  dsimp only
  split
  · exact frontier_notifyOne _ pick
  · rfl

theorem collect_drains (s : SharedFrontier) (max pick : Nat) :
    s.frontier.Drains max (s.collect max pick).1 (s.collect max pick).2.frontier := by
  by_cases hzero : max = 0
  · simp only [collect, Frontier.drain, if_pos hzero]
    exact .refused hzero
  · simp only [collect, Frontier.drain, if_neg hzero]
    have hbatch := Frontier.Drains.batch (f := s.frontier) (Nat.pos_of_ne_zero hzero)
    split
    · exact hbatch
    · rw [frontier_notifyOne]
      exact hbatch

theorem enter_drains (s : SharedFrontier) (consumer : Consumer) (block : Bool) (pick : Nat) :
    s.frontier.Drains consumer.max (s.enter consumer block pick).1
      (s.enter consumer block pick).2.frontier := by
  unfold enter
  split
  · next hzero => exact .refused hzero
  split
  · next hempty => exact .waits (List.isEmpty_iff.1 hempty.2)
  · exact s.collect_drains consumer.max pick

/-- A consumer that was woken looks again. -/
theorem resume_drains {s s' : SharedFrontier} {place pick : Nat} {consumer : Consumer}
    {result : DrainStep} (hconsumer : s.notified[place]? = some consumer)
    (h : s.resume place pick = some (result, s')) :
    s.frontier.Drains consumer.max result s'.frontier := by
  rw [resume, hconsumer, Option.map_some, Option.some.injEq] at h
  dsimp only at h
  split at h
  · next hempty =>
    obtain ⟨rfl, rfl⟩ := Prod.mk.inj h
    exact .waits (List.isEmpty_iff.1 hempty)
  · have hcollect := collect_drains { s with notified := s.notified.eraseIdx place }
      consumer.max pick
    rw [h] at hcollect
    exact hcollect

end SharedFrontier

/-! ## Logs -/

/-- What a call was answered, or what it has reported. -/
inductive Entry where
  | offered (address : Address) (fresh : Bool)
  /-- A drain of at most `max` addresses has taken a batch. -/
  | drained (max : Nat) (batch : List Address)
  | refused (max : Nat) (error : FrontierError)
  /-- A drain has found nothing, and waits. -/
  | waits (max : Nat)
  | size (count : Nat)
  | seen (count : Nat)
  | reported (report : Report)

namespace Entry

/-- What a drain was answered. -/
def ofDrain (max : Nat) : DrainStep → Entry
  | .refused error => refused max error
  | .waits => waits max
  | .batch batch => drained max batch

def offer? : Entry → Option Address
  | offered a _ => some a
  | _ => none

def accepted? : Entry → Option Address
  | offered a true => some a
  | _ => none

def batch : Entry → List Address
  | drained _ batch => batch
  | _ => []

def report? : Entry → Option Report
  | reported r => some r
  | _ => none

end Entry

/-- The addresses that were offered, in order. -/
def offersIn (log : List Entry) : List Address := log.filterMap Entry.offer?

/-- Those of them whose offer was answered by true. -/
def acceptedIn (log : List Entry) : List Address := log.filterMap Entry.accepted?

/-- The addresses that were drained, in order. -/
def drainedIn (log : List Entry) : List Address := log.flatMap Entry.batch

def reportsIn (log : List Entry) : List Report := log.filterMap Entry.report?

/-- What a call may be answered, or report, after what was logged before. -/
def Entry.Right (before : List Entry) : Entry → Prop
  /- The host is new. -/
  | offered a fresh => fresh = true ↔ ∀ b ∈ offersIn before, b.raw ≠ a.raw
  /- The batch is at the front of what waits, and is not short unless it leaves nothing. -/
  | drained max batch => 1 ≤ max ∧ batch.length ≤ max ∧
      drainedIn before ++ batch <+: acceptedIn before ∧
      (batch.length < max → drainedIn before ++ batch = acceptedIn before)
  | refused max error => max = 0 ∧ error = .zeroCount
  | waits _ => drainedIn before = acceptedIn before
  | size count => (drainedIn before).length + count = (acceptedIn before).length
  /- Every host that was offered counts, and counts once. -/
  | seen count => count = ((offersIn before).map Address.raw).dedup.length
  | reported r => ∃ a ∈ acceptedIn before, r = .newAddress a

/-! ## Exchanges -/

/-- What a caller does at a time. -/
inductive Access where
  | offer (address : Address) (pick : Nat)
  | drain (consumer : Consumer) (block : Bool) (pick : Nat)
  /-- The woken consumer at a place looks again. -/
  | resume (place pick : Nat)
  /-- The caller at a place, whose offer was accepted, reports that. -/
  | report (place : Nat)
  | size
  | seen

/-- A frontier and its callers. -/
structure Exchange where
  shared : SharedFrontier
  /-- What accepted offers are still to report. -/
  due : List Report := []
  log : List Entry := []

namespace Exchange

/-- A frontier that nobody has used. -/
def fresh (reporting : Bool) : Exchange where
  shared := { frontier := { reporting } }

def step (x : Exchange) : Access → Exchange
  | .offer a pick =>
    { shared := (x.shared.offer a pick).2
      due := x.due ++ (x.shared.frontier.offer a).reports
      log := x.log ++ [.offered a (x.shared.offer a pick).1] }
  | .drain consumer block pick =>
    { x with
      shared := (x.shared.enter consumer block pick).2
      log := x.log ++ [.ofDrain consumer.max (x.shared.enter consumer block pick).1] }
  | .resume place pick =>
    match x.shared.notified[place]?, x.shared.resume place pick with
    | some consumer, some (result, shared) =>
      { x with shared, log := x.log ++ [.ofDrain consumer.max result] }
    | _, _ => x
  | .report place =>
    match x.due[place]? with
    | some r => { x with due := x.due.eraseIdx place, log := x.log ++ [.reported r] }
    | none => x
  | .size => { x with log := x.log ++ [.size x.shared.frontier.pending.length] }
  | .seen => { x with log := x.log ++ [.seen x.shared.frontier.seen] }

def run (x : Exchange) (accesses : List Access) : Exchange := accesses.foldl step x

/-- No offer begins while another one has yet to report. -/
def Orderly (x : Exchange) : List Access → Prop
  | [] => True
  | access :: rest =>
    ((∃ a pick, access = .offer a pick) → x.due = []) ∧ (x.step access).Orderly rest

end Exchange

/-! ## One more entry -/

section Logs

variable {log : List Entry} {e : Entry}

theorem filterMap_concat {α : Type} (view : Entry → Option α) (log : List Entry) (e : Entry) :
    (log ++ [e]).filterMap view = log.filterMap view ++ (view e).toList := by
  rw [List.filterMap_append]
  cases h : view e with
  | none => rw [List.filterMap_cons_none h]; rfl
  | some a => rw [List.filterMap_cons_some h]; rfl

theorem offersIn_append (log : List Entry) (e : Entry) :
    offersIn (log ++ [e]) = offersIn log ++ e.offer?.toList :=
  filterMap_concat Entry.offer? log e

theorem acceptedIn_append (log : List Entry) (e : Entry) :
    acceptedIn (log ++ [e]) = acceptedIn log ++ e.accepted?.toList :=
  filterMap_concat Entry.accepted? log e

theorem reportsIn_append (log : List Entry) (e : Entry) :
    reportsIn (log ++ [e]) = reportsIn log ++ e.report?.toList :=
  filterMap_concat Entry.report? log e

theorem drainedIn_append (log : List Entry) (e : Entry) :
    drainedIn (log ++ [e]) = drainedIn log ++ e.batch := by
  rw [drainedIn, List.flatMap_append, ← drainedIn, List.flatMap_singleton]

/-- Every entry of a log is right. -/
def AllRight (log : List Entry) : Prop :=
  ∀ before e after, log = before ++ e :: after → e.Right before

theorem AllRight.append (h : AllRight log) (he : e.Right log) : AllRight (log ++ [e]) := by
  intro before e' after hlog
  rcases List.eq_nil_or_concat after with rfl | ⟨after', last, rfl⟩
  · obtain ⟨rfl, hlast⟩ := List.append_inj' hlog rfl
    rw [← (List.cons.inj hlast).1]
    exact he
  · rw [List.concat_eq_append, ← List.cons_append, ← List.append_assoc] at hlog
    exact h before e' after' (List.append_inj' hlog rfl).1

end Logs

/-! ## What was accepted -/

namespace Accepts

variable {offered accepted : List Address}

theorem exists_iff (h : Accepts offered accepted) (a : Address) :
    (∃ b ∈ accepted, b.raw = a.raw) ↔ ∃ b ∈ offered, b.raw = a.raw := by
  constructor
  · rintro ⟨b, hb, hraw⟩
    exact ⟨b, h.sublist.subset hb, hraw⟩
  · rintro ⟨b, hb, hraw⟩
    obtain ⟨c, hc, hsame⟩ := h.complete b hb
    exact ⟨c, hc, hsame.trans hraw⟩

/-- As many addresses are accepted as there are hosts that were offered. -/
theorem length_eq (h : Accepts offered accepted) :
    accepted.length = (offered.map Address.raw).dedup.length := by
  have hnodup : (accepted.map Address.raw).Nodup := List.pairwise_map.2 h.distinct
  have hperm : (accepted.map Address.raw).Perm (offered.map Address.raw).dedup := by
    refine (List.perm_ext_iff_of_nodup hnodup (List.nodup_dedup _)).2 fun raw => ?_
    rw [List.mem_dedup, List.mem_map, List.mem_map]
    constructor
    · rintro ⟨a, ha, rfl⟩
      exact ⟨a, h.sublist.subset ha, rfl⟩
    · rintro ⟨a, ha, rfl⟩
      exact h.complete a ha
  rw [← hperm.length_eq, List.length_map]

end Accepts

/-- What a frontier reports of accepted addresses. -/
def Frontier.reportsOf (reporting : Bool) (accepted : List Address) : List Report :=
  if reporting then accepted.map .newAddress else []

theorem Frontier.reportsOf_nil (reporting : Bool) : reportsOf reporting [] = [] := by
  cases reporting <;> rfl

theorem Frontier.reportsOf_append (reporting : Bool) (accepted more : List Address) :
    reportsOf reporting (accepted ++ more) =
      reportsOf reporting accepted ++ reportsOf reporting more := by
  cases reporting with
  | true => exact List.map_append
  | false => rfl

theorem Frontier.mem_reportsOf {reporting : Bool} {accepted : List Address} {r : Report}
    (h : r ∈ reportsOf reporting accepted) : ∃ a ∈ accepted, r = .newAddress a := by
  cases reporting with
  | true =>
    obtain ⟨a, ha, rfl⟩ := List.mem_map.1 h
    exact ⟨a, ha, rfl⟩
  | false => exact absurd h List.not_mem_nil

/-- An offer changes nothing, or its address is accepted and reported. -/
theorem Frontier.offer_cases (f : Frontier) (a : Address) :
    f.knows a = true ∧ (f.offer a).fresh = false ∧ (f.offer a).frontier = f ∧
        (f.offer a).reports = [] ∨
      ¬ f.knows a = true ∧ (f.offer a).fresh = true ∧
        (f.offer a).frontier =
          { f with accepted := f.accepted ++ [a], pending := f.pending ++ [a] } ∧
        (f.offer a).reports = reportsOf f.reporting [a] := by
  unfold offer
  split
  · next h => exact .inl ⟨h, rfl, rfl, rfl⟩
  · next h => exact .inr ⟨h, rfl, rfl, rfl⟩

/-! ## Steps -/

namespace Exchange

/-- The log accounts for what waits, for what was seen, and for what was reported. -/
structure Consistent (reporting : Bool) (x : Exchange) : Prop where
  reporter : x.shared.frontier.reporting = reporting
  accepted : x.shared.frontier.accepted = acceptedIn x.log
  drained : drainedIn x.log ++ x.shared.frontier.pending = acceptedIn x.log
  offered : Accepts (offersIn x.log) (acceptedIn x.log)
  reports : (reportsIn x.log ++ x.due).Perm (Frontier.reportsOf reporting (acceptedIn x.log))
  right : AllRight x.log

variable {reporting : Bool} {x : Exchange}

theorem consistent_fresh (reporting : Bool) : (fresh reporting).Consistent reporting where
  reporter := rfl
  accepted := rfl
  drained := rfl
  offered := Accepts.nil
  reports := by cases reporting <;> rfl
  right := fun before e after h => by simp [fresh] at h

/-- No offer: the addresses that are handed out were waiting, and what is reported was due. -/
theorem Consistent.other (h : x.Consistent reporting) {shared : SharedFrontier} {due : List Report}
    {e : Entry} (hreporter : shared.frontier.reporting = x.shared.frontier.reporting)
    (haccepted : shared.frontier.accepted = x.shared.frontier.accepted)
    (hoffer : e.offer? = none) (hnone : e.accepted? = none)
    (hpending : e.batch ++ shared.frontier.pending = x.shared.frontier.pending)
    (hdue : (e.report?.toList ++ due).Perm x.due) (he : e.Right x.log) :
    Consistent reporting { shared, due, log := x.log ++ [e] } := by
  have hsame : acceptedIn (x.log ++ [e]) = acceptedIn x.log := by
    rw [acceptedIn_append, hnone, Option.toList_none, List.append_nil]
  have hoffered : offersIn (x.log ++ [e]) = offersIn x.log := by
    rw [offersIn_append, hoffer, Option.toList_none, List.append_nil]
  refine ⟨hreporter.trans h.reporter, ?_, ?_, ?_, ?_, h.right.append he⟩
  · rw [hsame, haccepted]
    exact h.accepted
  · rw [hsame, drainedIn_append, List.append_assoc, hpending]
    exact h.drained
  · rw [hsame, hoffered]
    exact h.offered
  · rw [hsame, reportsIn_append, List.append_assoc]
    exact (hdue.append_left _).trans h.reports

/-- An offer accepts `more`: its address, or nothing. -/
theorem Consistent.accepts (h : x.Consistent reporting) {shared : SharedFrontier} {a : Address}
    {fresh : Bool} {more : List Address} {reports : List Report}
    (hfrontier : shared.frontier = { x.shared.frontier with
      accepted := x.shared.frontier.accepted ++ more
      pending := x.shared.frontier.pending ++ more })
    (hmore : (Entry.offered a fresh).accepted?.toList = more)
    (hreports : reports = Frontier.reportsOf reporting more)
    (hoffered : Accepts (offersIn x.log ++ [a]) (acceptedIn x.log ++ more))
    (hright : (Entry.offered a fresh).Right x.log) :
    Consistent reporting
      { shared, due := x.due ++ reports, log := x.log ++ [.offered a fresh] } := by
  have haccepted : acceptedIn (x.log ++ [.offered a fresh]) = acceptedIn x.log ++ more := by
    rw [acceptedIn_append, hmore]
  refine ⟨?_, ?_, ?_, ?_, ?_, h.right.append hright⟩
  · rw [hfrontier]
    exact h.reporter
  · rw [hfrontier, haccepted, ← h.accepted]
  · rw [hfrontier, haccepted, drainedIn_append, ← h.drained]
    simp only [Entry.batch, List.append_nil, List.append_assoc]
  · rw [haccepted, offersIn_append]
    exact hoffered
  · rw [haccepted, reportsIn_append, hreports, Frontier.reportsOf_append]
    simp only [Entry.report?, Option.toList_none, List.append_nil, ← List.append_assoc]
    exact h.reports.append_right _

theorem Consistent.offer (h : x.Consistent reporting) (a : Address) (pick : Nat) :
    (x.step (.offer a pick)).Consistent reporting := by
  obtain ⟨hfresh, hfrontier⟩ := x.shared.offer_eq a pick
  have hknows : x.shared.frontier.knows a = true ↔ ∃ b ∈ offersIn x.log, b.raw = a.raw := by
    rw [Frontier.knows_iff, h.accepted, h.offered.exists_iff]
  simp only [Exchange.step, hfresh]
  rcases x.shared.frontier.offer_cases a with
    ⟨hknown, hold, hsame, hreports⟩ | ⟨hunknown, hnew, hadded, hreports⟩
  · rw [hold, hreports]
    have hoffered := h.offered.again ((h.offered.exists_iff a).2 (hknows.1 hknown))
    refine h.accepts ?_ (show (Entry.offered a false).accepted?.toList = [] from rfl)
      (Frontier.reportsOf_nil reporting).symm ?_ ?_
    · rw [hfrontier, hsame, List.append_nil, List.append_nil]
    · rw [List.append_nil]
      exact hoffered
    · obtain ⟨b, hb, hraw⟩ := hknows.1 hknown
      exact ⟨fun hfalse => absurd hfalse nofun, fun hall => absurd hraw (hall b hb)⟩
  · rw [hnew, hreports, h.reporter]
    have hnone : ¬ ∃ b ∈ offersIn x.log, b.raw = a.raw := fun hex => hunknown (hknows.2 hex)
    refine h.accepts (hfrontier.trans hadded) rfl rfl
      (h.offered.fresh fun hex => hnone ((h.offered.exists_iff a).1 hex)) ?_
    exact ⟨fun _ b hb hraw => hnone ⟨b, hb, hraw⟩, fun _ => rfl⟩

theorem Consistent.drains (h : x.Consistent reporting) {shared : SharedFrontier} {max : Nat}
    {result : DrainStep} {frontier : Frontier}
    (hdrains : x.shared.frontier.Drains max result frontier)
    (hshared : shared.frontier = frontier) :
    Consistent reporting { x with shared, log := x.log ++ [.ofDrain max result] } := by
  have hreporter := congrArg Frontier.reporting hshared
  have haccepted := congrArg Frontier.accepted hshared
  have hpending := congrArg Frontier.pending hshared
  cases hdrains with
  | refused hzero =>
    exact h.other hreporter haccepted rfl rfl hpending (.refl _) ⟨hzero, rfl⟩
  | waits hempty =>
    refine h.other hreporter haccepted rfl rfl hpending (.refl _) ?_
    rw [Entry.ofDrain, Entry.Right, ← h.drained, hempty, List.append_nil]
  | batch hmax =>
    refine h.other hreporter haccepted rfl rfl ?_ (.refl _) ⟨hmax, ?_, ?_, ?_⟩
    · rw [hpending]
      exact List.take_append_drop max _
    · exact List.length_take_le _ _
    · rw [← h.drained, List.prefix_append_right_inj]
      exact List.take_prefix _ _
    · intro hshort
      rw [List.length_take] at hshort
      rw [List.take_of_length_le (by omega), h.drained]

theorem Consistent.report (h : x.Consistent reporting) (place : Nat) :
    (x.step (.report place)).Consistent reporting := by
  simp only [Exchange.step]
  split
  · next r hr =>
    obtain ⟨hlt, rfl⟩ := List.getElem?_eq_some_iff.1 hr
    refine h.other rfl rfl rfl rfl rfl (List.getElem_cons_eraseIdx_perm hlt) ?_
    have hreported : x.due[place] ∈ Frontier.reportsOf reporting (acceptedIn x.log) :=
      h.reports.subset (List.mem_append_right _ (List.getElem_mem hlt))
    exact Frontier.mem_reportsOf hreported
  · exact h

theorem Consistent.step (h : x.Consistent reporting) (access : Access) :
    (x.step access).Consistent reporting := by
  cases access with
  | offer a pick => exact h.offer a pick
  | drain consumer block pick => exact h.drains (x.shared.enter_drains consumer block pick) rfl
  | resume place pick =>
    simp only [Exchange.step]
    split
    · next consumer result shared hconsumer hresume =>
      exact h.drains (SharedFrontier.resume_drains hconsumer hresume) rfl
    · exact h
  | report place => exact h.report place
  | size =>
    refine h.other rfl rfl rfl rfl rfl (.refl _) ?_
    rw [Entry.Right, ← List.length_append, h.drained]
  | seen =>
    refine h.other rfl rfl rfl rfl rfl (.refl _) ?_
    rw [Entry.Right, Frontier.seen, h.accepted, h.offered.length_eq]

theorem Consistent.run (h : x.Consistent reporting) (accesses : List Access) :
    (x.run accesses).Consistent reporting := by
  induction accesses generalizing x with
  | nil => exact h
  | cons access rest ih => exact ih (h.step access)

/-! ## Offers that do not overlap -/

/-- At most one offer has yet to report, and everything was reported in the order of acceptance. -/
structure InOrder (reporting : Bool) (x : Exchange) : Prop where
  short : x.due.length ≤ 1
  reports : reportsIn x.log ++ x.due = Frontier.reportsOf reporting (acceptedIn x.log)

/-- A call that accepts nothing, and reports nothing. -/
theorem InOrder.other (h : x.InOrder reporting) {shared : SharedFrontier} {e : Entry}
    (haccepted : e.accepted? = none) (hreport : e.report? = none) :
    InOrder reporting { x with shared, log := x.log ++ [e] } := by
  refine ⟨h.short, ?_⟩
  simp only [acceptedIn_append, haccepted, reportsIn_append, hreport, Option.toList_none,
    List.append_nil]
  exact h.reports

theorem InOrder.drain (h : x.InOrder reporting) (shared : SharedFrontier) (max : Nat)
    (result : DrainStep) :
    InOrder reporting { x with shared, log := x.log ++ [.ofDrain max result] } := by
  cases result with
  | refused error => exact h.other rfl rfl
  | waits => exact h.other rfl rfl
  | batch addresses => exact h.other rfl rfl

theorem InOrder.offer (h : x.InOrder reporting)
    (hreporter : x.shared.frontier.reporting = reporting) (hdue : x.due = []) (a : Address)
    (pick : Nat) :
    (x.step (.offer a pick)).InOrder reporting := by
  have hreports := h.reports
  rw [hdue, List.append_nil] at hreports
  simp only [Exchange.step, (x.shared.offer_eq a pick).1, hdue, List.nil_append]
  rcases x.shared.frontier.offer_cases a with ⟨-, hold, -, hnone⟩ | ⟨-, hnew, -, hsome⟩
  · rw [hold, hnone]
    refine ⟨Nat.zero_le _, ?_⟩
    simpa [acceptedIn_append, reportsIn_append, Entry.accepted?, Entry.report?] using hreports
  · rw [hnew, hsome, hreporter]
    refine ⟨?_, ?_⟩
    · cases reporting with
      | true => exact Nat.le_refl 1
      | false => exact Nat.zero_le 1
    · rw [acceptedIn_append, reportsIn_append]
      simp only [Entry.accepted?, Entry.report?, Option.toList_some, Option.toList_none,
        List.append_nil, Frontier.reportsOf_append, hreports]

theorem InOrder.report (h : x.InOrder reporting) (place : Nat) :
    (x.step (.report place)).InOrder reporting := by
  simp only [Exchange.step]
  split
  · next r hr =>
    -- there is only one report to make
    obtain ⟨hlt, rfl⟩ := List.getElem?_eq_some_iff.1 hr
    have hplace : place = 0 := by
      have hshort := h.short
      omega
    subst hplace
    obtain ⟨r, hdue⟩ := List.length_eq_one_iff.1 (Nat.le_antisymm h.short hlt)
    have hreports := h.reports
    rw [hdue] at hreports
    simp only [hdue, List.eraseIdx_cons_zero, List.getElem_cons_zero]
    refine ⟨Nat.zero_le 1, ?_⟩
    simpa [acceptedIn_append, reportsIn_append, Entry.accepted?, Entry.report?] using hreports
  · exact h

theorem InOrder.step (h : x.InOrder reporting) (hconsistent : x.Consistent reporting)
    {access : Access} (hnext : (∃ a pick, access = .offer a pick) → x.due = []) :
    (x.step access).InOrder reporting := by
  cases access with
  | offer a pick => exact h.offer hconsistent.reporter (hnext ⟨a, pick, rfl⟩) a pick
  | drain consumer block pick => exact h.drain _ _ _
  | resume place pick =>
    simp only [Exchange.step]
    split
    · exact h.drain _ _ _
    · exact h
  | report place => exact h.report place
  | size => exact h.other rfl rfl
  | seen => exact h.other rfl rfl

theorem InOrder.run (h : x.InOrder reporting) (hconsistent : x.Consistent reporting)
    {accesses : List Access} (horderly : x.Orderly accesses) :
    (x.run accesses).InOrder reporting := by
  induction accesses generalizing x with
  | nil => exact h
  | cons access rest ih =>
    obtain ⟨hnext, hrest⟩ := horderly
    exact ih (h.step hconsistent hnext) (hconsistent.step access) hrest

/-! ## Runs -/

theorem log_step (x : Exchange) (access : Access) : x.log <+: (x.step access).log := by
  cases access with
  | offer | drain | size | seen => exact List.prefix_append _ _
  | resume place pick =>
    simp only [Exchange.step]
    split
    · exact List.prefix_append _ _
    · exact List.prefix_rfl
  | report place =>
    simp only [Exchange.step]
    split
    · exact List.prefix_append _ _
    · exact List.prefix_rfl

theorem log_run (x : Exchange) (accesses : List Access) : x.log <+: (x.run accesses).log := by
  induction accesses generalizing x with
  | nil => exact List.prefix_rfl
  | cons access rest ih => exact (x.log_step access).trans (ih (x.step access))

/-- **Traffic at a frontier.** Let any number of callers use a frontier, in any order.

* The batches that were drained, and then what waits, are what was accepted, in order.
* Accepted were the addresses whose offer was answered by true, in the order of the offers. They
  are, of every host, the record that was offered first.
* Every answer is right, given what happened before. An offer is answered by true just if its host
  is new. A drain takes at most what it may, from the front, and less only if that leaves nothing;
  it is refused just if it may take nothing. The size is what was accepted and not drained, and the
  number of addresses seen is the number of hosts offered, which never decreases.
* A drain that may take nothing changes nothing.
* If accepted addresses are reported, each of them was reported once, or is about to be, and nothing
  else; in the order of acceptance, if no offer begins while another one has yet to report. -/
theorem traffic (reporting : Bool) (accesses : List Access) :
    let x := (fresh reporting).run accesses
    drainedIn x.log ++ x.shared.frontier.pending = x.shared.frontier.accepted ∧
      x.shared.frontier.accepted = acceptedIn x.log ∧
      Accepts (offersIn x.log) (acceptedIn x.log) ∧
      (∀ before e after, x.log = before ++ e :: after → e.Right before) ∧
      (∀ more, x.shared.frontier.seen ≤ (x.run more).shared.frontier.seen) ∧
      (∀ consumer block pick, consumer.max = 0 → x.step (.drain consumer block pick) =
        { x with log := x.log ++ [.refused 0 .zeroCount] }) ∧
      (reportsIn x.log ++ x.due).Perm
        (if reporting then (acceptedIn x.log).map .newAddress else []) ∧
      ((fresh reporting).Orderly accesses → reportsIn x.log ++ x.due =
        if reporting then (acceptedIn x.log).map .newAddress else []) := by
  intro x
  have h : x.Consistent reporting := (consistent_fresh reporting).run accesses
  refine ⟨h.drained.trans h.accepted.symm, h.accepted, h.offered, h.right, ?_, ?_, h.reports, ?_⟩
  · intro more
    rw [Frontier.seen, Frontier.seen, h.accepted, (h.run more).accepted]
    exact ((x.log_run more).filterMap Entry.accepted?).length_le
  · intro consumer block pick hzero
    simp only [Exchange.step, SharedFrontier.enter, hzero]
    rfl
  · intro horderly
    have hstart : (fresh reporting).InOrder reporting :=
      ⟨Nat.zero_le 1, by cases reporting <;> rfl⟩
    exact (hstart.run (consistent_fresh reporting) horderly).reports

end Exchange

end PeerCrawl
