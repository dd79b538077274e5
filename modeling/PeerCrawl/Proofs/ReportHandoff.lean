import Mathlib.Logic.Function.Iterate
import PeerCrawl.Crawl.Courier

set_option autoImplicit false

/-! # No report goes missing

Reports are added to a buffer, which is emptied by hand or by the courier at a tick; what the
courier takes it carries to the sink, and until it is there, more reports may come. A `Handoff`
keeps a log of all this, whatever the order. Every step is one of a few changes (`Handoff.Change`),
after which the log still accounts for every report and for how far things have come
(`Handoff.Accounted`), and for every batch that the sink was handed (`Handoff.Delivered`). So
reports are taken in order, none of them twice, and none is lost before the buffer goes
(`Handoff.reports_conserved`). -/

namespace PeerCrawl

/-- The lines that a delivery adds to the log: those of the batch, or one that says that the batch
is lost. -/
def ReportSink.told (s : ReportSink) (d : Delivery) : List CrawlNotice :=
  match d.failure with
  | none => s.lines d.batch
  | some e => [.reportsDropped d.batch.length e]

theorem ReportSink.told_congr {s s' : ReportSink} (h : s.kind = s'.kind) : s.told = s'.told := by
  funext d
  simp only [told, lines, h]

/-! ## The two halves of a tick -/

namespace Courier

variable {c : Courier} {batch : List Report}

/-- Empty the buffer; once it is gone, end. -/
def collect (c : Courier) : Courier :=
  match c.buffer with
  | none => { c with finished := true }
  | some _ => { c with buffer := some [] }

/-- Hand a batch to the sink. -/
def handOver (c : Courier) (batch : List Report) : Courier :=
  let delivery : Delivery := ⟨batch, c.sink.failureFor batch⟩
  { c with
    sink := { c.sink with deliveries := c.sink.deliveries ++ [delivery] }
    notices := c.notices ++ c.sink.told delivery }

theorem collect_of_gone (h : c.buffer = none) : c.collect = { c with finished := true } := by
  simp only [collect, h]

theorem collect_of_some (h : c.buffer = some batch) : c.collect = { c with buffer := some [] } := by
  simp only [collect, h]

/-- At a tick the buffer is emptied, and what it held is handed over, unless that is nothing. -/
theorem tick_eq (c : Courier) :
    c.tick = match c.buffer.filter (· ≠ []) with
      | none => c.collect
      | some batch => c.collect.handOver batch := by
  rcases hbuffer : c.buffer with _ | (_ | ⟨r, rs⟩)
  · rw [collect_of_gone hbuffer]
    simp only [tick, hbuffer]
    rfl
  · have hsame : c.collect = c := by rw [collect_of_some hbuffer, ← hbuffer]
    rw [hsame]
    simp only [tick, hbuffer]
    rfl
  · rw [collect_of_some hbuffer]
    show c.tick = handOver { c with buffer := some [] } (r :: rs)
    simp only [tick, hbuffer, ReportSink.deliver, handOver, ReportSink.told]
    cases c.sink.failureFor (r :: rs) with
    | none => rfl
    | some e => simp only [List.append_nil]

/-! ## Ticks that are due -/

/-- How many ticks are due by now, from one that is due at a time. The rhythm is kept as long as no
tick is noticed too late; one that is starts the count again, so that none is due after it. -/
def ticksDue (c : Courier) (due : Nat) : Nat :=
  if c.clock < due then 0
  else if due + tolerance < c.clock then 1
  else (c.clock - due) / c.period + 1

variable {due : Nat}

/-- Of the ticks that are due, one is the first. -/
theorem ticksDue_nextDue (h : due ≤ c.clock) :
    c.ticksDue due = c.ticksDue (c.nextDue due) + 1 := by
  have hpos := c.period_pos
  unfold ticksDue nextDue
  rw [if_neg (Nat.not_lt.2 h)]
  by_cases hlate : due + tolerance < c.clock
  · rw [if_pos hlate, if_pos hlate, if_pos (by omega)]
  · rw [if_neg hlate, if_neg hlate]
    by_cases hnext : c.clock < due + c.period
    · rw [if_pos hnext, Nat.div_eq_of_lt (by omega)]
    · rw [if_neg hnext, if_neg (by omega), Nat.sub_add_eq,
        Nat.div_eq_sub_div hpos (show c.period ≤ c.clock - due by omega)]

theorem period_tick (c : Courier) : c.tick.period = c.period := by
  unfold tick
  split
  · rfl
  · rfl
  · dsimp only
    split <;> rfl

theorem ticksDue_tick (c : Courier) (due : Nat) : c.tick.ticksDue due = c.ticksDue due := by
  rw [ticksDue, ticksDue, clock_tick, period_tick]

/-- A task that finds the buffer at a tick goes on if it was at work. -/
theorem finished_tick_of_some (h : c.buffer = some batch) : c.tick.finished = c.finished := by
  rw [tick_eq, collect_of_some h]
  split <;> rfl

/-- The task ends only once the buffer is gone. -/
theorem gone_of_tick (hended : c.finished = true → c.buffer = none)
    (h : c.tick.finished = true) : c.tick.buffer = none := by
  cases hbuffer : c.buffer with
  | none =>
    simp only [tick, hbuffer]
  | some pending =>
    rw [finished_tick_of_some hbuffer] at h
    cases (hended h).symm.trans hbuffer

/-- A task that has ended stays as it is. -/
theorem tick_of_ended (hgone : c.buffer = none) (hfinished : c.finished = true) : c.tick = c := by
  simp only [tick, hgone]
  rw [← hgone, ← hfinished]

/-- What the task does until it waits are the ticks that are due, and then it waits for one that is
not due yet, if it has not ended. -/
theorem runFrom_eq (c : Courier) (due : Nat) (hended : c.finished = true → c.buffer = none) :
    ∃ next, c.runFrom due = { tick^[c.ticksDue due] c with due := some next } ∧
      ((c.runFrom due).finished = false → c.clock < next) := by
  fun_induction runFrom c due with
  | case1 c due h ih =>
    obtain ⟨next, hrun, hnext⟩ := ih (gone_of_tick hended)
    rw [ticksDue_tick] at hrun
    rw [clock_tick] at hnext
    rw [ticksDue_nextDue h.1, Function.iterate_succ_apply]
    exact ⟨next, hrun, hnext⟩
  | case2 c due h =>
    refine ⟨due, ?_, fun hfinished => ?_⟩
    · by_cases hlt : c.clock < due
      · rw [ticksDue, if_pos hlt]
        rfl
      · have hfinished : c.finished = true :=
          eq_true_of_ne_false fun hworking => h ⟨Nat.not_lt.1 hlt, hworking⟩
        rw [Function.iterate_fixed (tick_of_ended (hended hfinished) hfinished)]
    · exact Nat.lt_of_not_le fun hle => h ⟨hle, hfinished⟩

end Courier

/-! ## What happens to reports -/

/-- What happens to a buffer of reports, and around it. -/
inductive Handoff.Event where
  | report (report : Report)
  /-- The buffer is emptied by hand. -/
  | take
  /-- The clock of the courier ticks. -/
  | tick
  /-- The batch that the courier carries arrives at the sink. -/
  | arrive
  /-- The buffer goes. -/
  | drop
  /-- The receiver of the reports goes. -/
  | close

/-- The report that is added, if one is. -/
def Handoff.Event.report? : Event → Option Report
  | report r => some r
  | _ => none

/-- The reports that are added before the buffer goes. -/
def Handoff.pushed : List Event → List Report
  | [] => []
  | .drop :: _ => []
  | event :: rest => event.report?.toList ++ pushed rest

/-- What has become of a report, or of a whole batch. -/
inductive Handoff.Entry where
  | added (report : Report)
  /-- The buffer was emptied by hand. -/
  | taken (batch : List Report)
  /-- The courier has emptied the buffer. -/
  | collected (batch : List Report)
  /-- The buffer has gone, with what it held. -/
  | gone (pending : List Report)
  /-- The courier has ended. -/
  | ended

/-- A courier on its way, and the log of its buffer. -/
structure Handoff where
  courier : Courier
  /-- The batch that it carries to the sink. -/
  carried : Option (List Report) := none
  log : List Handoff.Entry := []

namespace Handoff

/-- A courier with an empty buffer, before its first tick. -/
def start (c : Courier) : Handoff where
  courier := { c with buffer := some [], finished := false }

/-- A buffer that is gone is not used any more, and a courier that carries something, or has ended,
waits for no tick. -/
def step (h : Handoff) : Event → Handoff
  | .report r =>
    match h.courier.buffer with
    | none => h
    | some _ => { h with courier := h.courier.report r, log := h.log ++ [.added r] }
  | .take =>
    match h.courier.buffer with
    | none => h
    | some _ =>
      { h with courier := h.courier.take.2, log := h.log ++ [.taken h.courier.take.1] }
  | .drop =>
    match h.courier.buffer with
    | none => h
    | some pending => { h with courier := h.courier.dropBuffer, log := h.log ++ [.gone pending] }
  | .tick =>
    if h.carried = none ∧ h.courier.finished = false then
      { courier := h.courier.collect
        carried := h.courier.buffer.filter (· ≠ [])
        log := h.log ++ [match h.courier.buffer with
          | none => .ended
          | some pending => .collected pending] }
    else h
  | .arrive =>
    match h.carried with
    | none => h
    | some batch => { h with courier := h.courier.handOver batch, carried := none }
  | .close =>
    { h with courier := { h.courier with sink := { h.courier.sink with closed := true } } }

def run (h : Handoff) (events : List Event) : Handoff := events.foldl step h

/-! ## What the log tells -/

namespace Entry

def added? : Entry → Option Report
  | added r => some r
  | _ => none

/-- The batch that was taken, by hand or at a tick. -/
def batch? : Entry → Option (List Report)
  | taken batch => some batch
  | collected batch => some batch
  | _ => none

/-- The batch that has to be handed over: one that was taken at a tick and is not empty. -/
def errand? : Entry → Option (List Report)
  | collected batch => if batch = [] then none else some batch
  | _ => none

/-- The reports that nobody took. -/
def missed : Entry → List Report
  | gone pending => pending
  | _ => []

/-- The buffer is still there. -/
def Early : Entry → Prop
  | gone _ => False
  | ended => False
  | _ => True

theorem added_append (log : List Entry) (entry : Entry) :
    (log ++ [entry]).filterMap added? = log.filterMap added? ++ entry.added?.toList := by
  rw [List.filterMap_append]
  cases entry <;> rfl

theorem batches_append (log : List Entry) (entry : Entry) :
    ((log ++ [entry]).filterMap batch?).flatten =
      (log.filterMap batch?).flatten ++ entry.batch?.getD [] := by
  rw [List.filterMap_append, List.flatten_append]
  cases entry <;> simp [batch?]

theorem errands_append (log : List Entry) (entry : Entry) :
    (log ++ [entry]).filterMap errand? = log.filterMap errand? ++ entry.errand?.toList := by
  rw [List.filterMap_append, List.append_right_inj]
  cases h : entry.errand? <;> simp [h]

theorem missed_append (log : List Entry) (entry : Entry) :
    (log ++ [entry]).flatMap missed = log.flatMap missed ++ entry.missed := by
  rw [List.flatMap_append, List.flatMap_singleton]

theorem Early.missed_eq {entry : Entry} (h : entry.Early) : entry.missed = [] := by
  cases entry with
  | gone pending => exact h.elim
  | added | taken | collected | ended => rfl

end Entry

/-- The buffer goes once and for all, and the courier ends after that. -/
inductive Course : Option (List Report) → Bool → List Entry → Prop
  | collecting {pending : List Report} {log : List Entry} (h : ∀ entry ∈ log, entry.Early) :
    Course (some pending) false log
  | gone {pending : List Report} {log : List Entry} (h : ∀ entry ∈ log, entry.Early) :
    Course none false (log ++ [.gone pending])
  | ended {pending : List Report} {log : List Entry} (h : ∀ entry ∈ log, entry.Early) :
    Course none true (log ++ [.gone pending, .ended])

namespace Course

variable {pending : List Report} {finished : Bool} {log : List Entry}

theorem of_some (h : Course (some pending) finished log) :
    finished = false ∧ ∀ entry ∈ log, entry.Early := by
  cases h with
  | collecting h => exact ⟨rfl, h⟩

theorem append {entry : Entry} (h : Course (some pending) finished log) (hentry : entry.Early)
    (pending' : List Report) : Course (some pending') finished (log ++ [entry]) := by
  obtain ⟨rfl, hlog⟩ := h.of_some
  refine .collecting fun e he => ?_
  rcases List.mem_append.1 he with he | he
  · exact hlog e he
  · rw [List.mem_singleton.1 he]
    exact hentry

theorem drop (h : Course (some pending) finished log) :
    Course none finished (log ++ [.gone pending]) := by
  obtain ⟨rfl, hlog⟩ := h.of_some
  exact .gone hlog

theorem finish (h : Course none false log) : Course none true (log ++ [.ended]) := by
  cases h with
  | gone h =>
    rw [List.append_assoc]
    exact .ended h

theorem of_finished {buffer : Option (List Report)} (h : Course buffer true log) :
    buffer = none := by
  cases h
  rfl

theorem flatMap_missed (h : Course (some pending) finished log) :
    log.flatMap Entry.missed = [] :=
  List.flatMap_eq_nil_iff.2 fun entry he => (h.of_some.2 entry he).missed_eq

end Course

/-- The log accounts for every report, and for how far things have come. -/
structure Accounted (h : Handoff) : Prop where
  course : Course h.courier.buffer h.courier.finished h.log
  reports : h.log.filterMap Entry.added? =
    (h.log.filterMap Entry.batch?).flatten ++ h.log.flatMap Entry.missed ++
      h.courier.buffer.getD []

/-- The log accounts for every batch that the sink was handed since a courier started. -/
structure Delivered (c : Courier) (h : Handoff) (made : List Delivery) : Prop where
  kind : h.courier.sink.kind = c.sink.kind
  deliveries : h.courier.sink.deliveries = c.sink.deliveries ++ made
  notices : h.courier.notices = c.notices ++ made.flatMap c.sink.told
  batches : made.map Delivery.batch ++ h.carried.toList = h.log.filterMap Entry.errand?

variable {c : Courier} {h : Handoff} {made : List Delivery}

theorem accounted_start (c : Courier) : (start c).Accounted :=
  ⟨.collecting (by simp [start]), rfl⟩

theorem delivered_start (c : Courier) : (start c).Delivered c [] :=
  ⟨rfl, (List.append_nil _).symm, (List.append_nil _).symm, rfl⟩

/-! ## One step -/

/-- What a step does, and what the log says of it. -/
inductive Change (h : Handoff) : Handoff → Prop
  | nothing : Change h h
  /-- Reports go into the buffer or out of it, to be carried or not. -/
  | moved {pending pending' : List Report} {carried : Option (List Report)} {entry : Entry}
    (hbuffer : h.courier.buffer = some pending) (hentry : entry.Early)
    (hreports : pending ++ entry.added?.toList = entry.batch?.getD [] ++ pending')
    (hcarried : carried.toList = h.carried.toList ++ entry.errand?.toList) :
    Change h
      { courier := { h.courier with buffer := some pending' }
        carried
        log := h.log ++ [entry] }
  | gone {pending : List Report} (hbuffer : h.courier.buffer = some pending) :
    Change h { h with courier := h.courier.dropBuffer, log := h.log ++ [.gone pending] }
  | ended (hbuffer : h.courier.buffer = none) (hfinished : h.courier.finished = false) :
    Change h { h with courier := { h.courier with finished := true }, log := h.log ++ [.ended] }
  | arrived {batch : List Report} (hcarried : h.carried = some batch) :
    Change h { h with courier := h.courier.handOver batch, carried := none }
  | closed : Change h
      { h with courier := { h.courier with sink := { h.courier.sink with closed := true } } }

theorem step_drop {pending : List Report} (hbuffer : h.courier.buffer = some pending) :
    h.step .drop =
      { h with courier := h.courier.dropBuffer, log := h.log ++ [.gone pending] } := by
  simp only [step, hbuffer]

/-- A courier that carries nothing has its tick. -/
theorem tick_change (hidle : h.carried = none) (hfinished : h.courier.finished = false) :
    h.Change (h.step .tick) := by
  have hstep : h.step .tick = _ := if_pos ⟨hidle, hfinished⟩
  rw [hstep]
  cases hbuffer : h.courier.buffer with
  | none =>
    have hended := Change.ended hbuffer hfinished
    rw [hidle] at hended
    rw [Courier.collect_of_gone hbuffer]
    exact hended
  | some pending =>
    rw [Courier.collect_of_some hbuffer]
    refine @Change.moved h pending [] _ (.collected pending) hbuffer trivial rfl ?_
    by_cases hnil : pending = [] <;> simp [hidle, Entry.errand?, hnil]

theorem step_change (h : Handoff) (event : Event) : h.Change (h.step event) := by
  cases event with
  | report r =>
    cases hbuffer : h.courier.buffer with
    | none =>
      simp only [step, hbuffer]
      exact .nothing
    | some pending =>
      simp only [step, hbuffer, Courier.report, Option.map_some]
      exact .moved hbuffer trivial rfl (List.append_nil _).symm
  | take =>
    cases hbuffer : h.courier.buffer with
    | none =>
      simp only [step, hbuffer]
      exact .nothing
    | some pending =>
      simp only [step, hbuffer, Courier.take, Option.map_some, Option.getD_some]
      exact .moved hbuffer trivial rfl (List.append_nil _).symm
  | drop =>
    cases hbuffer : h.courier.buffer with
    | none =>
      simp only [step, hbuffer]
      exact .nothing
    | some pending =>
      rw [step_drop hbuffer]
      exact .gone hbuffer
  | tick =>
    by_cases hidle : h.carried = none ∧ h.courier.finished = false
    · exact tick_change hidle.1 hidle.2
    · have hstep : h.step .tick = h := if_neg hidle
      rw [hstep]
      exact .nothing
  | arrive =>
    cases hcarried : h.carried with
    | none =>
      simp only [step, hcarried]
      exact .nothing
    | some batch =>
      simp only [step, hcarried]
      exact .arrived hcarried
  | close => exact .closed

theorem pushed_cons {event : Event} (hevent : event ≠ .drop) (events : List Event) :
    pushed (event :: events) = event.report?.toList ++ pushed events := by
  cases event with
  | drop => exact absurd rfl hevent
  | report | take | tick | arrive | close => rfl

/-- As long as the buffer is there, what is pushed is added to it. -/
theorem added_step {pending : List Report} (hbuffer : h.courier.buffer = some pending)
    {event : Event} (hevent : event ≠ .drop) :
    (∃ pending', (h.step event).courier.buffer = some pending') ∧
      (h.step event).log.filterMap Entry.added? =
        h.log.filterMap Entry.added? ++ event.report?.toList := by
  cases event with
  | report r =>
    simp only [step, hbuffer, Courier.report, Option.map_some]
    exact ⟨⟨_, rfl⟩, Entry.added_append _ _⟩
  | take =>
    simp only [step, hbuffer, Courier.take, Option.map_some]
    exact ⟨⟨_, rfl⟩, Entry.added_append _ _⟩
  | drop => exact absurd rfl hevent
  | tick =>
    simp only [step, hbuffer, Courier.collect_of_some hbuffer]
    split
    · exact ⟨⟨_, rfl⟩, Entry.added_append _ _⟩
    · exact ⟨⟨pending, hbuffer⟩, (List.append_nil _).symm⟩
  | arrive =>
    simp only [step]
    split <;> exact ⟨⟨pending, hbuffer⟩, (List.append_nil _).symm⟩
  | close => exact ⟨⟨pending, hbuffer⟩, (List.append_nil _).symm⟩

/-- What is not there does not come back, and nothing is added to it. -/
theorem Change.of_gone {h' : Handoff} (hc : h.Change h') (hgone : h.courier.buffer = none) :
    h'.courier.buffer = none ∧
      h'.log.filterMap Entry.added? = h.log.filterMap Entry.added? := by
  cases hc with
  | nothing | arrived | closed => exact ⟨hgone, rfl⟩
  | moved hbuffer | gone hbuffer => cases hgone.symm.trans hbuffer
  | ended => exact ⟨hgone, (Entry.added_append _ _).trans (List.append_nil _)⟩

theorem Accounted.change {h' : Handoff} (ha : h.Accounted) (hc : h.Change h') : h'.Accounted := by
  have hcourse := ha.course
  have hreports := ha.reports
  cases hc with
  | nothing => exact ha
  | moved hbuffer hentry hmoved _ =>
    rw [hbuffer] at hcourse hreports
    refine ⟨hcourse.append hentry _, ?_⟩
    rw [hcourse.flatMap_missed, List.append_nil, Option.getD_some] at hreports
    rw [Entry.added_append, Entry.batches_append, Entry.missed_append, hcourse.flatMap_missed,
      hentry.missed_eq, hreports, List.append_assoc, hmoved, List.append_nil, List.append_nil,
      Option.getD_some, List.append_assoc]
  | gone hbuffer =>
    rw [hbuffer] at hcourse hreports
    refine ⟨hcourse.drop, ?_⟩
    rw [Entry.added_append, Entry.batches_append, Entry.missed_append, hreports]
    simp [Entry.added?, Entry.batch?, Entry.missed, Courier.dropBuffer]
  | ended hbuffer hfinished =>
    rw [hbuffer, hfinished] at hcourse
    refine ⟨?_, ?_⟩
    · rw [hbuffer]
      exact hcourse.finish
    · rw [Entry.added_append, Entry.batches_append, Entry.missed_append, hreports]
      simp [Entry.added?, Entry.batch?, Entry.missed]
  | arrived => exact ⟨hcourse, hreports⟩
  | closed => exact ⟨hcourse, hreports⟩

/-- What the sink is handed is what was carried. -/
theorem Delivered.change {h' : Handoff} (hd : h.Delivered c made) (hc : h.Change h') :
    ∃ made', h'.Delivered c made' := by
  cases hc with
  | nothing => exact ⟨made, hd⟩
  | moved _ _ _ hcarried =>
    refine ⟨made, hd.kind, hd.deliveries, hd.notices, ?_⟩
    rw [Entry.errands_append, hcarried, ← List.append_assoc, hd.batches]
  | gone | ended =>
    refine ⟨made, hd.kind, hd.deliveries, hd.notices, ?_⟩
    rw [Entry.errands_append, ← hd.batches]
    exact (List.append_nil _).symm
  | @arrived batch hcarried =>
    have hbatches := hd.batches
    rw [hcarried] at hbatches
    refine ⟨made ++ [⟨batch, h.courier.sink.failureFor batch⟩], hd.kind, ?_, ?_, ?_⟩
    · simp only [Courier.handOver, hd.deliveries, List.append_assoc]
    · simp only [Courier.handOver, hd.notices, List.flatMap_append, List.flatMap_singleton,
        List.append_assoc, ReportSink.told_congr hd.kind]
    · simpa using hbatches
  | closed => exact ⟨made, hd.kind, hd.deliveries, hd.notices, hd.batches⟩

/-! ## Runs -/

theorem Accounted.run (ha : h.Accounted) (events : List Event) : (h.run events).Accounted := by
  induction events generalizing h with
  | nil => exact ha
  | cons event events ih => exact ih (ha.change (h.step_change event))

theorem Delivered.run (hd : h.Delivered c made) (events : List Event) :
    ∃ made', (h.run events).Delivered c made' := by
  induction events generalizing h made with
  | nil => exact ⟨made, hd⟩
  | cons event events ih =>
    obtain ⟨made', hd'⟩ := hd.change (h.step_change event)
    exact ih hd'

/-- Once the buffer is gone, nothing is added to it. -/
theorem added_run_of_gone (hgone : h.courier.buffer = none) (events : List Event) :
    (h.run events).log.filterMap Entry.added? = h.log.filterMap Entry.added? := by
  induction events generalizing h with
  | nil => rfl
  | cons event events ih =>
    obtain ⟨hgone', hadded⟩ := (h.step_change event).of_gone hgone
    exact (ih hgone').trans hadded

/-- Before the buffer goes, all that is pushed is added to it. -/
theorem added_run {pending : List Report} (hbuffer : h.courier.buffer = some pending)
    (events : List Event) :
    (h.run events).log.filterMap Entry.added? =
      h.log.filterMap Entry.added? ++ pushed events := by
  induction events generalizing h pending with
  | nil => exact (List.append_nil _).symm
  | cons event events ih =>
    show ((h.step event).run events).log.filterMap Entry.added? = _
    by_cases hdrop : event = .drop
    · rw [hdrop, step_drop hbuffer, added_run_of_gone rfl, Entry.added_append]
      rfl
    · obtain ⟨⟨pending', hbuffer'⟩, hadded⟩ := added_step hbuffer hdrop
      rw [ih hbuffer', hadded, List.append_assoc, pushed_cons hdrop]

/-- What the receiver of a channel got: every batch but those whose delivery has failed. -/
theorem Delivered.received (hd : h.Delivered c made) (hchannel : c.sink.kind = .channel) :
    h.courier.sink.received =
      c.sink.received ++ (made.filter (·.failure = none)).flatMap Delivery.batch := by
  simp only [ReportSink.received, hd.kind, hchannel, hd.deliveries, List.filter_append,
    List.flatMap_append]

/-! ## Ticks -/

/-- Whatever becomes of a delivery, the courier is free for the next tick. -/
theorem arrive_frees (h : Handoff) : (h.step .arrive).carried = none ∧
    (h.step .arrive).courier.buffer = h.courier.buffer ∧
    (h.step .arrive).courier.finished = h.courier.finished := by
  cases hcarried : h.carried with
  | none =>
    have hstep : h.step .arrive = h := by simp only [step, hcarried]
    rw [hstep]
    exact ⟨hcarried, rfl, rfl⟩
  | some batch =>
    have hstep : h.step .arrive = { h with
        courier := h.courier.handOver batch, carried := none } := by simp only [step, hcarried]
    rw [hstep]
    exact ⟨rfl, rfl, rfl⟩

/-- The courier ends only once the buffer is gone. -/
theorem Accounted.gone_of_finished (ha : h.Accounted) (hfinished : h.courier.finished = true) :
    h.courier.buffer = none := (hfinished ▸ ha.course).of_finished

/-- A tick whose batch arrives before anything else happens is what the task does at a tick. -/
theorem step_tick_arrive (ha : h.Accounted) (hidle : h.carried = none) :
    ((h.step .tick).step .arrive).courier = h.courier.tick := by
  cases hfinished : h.courier.finished with
  | true =>
    -- the courier has ended already, and stays as it is
    have hstep : h.step .tick = h := if_neg (by simp [hfinished])
    rw [hstep, Courier.tick_of_ended (ha.gone_of_finished hfinished) hfinished]
    simp [step, hidle]
  | false =>
    have hstep : h.step .tick = _ := if_pos ⟨hidle, hfinished⟩
    rw [hstep, Courier.tick_eq]
    simp only [step]
    cases h.courier.buffer.filter (· ≠ []) with
    | none => rfl
    | some batch => rfl

/-- The ticks that are due by now, each with the arrival of its batch. -/
def dueTicks (h : Handoff) : List Event :=
  let count := h.courier.ticksDue (h.courier.due.getD h.courier.clock)
  (List.replicate count [Event.tick, .arrive]).flatten

/-- What the task does until it waits are the ticks that are due. -/
theorem settle_run (ha : h.Accounted) (hidle : h.carried = none) :
    ∃ next, h.courier.settle = { (h.run h.dueTicks).courier with due := some next } ∧
      (h.courier.settle.finished = false → h.courier.clock < next) := by
  have hticks : ∀ n, (h.run (List.replicate n [Event.tick, .arrive]).flatten).courier =
      Courier.tick^[n] h.courier := by
    intro n
    induction n generalizing h with
    | zero => rfl
    | succ n ih =>
      have ha' := (ha.change (h.step_change .tick)).change (step_change _ .arrive)
      rw [Function.iterate_succ_apply, ← step_tick_arrive ha hidle]
      exact ih ha' (arrive_frees _).1
  obtain ⟨next, hsettle, hnext⟩ :=
    h.courier.runFrom_eq (h.courier.due.getD h.courier.clock) ha.gone_of_finished
  exact ⟨next, by rw [dueTicks, hticks]; exact hsettle, hnext⟩

/-- **No report goes missing.** Let reports be added to the buffer of a courier, let the buffer be
emptied by hand, let the courier's clock tick, let what it carries arrive at the sink, whatever the
sink does with it, and let the buffer and the receiver of the reports go, all in any order.

* The reports that were added before the buffer went are those of the batches that were taken, in
  the order in which they were taken, and then those that are still there, or that were there when
  the buffer went.
* The buffer goes once, and after that nothing is taken: the courier may only end.
* The sink is handed the batches that were taken at a tick and are not empty, in order, each of them
  once and whole; one may be on its way. If its delivery fails, there is a line that says so, and
  the receiver lacks that batch and no other.
* Whatever becomes of a delivery, the courier is free for the next tick. It then takes what is
  there; once the buffer is gone, it ends and hands over nothing. With the arrival of its batch this
  is all that the task does at a tick.
* What the task does until it waits are the ticks that are due by now, no more and no less. The one
  that it waits for, if it has not ended, is due later. -/
theorem reports_conserved (c : Courier) (events : List Event) :
    let h := (start c).run events
    pushed events =
        (h.log.filterMap Entry.batch?).flatten ++ h.log.flatMap Entry.missed ++
          h.courier.buffer.getD [] ∧
      Course h.courier.buffer h.courier.finished h.log ∧
      (∃ made, h.Delivered c made ∧
        (c.sink.kind = .channel → h.courier.sink.received =
          c.sink.received ++ (made.filter (·.failure = none)).flatMap Delivery.batch)) ∧
      ((h.step .arrive).carried = none ∧ (h.step .arrive).courier.buffer = h.courier.buffer ∧
        (h.step .arrive).courier.finished = h.courier.finished) ∧
      (h.carried = none →
        (∀ pending, h.courier.buffer = some pending →
          (h.step .tick).log = h.log ++ [.collected pending]) ∧
        (h.courier.buffer = none → h.courier.tick = { h.courier with finished := true }) ∧
        ((h.step .tick).step .arrive).courier = h.courier.tick ∧
        ∃ next, h.courier.settle = { (h.run h.dueTicks).courier with due := some next } ∧
          (h.courier.settle.finished = false → h.courier.clock < next)) := by
  intro h
  have ha : h.Accounted := (accounted_start c).run events
  obtain ⟨made, hd⟩ := (delivered_start c).run events
  have hpushed : h.log.filterMap Entry.added? = pushed events := added_run rfl events
  refine ⟨hpushed.symm.trans ha.reports, ha.course, ⟨made, hd, hd.received⟩, h.arrive_frees,
    fun hidle => ?_⟩
  refine ⟨fun pending hbuffer => ?_, fun hbuffer => ?_, step_tick_arrive ha hidle,
    settle_run ha hidle⟩
  · have hcourse := ha.course
    rw [hbuffer] at hcourse
    have hstep : h.step .tick = _ := if_pos ⟨hidle, hcourse.of_some.1⟩
    rw [hstep, hbuffer]
  · rw [Courier.tick_eq, hbuffer]
    exact Courier.collect_of_gone hbuffer

end Handoff

end PeerCrawl
