import PeerCrawl.Proofs.FrontierTraffic

set_option autoImplicit false

/-! # Wakeups

A consumer that finds nothing waits until somebody wakes it, and only two steps wake anybody: an
offer that fills an empty frontier, and a drain that leaves something behind. Offers that find
addresses pending wake nobody, and a consumer that does not wait may take the address that another
one was woken for. Still no wakeup is lost: while an address is pending and a consumer waits, some
other consumer was woken and has not looked yet (`SharedFrontier.Attended`). Every step keeps this,
because whoever looks takes all that is pending or wakes the next one
(`Exchange.no_wakeup_lost`). -/

namespace PeerCrawl

/-- A drain that may wait goes on waiting, or gives something. -/
def DrainStep.Gives : DrainStep → Prop
  | .refused _ => False
  | .waits => True
  | .batch addresses => addresses ≠ []

namespace SharedFrontier

/-- The consumers inside a drain: they wait, or were woken. -/
def inside (s : SharedFrontier) : List Consumer := s.waiting ++ s.notified

/-- Nobody waits for an address that is pending unless somebody else is about to look. -/
structure Attended (s : SharedFrontier) : Prop where
  woken : s.frontier.pending ≠ [] → s.waiting ≠ [] → s.notified ≠ []
  /-- Whoever is inside a drain may take something. -/
  hungry : ∀ consumer ∈ s.inside, 1 ≤ consumer.max

variable {s s' : SharedFrontier} {consumer : Consumer} {result : DrainStep}

/-! ## Waking one consumer -/

theorem notifyOne_of_nobody (h : s.waiting = []) (pick : Nat) : s.notifyOne pick = s := by
  simp [notifyOne, h]

theorem notifyOne_of_waiting (h : s.waiting ≠ []) (pick : Nat) :
    ∃ (place : Nat) (hplace : place < s.waiting.length), s.notifyOne pick =
      { s with
        waiting := s.waiting.eraseIdx place
        notified := s.notified ++ [s.waiting[place]] } := by
  have hplace : pick % s.waiting.length < s.waiting.length :=
    Nat.mod_lt pick (List.length_pos_iff.2 h)
  refine ⟨pick % s.waiting.length, hplace, ?_⟩
  simp only [notifyOne, List.getElem?_eq_getElem hplace]

/-- Whoever is woken is still inside its drain. -/
theorem inside_notifyOne (s : SharedFrontier) (pick : Nat) :
    (s.notifyOne pick).inside.Perm s.inside := by
  by_cases h : s.waiting = []
  · rw [notifyOne_of_nobody h]
  · obtain ⟨place, hplace, hwoken⟩ := notifyOne_of_waiting h pick
    rw [hwoken]
    show (s.waiting.eraseIdx place ++ (s.notified ++ [s.waiting[place]])).Perm
      (s.waiting ++ s.notified)
    calc s.waiting.eraseIdx place ++ (s.notified ++ [s.waiting[place]])
      _ = (s.waiting.eraseIdx place ++ s.notified) ++ [s.waiting[place]] := by
        rw [List.append_assoc]
      List.Perm _ (s.waiting[place] :: s.waiting.eraseIdx place ++ s.notified) :=
        List.perm_append_singleton _ _
      List.Perm _ (s.waiting ++ s.notified) :=
        (List.getElem_cons_eraseIdx_perm hplace).append_right _

theorem notified_notifyOne (s : SharedFrontier) (pick : Nat)
    (h : (s.notifyOne pick).waiting ≠ []) : (s.notifyOne pick).notified ≠ [] := by
  by_cases hnone : s.waiting = []
  · rw [notifyOne_of_nobody hnone] at h
    exact absurd hnone h
  · obtain ⟨place, hplace, hwoken⟩ := notifyOne_of_waiting hnone pick
    rw [hwoken]
    exact List.append_ne_nil_of_right_ne_nil _ (List.cons_ne_nil _ _)

theorem length_notified_notifyOne_le (s : SharedFrontier) (pick : Nat) :
    (s.notifyOne pick).notified.length ≤ s.notified.length + 1 := by
  by_cases h : s.waiting = []
  · rw [notifyOne_of_nobody h]
    exact Nat.le_succ _
  · obtain ⟨place, hplace, hwoken⟩ := notifyOne_of_waiting h pick
    rw [hwoken]
    exact Nat.le_of_eq List.length_append

/-! ## Drains -/

/-- A batch is taken, and another consumer is woken if something is left. -/
structure Collected (s : SharedFrontier) (max : Nat) (result : DrainStep) (s' : SharedFrontier) :
    Prop where
  result : result = .batch (s.frontier.pending.take max)
  pending : s'.frontier.pending = s.frontier.pending.drop max
  inside : s'.inside.Perm s.inside
  woken : s'.frontier.pending ≠ [] → s'.waiting ≠ [] → s'.notified ≠ []
  notified : s'.notified.length ≤ s.notified.length + 1

theorem collect_collected {max : Nat} (hmax : 1 ≤ max) (s : SharedFrontier) (pick : Nat) :
    s.Collected max (s.collect max pick).1 (s.collect max pick).2 := by
  have hmax' : ¬ max = 0 := Nat.ne_of_gt hmax
  simp only [collect, Frontier.drain, if_neg hmax']
  split
  · next hempty =>
    refine ⟨rfl, rfl, .refl _, fun hpending => ?_, Nat.le_succ _⟩
    exact absurd (List.isEmpty_iff.1 hempty) hpending
  · refine ⟨rfl, ?_, inside_notifyOne _ pick, fun _ => notified_notifyOne _ pick,
      length_notified_notifyOne_le _ pick⟩
    rw [frontier_notifyOne]

theorem Collected.gives {max : Nat} (h : s.Collected max result s') (hmax : 1 ≤ max)
    (hpending : s.frontier.pending ≠ []) : result.Gives := by
  have hlen := List.length_pos_iff.2 hpending
  rw [h.result]
  intro hnil
  rw [List.take_eq_nil_iff] at hnil
  rcases hnil with hzero | hnil
  · omega
  · exact hpending hnil

/-- The ways into a drain: it is refused, or it waits, or it takes a batch. -/
theorem enter_cases {block : Bool} {pick : Nat}
    (h : s.enter consumer block pick = (result, s')) :
    consumer.max = 0 ∧ result = .refused .zeroCount ∧ s' = s ∨
    1 ≤ consumer.max ∧ s.frontier.pending = [] ∧ result = .waits ∧
      s' = { s with waiting := s.waiting ++ [consumer] } ∨
    1 ≤ consumer.max ∧ (block = true → s.frontier.pending ≠ []) ∧
      s.Collected consumer.max result s' := by
  unfold enter at h
  split at h
  · next hzero =>
    obtain ⟨rfl, rfl⟩ := Prod.mk.inj h
    exact .inl ⟨hzero, rfl, rfl⟩
  next hmax =>
  have hmax' := Nat.pos_of_ne_zero hmax
  split at h
  · next hwait =>
    obtain ⟨rfl, rfl⟩ := Prod.mk.inj h
    exact .inr (.inl ⟨hmax', List.isEmpty_iff.1 hwait.2, rfl, rfl⟩)
  · next hgo =>
    have hcollected := collect_collected hmax' s pick
    rw [h] at hcollected
    refine .inr (.inr ⟨hmax', fun hblock hempty => ?_, hcollected⟩)
    exact hgo ⟨hblock, List.isEmpty_iff.2 hempty⟩

/-- The shared frontier while the woken consumer at a place looks. -/
def awake (s : SharedFrontier) (place : Nat) : SharedFrontier :=
  { s with notified := s.notified.eraseIdx place }

/-- A consumer that begins to wait is inside its drain. -/
theorem inside_enter (s : SharedFrontier) (consumer : Consumer) :
    (inside { s with waiting := s.waiting ++ [consumer] }).Perm (consumer :: s.inside) := by
  show (s.waiting ++ [consumer] ++ s.notified).Perm (consumer :: (s.waiting ++ s.notified))
  rw [List.append_assoc]
  exact List.perm_middle

/-- The consumer that looks is inside its drain, as the others are. -/
theorem inside_awake {place : Nat} (hplace : place < s.notified.length) :
    (s.notified[place] :: (s.awake place).inside).Perm s.inside := by
  show (s.notified[place] :: (s.waiting ++ s.notified.eraseIdx place)).Perm
    (s.waiting ++ s.notified)
  exact List.perm_middle.symm.trans ((List.getElem_cons_eraseIdx_perm hplace).append_left _)

/-- A consumer that waits again has not left its drain. -/
theorem inside_waiting_again {place : Nat} (hplace : place < s.notified.length) :
    (inside { s.awake place with waiting := s.waiting ++ [s.notified[place]] }).Perm s.inside :=
  (inside_enter (s.awake place) s.notified[place]).trans (inside_awake hplace)

/-- Whoever was woken can look. -/
theorem exists_resume {place : Nat} (hplace : place < s.notified.length) (pick : Nat) :
    ∃ result s', s.resume place pick = some (result, s') := by
  rw [resume, List.getElem?_eq_getElem hplace]
  exact ⟨_, _, rfl⟩

/-- A consumer that looks finds nothing and waits again, or takes a batch. -/
theorem Attended.resume_cases (h : s.Attended) {place pick : Nat}
    (hresume : s.resume place pick = some (result, s')) :
    ∃ hplace : place < s.notified.length,
      s.frontier.pending = [] ∧ result = .waits ∧
        s' = { s.awake place with waiting := s.waiting ++ [s.notified[place]] } ∨
      s.frontier.pending ≠ [] ∧ 1 ≤ s.notified[place].max ∧
        (s.awake place).Collected s.notified[place].max result s' := by
  rcases Nat.lt_or_ge place s.notified.length with hplace | hge
  · refine ⟨hplace, ?_⟩
    simp only [resume, List.getElem?_eq_getElem hplace, Option.map_some, Option.some.injEq]
      at hresume
    split at hresume
    · next hempty =>
      obtain ⟨rfl, rfl⟩ := Prod.mk.inj hresume
      exact .inl ⟨List.isEmpty_iff.1 hempty, rfl, rfl⟩
    · next hpending =>
      have hmax := h.hungry s.notified[place]
        (List.mem_append_right _ (List.getElem_mem hplace))
      have hcollected := collect_collected hmax (s.awake place) pick
      rw [show (s.awake place).collect s.notified[place].max pick = (result, s') from hresume]
        at hcollected
      exact .inr ⟨fun hnil => hpending (List.isEmpty_iff.2 hnil), hmax, hcollected⟩
  · rw [resume, List.getElem?_eq_none hge] at hresume
    cases hresume

/-! ## Steps -/

theorem inside_offer (s : SharedFrontier) (a : Address) (pick : Nat) :
    (s.offer a pick).2.inside.Perm s.inside := by
  unfold SharedFrontier.offer
  dsimp only
  split
  · exact inside_notifyOne { s with frontier := (s.frontier.offer a).frontier } pick
  · exact .refl _

theorem Attended.offer (h : s.Attended) (a : Address) (pick : Nat) :
    (s.offer a pick).2.Attended := by
  refine ⟨?_, fun consumer hconsumer =>
    h.hungry consumer ((s.inside_offer a pick).subset hconsumer)⟩
  unfold SharedFrontier.offer
  dsimp only
  rcases s.frontier.offer_cases a with ⟨-, hold, hsame, -⟩ | ⟨-, hnew, hadded, -⟩
  · rw [if_neg (by rw [hold]; exact fun hand => absurd hand.1 nofun), hsame]
    exact h.woken
  · split
    · exact fun _ => notified_notifyOne _ pick
    · next hmore =>
      -- nobody is woken only if an address was pending before
      refine fun _ => h.woken fun hnil => hmore ⟨hnew, ?_⟩
      rw [hadded, hnil]
      rfl

theorem Collected.attended {max : Nat} (h : s.Collected max result s')
    (hungry : ∀ consumer ∈ s.inside, 1 ≤ consumer.max) : s'.Attended :=
  ⟨h.woken, fun consumer hconsumer => hungry consumer (h.inside.subset hconsumer)⟩

/-- Consumers wait only where nothing is pending. -/
theorem attended_of_empty (hempty : s.frontier.pending = [])
    (hungry : ∀ consumer ∈ s.inside, 1 ≤ consumer.max) : s.Attended :=
  ⟨fun hpending => absurd hempty hpending, hungry⟩

theorem Attended.enter (h : s.Attended) (consumer : Consumer) (block : Bool) (pick : Nat) :
    (s.enter consumer block pick).2.Attended := by
  obtain ⟨result, s', heq⟩ : ∃ result s', s.enter consumer block pick = (result, s') :=
    ⟨_, _, rfl⟩
  rw [heq]
  rcases enter_cases heq with ⟨-, -, rfl⟩ | ⟨hmax, hempty, -, rfl⟩ | ⟨-, -, hcollected⟩
  · exact h
  · refine attended_of_empty hempty fun other hother => ?_
    rcases List.mem_cons.1 ((inside_enter s consumer).subset hother) with rfl | hbefore
    · exact hmax
    · exact h.hungry other hbefore
  · exact hcollected.attended h.hungry

theorem Attended.resume (h : s.Attended) {place pick : Nat}
    (hresume : s.resume place pick = some (result, s')) : s'.Attended := by
  obtain ⟨hplace, hcases⟩ := h.resume_cases hresume
  rcases hcases with ⟨hempty, -, rfl⟩ | ⟨-, -, hcollected⟩
  · refine attended_of_empty hempty fun consumer hconsumer => h.hungry consumer ?_
    exact (inside_waiting_again hplace).subset hconsumer
  · refine hcollected.attended fun consumer hconsumer => h.hungry consumer ?_
    exact (inside_awake hplace).subset (List.mem_cons_of_mem _ hconsumer)

/-- Each look takes addresses, or leaves one consumer less to look. -/
theorem Attended.resume_lt (h : s.Attended) {place pick : Nat}
    (hresume : s.resume place pick = some (result, s')) :
    s'.frontier.pending.length + s'.notified.length <
      s.frontier.pending.length + s.notified.length := by
  obtain ⟨hplace, hcases⟩ := h.resume_cases hresume
  have hawake : (s.awake place).notified.length + 1 = s.notified.length :=
    List.length_eraseIdx_add_one hplace
  rcases hcases with ⟨-, -, rfl⟩ | ⟨hpending, hmax, hcollected⟩
  · show s.frontier.pending.length + (s.awake place).notified.length < _
    omega
  · have hlen := List.length_pos_iff.2 hpending
    have hleft : s'.frontier.pending.length =
        s.frontier.pending.length - s.notified[place].max := by
      rw [hcollected.pending, List.length_drop]
      rfl
    have hwoken := hcollected.notified
    omega

/-! ## Answers -/

/-- A drain that may wait and take something is not refused, and takes no empty batch. -/
theorem gives_enter (h : 1 ≤ consumer.max) (s : SharedFrontier) (pick : Nat) :
    (s.enter consumer true pick).1.Gives := by
  obtain ⟨result, s', heq⟩ : ∃ result s', s.enter consumer true pick = (result, s') :=
    ⟨_, _, rfl⟩
  rw [heq]
  rcases enter_cases heq with ⟨hzero, -, -⟩ | ⟨-, -, rfl, -⟩ | ⟨hmax, hpending, hcollected⟩
  · omega
  · trivial
  · exact hcollected.gives hmax (hpending rfl)

/-- A woken consumer takes something if there is anything. -/
theorem Attended.gives_resume (h : s.Attended) {place pick : Nat}
    (hresume : s.resume place pick = some (result, s')) :
    result.Gives ∧ (result = .waits → s.frontier.pending = []) := by
  obtain ⟨hplace, hcases⟩ := h.resume_cases hresume
  rcases hcases with ⟨hempty, rfl, -⟩ | ⟨hpending, hmax, hcollected⟩
  · exact ⟨trivial, fun _ => hempty⟩
  · refine ⟨hcollected.gives hmax hpending, fun hwaits => ?_⟩
    rw [hcollected.result] at hwaits
    exact absurd hwaits nofun

end SharedFrontier

/-! ## Runs -/

namespace Exchange

/-- No consumer begins a drain while it is inside another one. -/
def OneDrainEach (x : Exchange) : List Access → Prop
  | [] => True
  | access :: rest =>
    (∀ consumer block pick, access = .drain consumer block pick →
      ∀ other ∈ x.shared.inside, other.id ≠ consumer.id) ∧ (x.step access).OneDrainEach rest

/-- Woken consumers look again, one after the other, and nothing else happens. Each of them is given
by its place, together with the consumer that it may wake. -/
def Looks (x : Exchange) : List (Nat × Nat) → Prop
  | [] => True
  | (place, pick) :: rest =>
    place < x.shared.notified.length ∧ (x.step (.resume place pick)).Looks rest

variable {x : Exchange}

theorem shared_step_resume {place : Nat} (hplace : place < x.shared.notified.length) {pick : Nat}
    {result : DrainStep} {shared : SharedFrontier}
    (h : x.shared.resume place pick = some (result, shared)) :
    (x.step (.resume place pick)).shared = shared := by
  simp only [step, List.getElem?_eq_getElem hplace, h]

theorem attended_fresh (reporting : Bool) : (fresh reporting).shared.Attended where
  woken h := absurd rfl h
  hungry _ h := absurd h List.not_mem_nil

theorem attended_step (h : x.shared.Attended) (access : Access) :
    (x.step access).shared.Attended := by
  cases access with
  | offer a pick => exact h.offer a pick
  | drain consumer block pick => exact h.enter consumer block pick
  | resume place pick =>
    simp only [step]
    split
    · next consumer result shared _ hresume => exact h.resume hresume
    · exact h
  | report place =>
    simp only [step]
    split <;> exact h
  | size | seen => exact h

theorem attended_run (h : x.shared.Attended) (accesses : List Access) :
    (x.run accesses).shared.Attended := by
  induction accesses generalizing x with
  | nil => exact h
  | cons access rest ih => exact ih (attended_step h access)

/-! ## Consumers that are inside one drain each -/

/-- The consumers inside a drain are different ones. -/
def Apart (s : SharedFrontier) : Prop := (s.inside.map Consumer.id).Nodup

theorem Apart.of_perm {s s' : SharedFrontier} (h : Apart s) (hperm : s'.inside.Perm s.inside) :
    Apart s' :=
  (hperm.map Consumer.id).nodup_iff.2 h

theorem Apart.enter {s : SharedFrontier} (h : Apart s) {consumer : Consumer}
    (hnew : ∀ other ∈ s.inside, other.id ≠ consumer.id) (block : Bool) (pick : Nat) :
    Apart (s.enter consumer block pick).2 := by
  obtain ⟨result, s', heq⟩ : ∃ result s', s.enter consumer block pick = (result, s') :=
    ⟨_, _, rfl⟩
  rw [heq]
  rcases SharedFrontier.enter_cases heq with ⟨-, -, rfl⟩ | ⟨-, -, -, rfl⟩ | ⟨-, -, hcollected⟩
  · exact h
  · refine ((s.inside_enter consumer).map Consumer.id).nodup_iff.2 ?_
    refine List.nodup_cons.2 ⟨fun hmem => ?_, h⟩
    obtain ⟨other, hother, hid⟩ := List.mem_map.1 hmem
    exact hnew other hother hid
  · exact h.of_perm hcollected.inside

theorem Apart.resume {s s' : SharedFrontier} (h : Apart s) (hattended : s.Attended)
    {place pick : Nat} {result : DrainStep} (hresume : s.resume place pick = some (result, s')) :
    Apart s' := by
  obtain ⟨hplace, hcases⟩ := hattended.resume_cases hresume
  rcases hcases with ⟨-, -, rfl⟩ | ⟨-, -, hcollected⟩
  · exact h.of_perm (SharedFrontier.inside_waiting_again hplace)
  · have hall : ((s.notified[place] :: (s.awake place).inside).map Consumer.id).Nodup :=
      ((SharedFrontier.inside_awake hplace).map Consumer.id).nodup_iff.2 h
    exact Apart.of_perm (List.nodup_cons.1 hall).2 hcollected.inside

theorem apart_step (h : Apart x.shared) (hattended : x.shared.Attended) {access : Access}
    (hnext : ∀ consumer block pick, access = .drain consumer block pick →
      ∀ other ∈ x.shared.inside, other.id ≠ consumer.id) : Apart (x.step access).shared := by
  cases access with
  | offer a pick => exact h.of_perm (x.shared.inside_offer a pick)
  | drain consumer block pick => exact h.enter (hnext consumer block pick rfl) block pick
  | resume place pick =>
    simp only [step]
    split
    · next consumer result shared _ hresume => exact h.resume hattended hresume
    · exact h
  | report place =>
    simp only [step]
    split <;> exact h
  | size | seen => exact h

theorem apart_run (h : Apart x.shared) (hattended : x.shared.Attended) {accesses : List Access}
    (hone : x.OneDrainEach accesses) : Apart (x.run accesses).shared := by
  induction accesses generalizing x with
  | nil => exact h
  | cons access rest ih =>
    obtain ⟨hnext, hrest⟩ := hone
    exact ih (apart_step h hattended hnext) (attended_step hattended access) hrest

/-! ## Looking again -/

/-- However the woken consumers look again, they come to an end. -/
theorem length_le_of_looks (h : x.shared.Attended) {looks : List (Nat × Nat)}
    (hlooks : x.Looks looks) :
    looks.length ≤ x.shared.frontier.pending.length + x.shared.notified.length := by
  induction looks generalizing x with
  | nil => exact Nat.zero_le _
  | cons look rest ih =>
    obtain ⟨place, pick⟩ := look
    obtain ⟨hplace, hrest⟩ := hlooks
    obtain ⟨result, shared, hresume⟩ := SharedFrontier.exists_resume hplace pick
    have hlt := h.resume_lt hresume
    have hle := ih (attended_step h (.resume place pick)) hrest
    rw [shared_step_resume hplace hresume] at hle
    rw [List.length_cons]
    omega

/-- **No wakeup is lost.** Let any number of producers and consumers use a frontier, in any order:
consumers that wait and consumers that do not, for any number of addresses, and whichever consumer
is woken or looks first.

* While an address is pending and a consumer waits, a consumer was woken and has not looked yet. If
  no consumer begins a drain inside another one, that is some other consumer.
* A drain that may wait, and may take something, is not refused; neither at once nor when it looks
  again does it take an empty batch.
* Whoever was woken can look, and takes something if there is anything.
* If those that were woken look again, in any order, and nothing else happens, then after at most so
  many looks as addresses are pending and consumers woken nobody is woken any more, so that no
  address is pending or nobody waits. -/
theorem no_wakeup_lost (reporting : Bool) (accesses : List Access) :
    let x := (fresh reporting).run accesses
    let s := x.shared
    ((s.frontier.pending ≠ [] → s.waiting ≠ [] → s.notified ≠ []) ∧
        ((fresh reporting).OneDrainEach accesses → s.frontier.pending ≠ [] →
          ∀ consumer ∈ s.waiting, ∃ other ∈ s.notified, other.id ≠ consumer.id)) ∧
      (∀ consumer pick, 1 ≤ consumer.max → (s.enter consumer true pick).1.Gives) ∧
      (∀ place pick, place < s.notified.length →
        ∃ result s', s.resume place pick = some (result, s') ∧ result.Gives ∧
          (result = .waits → s.frontier.pending = [])) ∧
      ∀ looks, x.Looks looks →
        looks.length ≤ s.frontier.pending.length + s.notified.length := by
  intro x s
  have h : s.Attended := attended_run (attended_fresh reporting) accesses
  refine ⟨⟨h.woken, fun hone hpending consumer hwaits => ?_⟩,
    fun consumer pick hmax => SharedFrontier.gives_enter hmax s pick, fun place pick hplace => ?_,
    fun looks hlooks => length_le_of_looks h hlooks⟩
  · have hapart : Apart s :=
      apart_run (x := fresh reporting) List.nodup_nil (attended_fresh reporting) hone
    obtain ⟨other, hother⟩ :=
      List.exists_mem_of_ne_nil _ (h.woken hpending (List.ne_nil_of_mem hwaits))
    refine ⟨other, hother, fun hid => ?_⟩
    rw [Apart, SharedFrontier.inside, List.map_append] at hapart
    exact List.disjoint_of_nodup_append hapart (List.mem_map_of_mem hwaits)
      (hid ▸ List.mem_map_of_mem hother)
  · obtain ⟨result, s', hresume⟩ := SharedFrontier.exists_resume hplace pick
    exact ⟨result, s', hresume, h.gives_resume hresume⟩

/-- Two consumers wait. The first is woken by an offer and loses the address to a consumer that does
not wait; so the next offer finds nothing pending, and wakes the other one as well. -/
example :
    let host (n : UInt8) : Address :=
      { Address.unspecified with raw := ⟨n :: List.replicate 15 0, rfl⟩ }
    let x := (fresh false).run [.drain ⟨1, 5⟩ true 0, .drain ⟨2, 5⟩ true 0, .offer (host 1) 0,
      .drain ⟨3, 5⟩ false 0, .offer (host 2) 0]
    x.shared.waiting = [] ∧ x.shared.notified = [⟨1, 5⟩, ⟨2, 5⟩] := by decide

end Exchange

end PeerCrawl
