import PeerCrawl.Proofs.Bookkeeping

set_option autoImplicit false

/-! # Who goes when somebody comes

The admission of an address closes the oldest connection if no more may be live, and no other
(`Crawl.Booked.makesRoom`); then it takes in one connection, or none if the dial or the registration
fails (`Crawl.Booked.takesIn`). So no more connections are ever live than may be, counting one that
always may (`Engine.admission_policy`). -/

namespace PeerCrawl

/-- The call lets go of a socket. -/
def Request.Drops (socket : Nat) (r : Request) : Prop :=
  r.call = .deregister socket ∨ r.call = .close socket

namespace Crawl

/-- Calls make room for one more connection: they let go of those connections that are `closed`, of
which there is at most one, and all others stay as they are. -/
structure MakesRoom (c : Crawl) (closed : List (Tag × Connection)) (made : List Request)
    (c' : Crawl) : Prop where
  connections : c.roster.connections = closed ++ c'.roster.connections
  history : c'.net.history = c.net.history ++ made
  calls : made.map Request.call = closed.flatMap fun entry =>
    [.deregister entry.2.socket.number, .close entry.2.socket.number]
  few : closed.length ≤ 1
  needed : closed ≠ [] ↔ c.limits.maxConnections ≤ c.connectionCount ∧ c.connectionCount ≠ 0
  oldest : ∀ gone ∈ closed, ∀ other ∈ c'.roster.connections, gone.1.number < other.1.number

/-- Calls, the first of which dials an address, take in the connections that are `admitted`, of
which there is at most one, and there is none only if the dial or the registration has failed. No
connection that was live before is let go of. -/
structure TakesIn (c : Crawl) (a : Address) (admitted : List (Tag × Connection))
    (made : List Request) (c' : Crawl) : Prop where
  connections : c'.roster.connections = c.roster.connections ++ admitted
  history : c'.net.history = c.net.history ++ made
  dialed : (made.map Request.call).head? = some (.dial a)
  spared : ∀ r ∈ made, ∀ entry ∈ c.roster.connections, ¬ r.Drops entry.2.socket.number
  few : admitted.length ≤ 1
  peer : ∀ entry ∈ admitted, entry.2.peer = a
  failed : admitted = [] ↔
    ∃ r ∈ made, r.failure ≠ none ∧ (r.call = .dial a ∨ r.registration? ≠ none)

variable {c c' : Crawl}

/-- Room is made at the expense of the oldest connection, whatever it is about. -/
theorem Booked.makesRoom (h : c.Booked) : ∃ closed made, c.MakesRoom closed made c.makeRoom := by
  rcases makeRoom_cases h.ordered h.ceiling with
    ⟨hsame, hcount⟩ | ⟨tag, connection, rest, hr, hfull, hclosed⟩
  · refine ⟨[], [], ?_⟩
    rw [hsame]
    refine ⟨rfl, (List.append_nil _).symm, rfl, by simp, ?_, by simp⟩
    rw [connectionCount]
    simp only [ne_eq, not_true_eq_false, false_iff, not_and, not_not]
    intro hfull
    omega
  · obtain ⟨failure, hhistory⟩ := hclosed.history
    obtain ⟨-, -, hrest, holdest⟩ := h.ordered.without_first hr
    rw [← hclosed.roster] at hrest
    refine ⟨[(tag, connection)], _, ?_, hhistory, rfl, Nat.le_refl _, ?_, ?_⟩
    · rw [hr, hrest]
      rfl
    · have hcount : c.roster.count ≠ 0 := by
        rw [Roster.count, hr]
        simp
      simp [connectionCount, hfull, hcount]
    · intro gone hgone other hother
      rw [List.mem_singleton.1 hgone]
      rw [hrest] at hother
      exact holdest other hother

/-- What a dial opens is nobody's socket yet. -/
theorem Booked.number_ne_opened (h : c.Booked) :
    ∀ entry ∈ c.roster.connections, entry.2.socket.number ≠ c.net.opened := by
  intro entry hentry
  have hslot : (entry.2.socket.number, entry.1) ∈ c.slots := List.mem_map_of_mem hentry
  exact Nat.ne_of_lt (h.tracks.bounded _ (h.tracks.sublist.subset hslot)).1

theorem Booked.takesIn (h : c.Booked) {a : Address} (hc : c.Dialed a c') :
    ∃ admitted made, c.TakesIn a admitted made c' := by
  cases hc with
  | refused error history opened rest =>
    refine ⟨[], _, ?_, history, rfl, ?_, by simp, by simp, ?_⟩
    · rw [rest, List.append_nil]
    · simp [Request.Drops]
    · simp
  | rejected error history opened roster rest =>
    refine ⟨[], _, ?_, history, rfl, ?_, by simp, by simp, ?_⟩
    · rw [roster, List.append_nil]
    · intro r hr entry hentry
      have hother := h.number_ne_opened entry hentry
      rcases List.mem_cons.1 hr with rfl | hr
      · simp [Request.Drops]
      rcases List.mem_cons.1 hr with rfl | hr
      · simp [Request.Drops]
      · rw [List.mem_singleton.1 hr]
        simp [Request.Drops, Ne.symm hother]
    · simp [Request.registration?]
  | admitted connection number peer wants history opened roster writeWatched rest =>
    refine ⟨[(⟨c.roster.nextTag⟩, connection)], _, ?_, history, rfl, ?_, Nat.le_refl _, ?_, ?_⟩
    · rw [roster]
      rfl
    · simp [Request.Drops]
    · simp [peer]
    · simp

end Crawl

namespace Engine

/-- **Only the oldest connection has to go, and only if there is no room.** Let a crawl proceed
among others, over sockets and a network that do as they please. No more connections are ever live
than may be, counting one that always may; nor are they when room was made and the connection that
is to come is live as well. Whoever is admitted next, room is made by closing one connection if as
many are live as may be and there is one, and none otherwise; it is the one with the smallest tag.
Then one connection comes, or none if the dial or the registration fails, and nobody else goes. -/
theorem admission_policy (config : Configuration) (limits : CrawlLimits) (net : NetworkStack)
    (reporting : Bool) (actions : List Action) :
    let e := (fresh config limits net reporting).run actions
    e.crawl.limits = limits ∧
      e.crawl.connectionCount ≤ max limits.maxConnections 1 ∧
      e.crawl.makeRoom.connectionCount + 1 ≤ max limits.maxConnections 1 ∧
      ∀ a rest, e.phase = .admitting (a :: rest) → ∃ closed made admitted made',
        e.crawl.MakesRoom closed made e.crawl.makeRoom ∧
          e.crawl.makeRoom.TakesIn a admitted made' e.proceed.crawl := by
  intro e
  have h : e.crawl.Booked := booked_run config limits net reporting actions
  have hlimits : e.crawl.limits = limits :=
    (run_continues (booked_fresh config limits net reporting) actions).limits
  refine ⟨hlimits, ?_, ?_, ?_⟩
  · rw [← hlimits]
    exact h.ceiling
  · rw [← hlimits]
    exact h.room
  · intro a rest hphase
    obtain ⟨closed, made, hroom⟩ := h.makesRoom
    obtain ⟨admitted, made', htaken⟩ :=
      h.makeRoom.takesIn (Crawl.connect_dialed h.makeRoom.ordered a)
    refine ⟨closed, made, admitted, made', hroom, ?_⟩
    rw [proceed_dial hphase]
    exact htaken

/-- Where one connection may be live and one is, it goes when the next address is dialed. -/
theorem admission_policy_at_ceiling :
    let limits : CrawlLimits :=
      { maxConnections := 1, batchSize := 2, pollTimeout := ⟨0⟩, statusInterval := ⟨0⟩ }
    let a : Address := Address.unspecified
    let b : Address := { a with raw := ⟨List.replicate 16 1, rfl⟩ }
    let e := (fresh .standard limits {} false).run [.offer a, .offer b, .proceed, .proceed]
    e.crawl.connectionCount = 1 ∧ ∃ closed made admitted made', closed ≠ [] ∧
      e.crawl.MakesRoom closed made e.crawl.makeRoom ∧
        e.crawl.makeRoom.TakesIn b admitted made' e.proceed.crawl := by
  intro limits a b e
  have hcount : e.crawl.connectionCount = 1 := by decide +kernel
  have hphase : e.phase = .admitting [b] := by decide +kernel
  obtain ⟨hlimits, -, -, h⟩ := admission_policy .standard limits {} false
    [.offer a, .offer b, .proceed, .proceed]
  obtain ⟨closed, made, admitted, made', hroom, htaken⟩ := h b [] hphase
  refine ⟨hcount, closed, made, admitted, made', hroom.needed.2 ?_, hroom, htaken⟩
  rw [show e.crawl.limits = limits from hlimits, hcount]
  exact ⟨Nat.le_refl 1, Nat.one_ne_zero⟩

end Engine

end PeerCrawl
