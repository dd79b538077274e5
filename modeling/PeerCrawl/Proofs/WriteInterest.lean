import PeerCrawl.Proofs.Bookkeeping

set_option autoImplicit false

/-! # No write is forgotten

A live connection is watched for writability exactly as long as its connect is in flight or
something is left to write (`Crawl.Heeds`). A new connection starts that way, and the dispatch of a
notification restores it (`Crawl.dispatch_attends`) unless the network refuses to change what the
connection is watched for. Every other step leaves the connection alone (`Crawl.Leaves`). -/

namespace PeerCrawl

theorem Connection.wantsWrite_iff (connection : Connection) :
    connection.wantsWrite = true ↔
      connection.isEstablished = false ∨ connection.hasPendingWrites = true := by
  rw [Connection.wantsWrite, Bool.or_eq_true, Bool.not_eq_true']

namespace Crawl

/-- If a connection is live, it is watched for writability exactly if it needs that. -/
def Attends (c : Crawl) (tag : Tag) : Prop :=
  ∀ wanted, (c.roster.get? tag).map Connection.wantsWrite = some wanted →
    (tag ∈ c.writeWatched ↔ wanted = true)

/-- If a connection is live, both the crawl and the network have it watched for writability exactly
if its transport is not established yet or something is left to write. -/
def Heeds (c : Crawl) (tag : Tag) : Prop :=
  ∀ connection, c.roster.get? tag = some connection →
    (tag ∈ c.writeWatched ↔
      connection.isEstablished = false ∨ connection.hasPendingWrites = true) ∧
    (c.net.interest tag = some .readWrite ↔
      connection.isEstablished = false ∨ connection.hasPendingWrites = true)

variable {c c' c'' : Crawl} {tag other : Tag} {connection : Connection}
  {notified : Option Readiness}

theorem attends_of_gone (h : c.roster.get? tag = none) : c.Attends tag := by
  intro wanted hwanted
  rw [h] at hwanted
  exact absurd hwanted (by simp)

theorem attends_of_live (h : c.roster.get? tag = some connection)
    (hwatched : tag ∈ c.writeWatched ↔ connection.wantsWrite = true) : c.Attends tag := by
  intro wanted hwanted
  rw [h, Option.map_some, Option.some.injEq] at hwanted
  rw [← hwanted]
  exact hwatched

/-- The network watches a live connection for what the crawl believes. -/
theorem Attends.heeds (h : c.Attends tag) (hbooked : c.Booked) : c.Heeds tag := by
  intro connection hget
  have hwatched := h connection.wantsWrite (by rw [hget, Option.map_some])
  rw [connection.wantsWrite_iff] at hwatched
  refine ⟨hwatched, ?_⟩
  rw [← hwatched, hbooked.watched tag, and_iff_right (Roster.mem_tags_of_get? hget)]

/-! ## Steps that leave a connection alone -/

/-- A step leaves a connection alone: neither what it wants nor what it is watched for changes. -/
structure Leaves (c : Crawl) (tag : Tag) (c' : Crawl) : Prop where
  wants : (c'.roster.get? tag).map Connection.wantsWrite =
    (c.roster.get? tag).map Connection.wantsWrite
  watched : tag ∈ c'.writeWatched ↔ tag ∈ c.writeWatched

theorem Leaves.trans (h : c.Leaves tag c') (h' : c'.Leaves tag c'') : c.Leaves tag c'' :=
  ⟨h'.wants.trans h.wants, h'.watched.trans h.watched⟩

theorem Leaves.attends (hc : c.Leaves tag c') (h : c.Attends tag) : c'.Attends tag := by
  intro wanted hwanted
  rw [hc.wants] at hwanted
  rw [hc.watched]
  exact h wanted hwanted

theorem Quiet.leaves (hc : c.Quiet c') (tag : Tag) : c.Leaves tag c' := by
  rw [hc.rest]
  exact ⟨rfl, Iff.rfl⟩

/-- The world cannot change what a connection wants. -/
theorem disturb_leaves (c : Crawl) (net : NetworkStack) (sockets : Tag → Socket) (tag : Tag) :
    c.Leaves tag (c.disturb net sockets) := by
  refine ⟨?_, Iff.rfl⟩
  rw [get?_disturb, Option.map_map]
  rfl

theorem Closed.leaves (hc : c.Closed tag connection c') (h : other ≠ tag) : c.Leaves other c' := by
  refine ⟨?_, ?_⟩
  · rw [hc.roster, Roster.get?_without_other h]
  · rw [hc.writeWatched, List.mem_erase_of_ne h]

theorem Closed.attends (hc : c.Closed tag connection c') : c'.Attends tag :=
  attends_of_gone (by rw [hc.roster, Roster.get?_without_self])

/-! ## Dialing -/

/-- A new connection wants to be watched for writability, and is. -/
theorem Dialed.attends {a : Address} (hc : c.Dialed a c') (hordered : c.roster.Ordered)
    (h : c.Attends tag) : c'.Attends tag := by
  cases hc with
  | refused error history opened rest =>
    refine Leaves.attends ?_ h
    rw [rest]
    exact ⟨rfl, Iff.rfl⟩
  | rejected error history opened roster rest =>
    refine Leaves.attends ⟨?_, ?_⟩ h
    · rw [roster]
      rfl
    · rw [rest]
  | admitted connection number peer wants history opened roster writeWatched rest =>
    by_cases hnew : tag = ⟨c.roster.nextTag⟩
    · have hget : c'.roster.get? tag = some connection := by
        rw [roster, hnew]
        exact hordered.get?_add connection
      refine attends_of_live hget ?_
      rw [writeWatched, hnew]
      simp [wants]
    · refine Leaves.attends ⟨?_, ?_⟩ h
      · rw [roster, Roster.get?_add_other hnew]
      · rw [writeWatched, List.mem_append, List.mem_singleton, or_iff_left hnew]

theorem connect_attends (hbooked : c.Booked) (h : c.Attends tag) (a : Address) :
    (c.connect a).Attends tag := by
  have hroom : c.makeRoom.Attends tag := by
    rcases makeRoom_cases hbooked.ordered hbooked.ceiling with
      ⟨hsame, -⟩ | ⟨gone, connection, rest, -, -, hclosed⟩
    · rw [hsame]
      exact h
    · by_cases heq : tag = gone
      · rw [heq]
        exact hclosed.attends
      · exact (hclosed.leaves heq).attends h
  exact (connect_dialed hbooked.makeRoom.ordered a).attends hbooked.makeRoom.ordered hroom

/-! ## Dispatching -/

/-- Of the calls after the first `n`, none has failed to change what a tag is watched for. -/
def UnrefusedSince (c : Crawl) (n : Nat) (tag : Tag) : Prop :=
  ∀ r ∈ c.net.history.drop n, ¬ r.FailedChange tag

theorem InterestUpdate.leaves (hc : c.InterestUpdate tag connection c') (h : other ≠ tag) :
    c.Leaves other c' := by
  cases hc with
  | kept _ => exact ⟨rfl, Iff.rfl⟩
  | failed error interest history opened rest =>
    rw [rest]
    exact ⟨rfl, Iff.rfl⟩
  | granted history opened writeWatched rest =>
    refine ⟨by rw [rest], ?_⟩
    rw [writeWatched]
    split
    · rw [List.mem_append, List.mem_singleton, or_iff_left h, List.mem_erase_of_ne h]
    · rw [List.mem_erase_of_ne h]

/-- If it is not refused, an update of what a connection is watched for brings it up to date. -/
theorem InterestUpdate.attends (hc : c.InterestUpdate tag connection c') (hbooked : c.Booked)
    (hget : c.roster.get? tag = some connection)
    (hmade : c'.UnrefusedSince c.net.history.length tag) : c'.Attends tag := by
  cases hc with
  | kept h => exact attends_of_live hget h
  | failed error interest history opened rest =>
    rw [UnrefusedSince, history, List.drop_left] at hmade
    exact absurd ⟨by simp, _, _, rfl⟩ (hmade _ List.mem_cons_self)
  | granted history opened writeWatched rest =>
    have hget' : c'.roster.get? tag = some connection := by
      rw [rest]
      exact hget
    refine attends_of_live hget' ?_
    rw [writeWatched]
    split
    · next hwants => simp [hwants]
    · next hwants => simp [hwants, hbooked.nodup.not_mem_erase]

theorem conclude_leaves (hget : c.roster.get? tag = some connection) (h : other ≠ tag)
    (peer : Address) (result : Except ConnectionError Unit) :
    c.Leaves other (c.conclude tag peer result) := by
  rcases conclude_cases hget peer result with ⟨-, hupdate⟩ | ⟨error, -, hclosed⟩
  · exact hupdate.leaves h
  · exact hclosed.leaves h

theorem conclude_attends (hbooked : c.Booked) (hget : c.roster.get? tag = some connection)
    (peer : Address) (result : Except ConnectionError Unit)
    (hmade : (c.conclude tag peer result).UnrefusedSince c.net.history.length tag) :
    (c.conclude tag peer result).Attends tag := by
  rcases conclude_cases hget peer result with ⟨-, hupdate⟩ | ⟨error, -, hclosed⟩
  · exact hupdate.attends hbooked hget hmade
  · exact hclosed.attends

theorem driven_leaves (c : Crawl) {ready : Readiness} (connection : Connection)
    (h : tag ≠ ready.tag) : c.Leaves tag (c.driven ready connection) := by
  rw [driven_rest]
  refine ⟨?_, Iff.rfl⟩
  show ((c.roster.modify _ _).get? tag).map _ = _
  rw [Roster.get?_modify_other h]

theorem dispatch_leaves (c : Crawl) {ready : Readiness} (h : tag ≠ ready.tag) :
    c.Leaves tag (c.dispatch ready) := by
  cases hget : c.roster.get? ready.tag with
  | none =>
    rw [dispatch_of_stale hget]
    exact (quiet_note c _).leaves tag
  | some connection =>
    rw [dispatch_of_live hget]
    exact (c.driven_leaves connection h).trans
      (conclude_leaves (get?_driven hget) h connection.peer _)

/-- Whatever a connection was watched for before, its dispatch brings that up to date unless the
network refuses. -/
theorem dispatch_attends (hbooked : c.Booked) {ready : Readiness}
    (hmade : (c.dispatch ready).UnrefusedSince c.net.history.length ready.tag) :
    (c.dispatch ready).Attends ready.tag := by
  cases hget : c.roster.get? ready.tag with
  | none =>
    rw [dispatch_of_stale hget]
    exact attends_of_gone hget
  | some connection =>
    rw [UnrefusedSince, dispatch_of_live hget, ← c.net_driven ready connection] at hmade
    rw [dispatch_of_live hget]
    exact conclude_attends ((driven_sameBooks hbooked.ordered hget).booked hbooked)
      (get?_driven hget) connection.peer _ hmade

/-! ## Runs -/

theorem Attends.change (h : c.Attends tag) (hbooked : c.Booked) (hc : c.Change notified c')
    (hmade : c'.UnrefusedSince c.net.history.length tag) : c'.Attends tag := by
  cases hc with
  | quiet hquiet => exact (hquiet.leaves tag).attends h
  | disturbed net sockets => exact (c.disturb_leaves net sockets tag).attends h
  | connected a => exact connect_attends hbooked h a
  | dispatched ready =>
    by_cases heq : tag = ready.tag
    · rw [heq] at hmade ⊢
      exact dispatch_attends hbooked hmade
    · exact (c.dispatch_leaves heq).attends h

/-- What a run keeps for a connection that was watched rightly after the first `n` calls: it still
is, unless a change was refused since. -/
structure AttendsSince (n : Nat) (tag : Tag) (c : Crawl) : Prop where
  booked : c.Booked
  old : n ≤ c.net.history.length
  attends : c.UnrefusedSince n tag → c.Attends tag

theorem AttendsSince.change {n : Nat} (h : AttendsSince n tag c) (hc : c.Change notified c') :
    AttendsSince n tag c' := by
  obtain ⟨made, hmade⟩ := (h.booked.continues hc).history
  refine ⟨h.booked.change hc, ?_, ?_⟩
  · rw [← hmade, List.length_append]
    exact Nat.le_add_right_of_le h.old
  · intro hunrefused
    rw [UnrefusedSince, ← hmade, List.drop_append_of_le_length h.old] at hunrefused
    refine Attends.change (h.attends ?_) h.booked hc ?_
    · intro r hr
      exact hunrefused r (List.mem_append_left _ hr)
    · intro r hr
      rw [← hmade, List.drop_left] at hr
      exact hunrefused r (List.mem_append_right _ hr)

end Crawl

namespace Engine

/-- **No write is forgotten.** Let a crawl proceed among others, over sockets and a network that do
as they please. A live connection is watched for writability exactly if its transport is not
established yet or something is left to write, as long as no change of what it is watched for was
refused. After a refusal, that is so again once a notification for the connection was dispatched, as
long as no change was refused in that dispatch or since. -/
theorem no_write_forgotten (config : Configuration) (limits : CrawlLimits) (net : NetworkStack)
    (reporting : Bool) (actions : List Action) :
    let e := (fresh config limits net reporting).run actions
    (∀ tag, (∀ r ∈ e.crawl.net.history, ¬ r.FailedChange tag) → e.crawl.Heeds tag) ∧
      ∀ ready rest more, e.phase = .dispatching (ready :: rest) →
        let e' := e.run (.proceed :: more)
        (∀ r ∈ e'.crawl.net.history.drop e.crawl.net.history.length, ¬ r.FailedChange ready.tag) →
          e'.crawl.Heeds ready.tag := by
  intro e
  have hbooked : e.crawl.Booked := booked_run config limits net reporting actions
  refine ⟨?_, ?_⟩
  · intro tag hunrefused
    have hfresh : Crawl.AttendsSince 0 tag (fresh config limits net reporting).crawl :=
      ⟨booked_fresh config limits net reporting, Nat.zero_le _, fun _ => Crawl.attends_of_gone rfl⟩
    exact ((run_keeps (fun hc h => h.change hc) hfresh actions).attends hunrefused).heeds hbooked
  · intro ready rest more hphase e' hunrefused
    have hdispatched : Crawl.AttendsSince e.crawl.net.history.length ready.tag e.proceed.crawl := by
      have hcontinues := hbooked.continues e.proceed_change
      refine ⟨hbooked.change e.proceed_change, hcontinues.history.length_le, ?_⟩
      rw [proceed_dispatch hphase]
      exact Crawl.dispatch_attends hbooked
    have h := run_keeps (fun hc h => h.change hc) hdispatched more
    exact (h.attends hunrefused).heeds h.booked

/-- A connection before and after a notification that its connect has completed: the introduction is
written at once, so nothing is left to write. -/
theorem no_write_forgotten_once_introduced :
    let ready : Readiness := { tag := ⟨0⟩, readable := false, writable := true, errored := false }
    let limits : CrawlLimits :=
      { maxConnections := 1, batchSize := 1, pollTimeout := ⟨0⟩, statusInterval := ⟨0⟩ }
    let e := (fresh .standard limits { ready := [ready] } false).run
      [.offer Address.unspecified, .proceed, .proceed, .proceed]
    let e' := e.run [.proceed]
    e.crawl.writeWatched = [ready.tag] ∧ e.crawl.Heeds ready.tag ∧
      e'.crawl.writeWatched = [] ∧ e'.crawl.roster.contains ready.tag = true ∧
      e'.crawl.Heeds ready.tag := by
  intro ready limits e e'
  have hphase : e.phase = .dispatching [ready] := by decide +kernel
  have hhistory : e.crawl.net.history = [⟨.dial Address.unspecified, none⟩,
      ⟨.register 0 ready.tag .readWrite, none⟩, ⟨.wait 1 ⟨0⟩, none⟩] := by decide +kernel
  have hlater : e'.crawl.net.history.drop e.crawl.net.history.length =
      [⟨.reregister 0 ready.tag .readable, none⟩] := by decide +kernel
  have h := no_write_forgotten .standard limits { ready := [ready] } false
    [.offer Address.unspecified, .proceed, .proceed, .proceed]
  refine ⟨by decide +kernel, h.1 ready.tag ?_, by decide +kernel, by decide +kernel,
    h.2 ready [] [] hphase ?_⟩
  · intro r hr
    rw [hhistory] at hr
    simp only [List.mem_cons, List.not_mem_nil, or_false] at hr
    rcases hr with rfl | rfl | rfl <;> exact fun hfailed => hfailed.1 rfl
  · intro r hr
    rw [hlater, List.mem_singleton] at hr
    rw [hr]
    exact fun hfailed => hfailed.1 rfl

end Engine

end PeerCrawl
