import PeerCrawl.Crawl.Basic

set_option autoImplicit false

/-! # Admission

How an address becomes a live connection: the oldest connections go until there is room, the
address is dialed, and the new connection is watched. A dial or a registration that fails admits
nothing. Making room comes to an end because each eviction shortens the order of eviction
(`length_eviction_evictOldest_lt`). -/

namespace PeerCrawl.Crawl

/-- Close the oldest connection, if there is one. -/
def evictOldest (c : Crawl) : Option Crawl :=
  match c.roster.evict with
  | (none, _) => none
  | (some tag, roster) => some (({ c with roster }.note (.evicting tag)).close tag)

theorem length_eviction_close_le (c : Crawl) (tag : Tag) :
    (c.close tag).roster.eviction.length ≤ c.roster.eviction.length := by
  have hremove : (c.roster.remove tag).2.eviction.length ≤ c.roster.eviction.length := by
    unfold Roster.remove
    split
    · exact Nat.le_refl _
    · exact List.length_erase_le
  unfold close
  dsimp only
  split
  · exact Nat.le_refl _
  · rename_i hr
    rw [hr] at hremove
    split <;> exact hremove

theorem length_eviction_evictOldest_lt {c c' : Crawl} (h : c.evictOldest = some c') :
    c'.roster.eviction.length < c.roster.eviction.length := by
  unfold evictOldest Roster.evict at h
  cases ho : c.roster.eviction with
  | nil => simp [ho] at h
  | cons tag rest =>
    simp only [ho, List.head?_cons, List.tail_cons, Option.some.injEq] at h
    have hle := length_eviction_close_le
      ({ c with roster := { c.roster with eviction := rest } }.note (.evicting tag)) tag
    rw [h] at hle
    exact Nat.lt_succ_of_le hle

/-- Close the oldest connections until there is room for one more, or none is left. -/
def makeRoom (c : Crawl) : Crawl :=
  if c.limits.maxConnections ≤ c.roster.count then
    match _h : c.evictOldest with
    | none => c
    | some c' => c'.makeRoom
  else c
termination_by c.roster.eviction.length
decreasing_by exact length_eviction_evictOldest_lt _h

/-- Watch a new connection, or let it go again. -/
def watch (c : Crawl) (a : Address) (tag : Tag) (socket : Socket) : Crawl :=
  let (failure, net) := c.net.request (.register socket.number tag .readWrite)
  let c := { c with net }
  match failure with
  | none => { c with writeWatched := c.writeWatched ++ [tag] }.note (.dialing a tag)
  | some error =>
    let c := c.note (.registrationFailed a error)
    match c.roster.remove tag with
    | (none, _) => c
    | (some connection, roster) => { c with roster, net := c.net.close connection.socket }

/-- Dial an address, after making room for it. -/
def connect (c : Crawl) (a : Address) : Crawl :=
  let c := c.makeRoom
  let (dialed, net) := c.net.dial a
  let c := { c with net }
  match dialed with
  | .error error => c.note (.dialFailed a (.io error))
  | .ok (socket, complete) =>
    let fresh := Connection.ofSocket socket a c.config
    let begun := if complete then fresh.established else .unchanged fresh.markConnecting ()
    let (tag, roster) := c.roster.add begun.connection
    ({ c with roster }.noteAll begun.notices).watch a tag socket

end PeerCrawl.Crawl
