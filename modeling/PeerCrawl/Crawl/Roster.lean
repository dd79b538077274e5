import PeerCrawl.Connection.Basic
import PeerCrawl.Crawl.Notice

set_option autoImplicit false

/-! # The roster of a crawl

The live connections of a crawl by their tags, and the order in which they came. Tags are given in
increasing order and never again. -/

namespace PeerCrawl

/-- Live connections, and the order in which they are to go. -/
structure Roster where
  /-- By increasing tag. -/
  connections : List (Tag × Connection) := []
  /-- The tags that were not evicted, oldest first. -/
  eviction : List Tag := []
  /-- The number of the next tag. -/
  nextTag : Nat := 0

namespace Roster

def count (r : Roster) : Nat := r.connections.length

def get? (r : Roster) (tag : Tag) : Option Connection :=
  (r.connections.find? (·.1 = tag)).map Prod.snd

def contains (r : Roster) (tag : Tag) : Bool := (r.get? tag).isSome

/-- Take a connection in, under a tag of its own. -/
def add (r : Roster) (c : Connection) : Tag × Roster :=
  let tag : Tag := ⟨r.nextTag⟩
  (tag,
    { connections := r.connections ++ [(tag, c)]
      eviction := r.eviction ++ [tag]
      nextTag := r.nextTag + 1 })

/-- Change the connection with a tag, if it is live. -/
def modify (r : Roster) (tag : Tag) (change : Connection → Connection) : Roster :=
  { r with connections :=
      r.connections.map fun entry => if entry.1 = tag then (tag, change entry.2) else entry }

/-- Name the oldest connection that was not evicted before. It stays live until it is removed. -/
def evict (r : Roster) : Option Tag × Roster :=
  (r.eviction.head?, { r with eviction := r.eviction.tail })

/-- Let a connection go, if it is live. -/
def remove (r : Roster) (tag : Tag) : Option Connection × Roster :=
  match r.get? tag with
  | none => (none, r)
  | some c =>
    (some c,
      { r with
        connections := r.connections.filter (·.1 ≠ tag), eviction := r.eviction.erase tag })

end Roster

end PeerCrawl
