import Pageweave.Key
/-!
# The log of invalidations

The keys that were invalidated most recently, each with its place in the order of all invalidations. A place from which
keys have already been dropped is answered with nothing rather than with an incomplete list.
-/
namespace Pageweave.Cache

structure Log where
  /-- The number of invalidations so far. -/
  next : Nat := 0
  /-- The latest ones, the oldest of them first. -/
  recent : List (Nat × Key) := []

namespace Log

def capacity : Nat := 1024

def record (l : Log) (k : Key) : Log :=
  let kept := if l.recent.length = capacity then l.recent.drop 1 else l.recent
  ⟨l.next + 1, kept ++ [(l.next, k)]⟩

/-- The place of the oldest key that is still known. -/
def oldest (l : Log) : Nat :=
  match l.recent with
  | [] => l.next
  | (place, _) :: _ => place

/-- The keys from a place on, or nothing if some were dropped. -/
def since? (l : Log) (place : Nat) : Option (List Key) :=
  if place < l.oldest then none else some ((l.recent.filter fun e => place ≤ e.1).map Prod.snd)

end Log
end Pageweave.Cache
