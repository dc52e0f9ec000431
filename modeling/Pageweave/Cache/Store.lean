import Pageweave.Cache.Log
/-!
# The cache of compiled pages

A map from keys to values that is safe against changes during a compile. Before a compile begins a ticket notes how
often its key was invalidated, how often the cache was cleared and how long the log is. The value is kept only if, when
it is done, the key was not invalidated, the cache not cleared, and nothing the value depends on was invalidated.
-/
namespace Pageweave

/-- Values that know which keys they were built from. -/
class Dependent (α : Type) where
  dependsOn : α → Key → Bool

export Dependent (dependsOn)

structure CacheStats where
  hits : Nat := 0
  misses : Nat := 0
  compiles : Nat := 0
  deriving DecidableEq

namespace CacheStats

/-- The percentage of lookups that found a value. -/
def hitRate (s : CacheStats) : Float :=
  if s.hits + s.misses = 0 then 0.0
  else Float.ofNat s.hits / Float.ofNat (s.hits + s.misses) * 100.0

end CacheStats

namespace Cache

structure Entry (α : Type) where
  key : Key
  value : α
  epoch : Nat

/-- What was the case when a compile began. -/
structure Ticket where
  key : Key
  generation : Nat
  epoch : Nat
  mark : Nat
  deriving DecidableEq

end Cache

structure Cache (α : Type) where
  /-- Ordered by key, each key once. -/
  entries : List (Cache.Entry α) := []
  /-- How often keys were invalidated since they were first compiled. A key stays when its value goes. -/
  generations : List (Key × Nat) := []
  log : Cache.Log := {}
  /-- How often the cache was cleared. -/
  epoch : Nat := 0
  stats : CacheStats := {}

namespace Cache

variable {α : Type}

def generation? (c : Cache α) (k : Key) : Option Nat := (c.generations.find? fun e => e.1 == k).map Prod.snd

def generation (c : Cache α) (k : Key) : Nat := (c.generation? k).getD 0

/-- Counts one more invalidation of a key, if they are counted. -/
def bump (k : Key) (generations : List (Key × Nat)) : List (Key × Nat) :=
  generations.map fun e => if e.1 = k then (e.1, e.2 + 1) else e

/-- The value of a key, unless it dates from before the cache was last cleared. -/
def lookup? (c : Cache α) (k : Key) : Option α :=
  ((c.entries.find? fun e => e.key == k).filter fun e => e.epoch == c.epoch).map Entry.value

def contains (c : Cache α) (k : Key) : Bool := (c.lookup? k).isSome

def size (c : Cache α) : Nat := c.entries.length

def countHit (c : Cache α) : Cache α := { c with stats := { c.stats with hits := c.stats.hits + 1 } }

/-- A compile begins. From now on the invalidations of its key are counted. -/
def begin (c : Cache α) (k : Key) : Ticket × Cache α :=
  (⟨k, c.generation k, c.epoch, c.log.next⟩,
    { c with
      generations := if (c.generation? k).isSome then c.generations else c.generations ++ [(k, 0)],
      stats := { c.stats with misses := c.stats.misses + 1 } })

def place (e : Entry α) : List (Entry α) → List (Entry α)
  | [] => [e]
  | f :: rest =>
    if e.key = f.key then e :: rest else if e.key < f.key then e :: f :: rest else f :: place e rest

/-- Is a value that was begun with this ticket still up to date? -/
def isCurrent [Dependent α] (c : Cache α) (t : Ticket) (value : α) : Bool :=
  c.generation t.key == t.generation && c.epoch == t.epoch &&
    (match c.log.since? t.mark with
      | some keys => !keys.any (dependsOn value)
      | none => false)

/-- A compile ends well: its value is kept if it is still up to date. -/
def finish [Dependent α] (c : Cache α) (t : Ticket) (value : α) : Cache α :=
  let c := { c with stats := { c.stats with compiles := c.stats.compiles + 1 } }
  if c.isCurrent t value then { c with entries := place ⟨t.key, value, c.epoch⟩ c.entries } else c

/-- Forgets the value of a key. -/
def invalidate (c : Cache α) (k : Key) : Cache α :=
  { c with
    log := c.log.record k, generations := bump k c.generations,
    entries := c.entries.filter fun e => !(e.key == k) }

/-- The keys of the values that depend on a key, in ascending order. -/
def dependents [Dependent α] (c : Cache α) (k : Key) : List Key :=
  (c.entries.filter fun e => dependsOn e.value k).map Entry.key

/-- Forgets the values that depend on a key. -/
def invalidateDependents [Dependent α] (c : Cache α) (k : Key) : Cache α := (c.dependents k).foldl invalidate c

/-- A key changed: forgets its value and those that depend on it. -/
def change [Dependent α] (c : Cache α) (k : Key) : Cache α := (c.invalidate k).invalidateDependents k

/-- Forgets everything. -/
def clear (c : Cache α) : Cache α := { c with epoch := c.epoch + 1, entries := [] }

/-- The value of a key, compiled if it is not there. A compile that fails leaves nothing. -/
def getOrCompile [Dependent α] {ε : Type} (c : Cache α) (k : Key) (compile : Unit → Except ε α) :
    Except ε α × Cache α :=
  match c.lookup? k with
  | some v => (.ok v, c.countHit)
  | none =>
    let (ticket, c) := c.begin k
    match compile () with
    | .ok v => (.ok v, c.finish ticket v)
    | .error e => (.error e, c)

end Cache
end Pageweave
