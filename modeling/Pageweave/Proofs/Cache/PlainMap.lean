import Mathlib.Data.Finset.Card
import Mathlib.Data.Multiset.Basic
import Mathlib.Logic.Function.Basic
import Pageweave.Cache.Traffic
/-!
# The cache as a plain map

A finite map from keys to values, and callers around it who take turns. There are no epochs, no counted invalidations
and no log: of each compile that is under way the map knows which keys were forgotten since it began, and whether all
were. A value is set if its key was not among them and it depends on none of them, as long as they are not too many.
-/
namespace Pageweave.Cache

/-- A finite map: the keys it has, and the value of each of them. -/
structure PlainMap (α : Type) where
  keys : Finset Key
  get? : Key → Option α
  mem_keys : ∀ k, k ∈ keys ↔ (get? k).isSome = true

namespace PlainMap

variable {α : Type} {m : PlainMap α} {k q : Key} {v : α} {ks : Finset Key}

def empty : PlainMap α := ⟨∅, fun _ => none, by simp⟩

def set (m : PlainMap α) (k : Key) (v : α) : PlainMap α where
  keys := insert k m.keys
  get? q := if q = k then some v else m.get? q
  mem_keys q := by
    by_cases same : q = k
    · simp [same]
    · simp [same, m.mem_keys]

/-- Removes some keys and nothing else. -/
def without (m : PlainMap α) (ks : Finset Key) : PlainMap α where
  keys := m.keys \ ks
  get? q := if q ∈ ks then none else m.get? q
  mem_keys q := by
    by_cases gone : q ∈ ks
    · simp [gone]
    · simp [gone, m.mem_keys]

/-- The keys whose values depend on a key. -/
def dependents [Dependent α] (m : PlainMap α) (k : Key) : Finset Key :=
  m.keys.filter fun q => (m.get? q).any fun v => dependsOn v k

theorem get?_set : (m.set k v).get? q = if q = k then some v else m.get? q := rfl

theorem get?_without : (m.without ks).get? q = if q ∈ ks then none else m.get? q := rfl

theorem mem_dependents [Dependent α] :
    q ∈ m.dependents k ↔ ∃ v, m.get? q = some v ∧ dependsOn v k = true := by
  simp only [dependents, Finset.mem_filter, m.mem_keys]
  cases m.get? q with
  | none => simp
  | some v => simp

end PlainMap

/-- What was forgotten while a compile was under way. -/
structure Meanwhile where
  forgotten : Multiset Key := 0
  cleared : Bool := false

namespace Meanwhile

def add (m : Meanwhile) (ks : Finset Key) : Meanwhile := { m with forgotten := m.forgotten + ks.val }

def clear (m : Meanwhile) : Meanwhile := { m with cleared := true }

/-- May a value still be set for a key? -/
def Spares {α : Type} [Dependent α] (m : Meanwhile) (k : Key) (v : α) : Prop :=
  k ∉ m.forgotten ∧ m.cleared = false ∧ (∀ q ∈ m.forgotten, dependsOn v q = false) ∧ m.forgotten.card ≤ 1024

instance {α : Type} [Dependent α] (m : Meanwhile) (k : Key) (v : α) : Decidable (m.Spares k v) :=
  inferInstanceAs (Decidable (_ ∧ _))

end Meanwhile

/-- How far a caller has come. -/
inductive Stage where
  | asking
  | waiting
  | woken
  | compiling
  deriving DecidableEq

def Stage.hasTurn : Stage → Bool
  | .woken | .compiling => true
  | .asking | .waiting => false

structure PlainCaller where
  number : Nat
  key : Key
  stage : Stage
  deriving DecidableEq

structure PlainTraffic (ε α : Type) where
  map : PlainMap α := .empty
  /-- Those who have no outcome yet; whoever began to wait earlier stands further in front. -/
  callers : List PlainCaller := []
  /-- What happened since a caller began to compile. -/
  since : Nat → Meanwhile := fun _ => {}
  outcomes : List (Nat × Outcome ε α) := []
  next : Nat := 0
  stats : CacheStats := {}

namespace PlainTraffic

variable {ε α : Type}

def caller? (p : PlainTraffic ε α) (n : Nat) : Option PlainCaller := p.callers.find? fun c => c.number == n

def isBusy (p : PlainTraffic ε α) (k : Key) : Bool := p.callers.any fun c => c.key == k && c.stage.hasTurn

def leave (p : PlainTraffic ε α) (n : Nat) : PlainTraffic ε α :=
  { p with callers := p.callers.filter fun c => !(c.number == n) }

def enter (p : PlainTraffic ε α) (c : PlainCaller) : PlainTraffic ε α :=
  { p with callers := (p.leave c.number).callers ++ [c] }

def settle (p : PlainTraffic ε α) (n : Nat) (o : Outcome ε α) : PlainTraffic ε α :=
  { p.leave n with outcomes := p.outcomes ++ [(n, o)] }

/-- The turn of a key ends; the longest waiting caller gets it. -/
def passOn (p : PlainTraffic ε α) (k : Key) : PlainTraffic ε α :=
  match p.callers.find? fun c => c.key == k && c.stage == .waiting with
  | some c => p.enter { c with stage := .woken }
  | none => p

def hit (p : PlainTraffic ε α) (n : Nat) (v : α) : PlainTraffic ε α :=
  { p with stats := { p.stats with hits := p.stats.hits + 1 } }.settle n (.value v false)

/-- A caller has the turn: it gets the value of the map, or begins to compile. -/
def serve (p : PlainTraffic ε α) (n : Nat) (k : Key) : PlainTraffic ε α :=
  match p.map.get? k with
  | some v => (p.hit n v).passOn k
  | none =>
    { p with
      since := Function.update p.since n {},
      stats := { p.stats with misses := p.stats.misses + 1 } }.enter ⟨n, k, .compiling⟩

def call (p : PlainTraffic ε α) (k : Key) : PlainTraffic ε α :=
  let p' := { p with next := p.next + 1 }
  match p.map.get? k with
  | some v => p'.hit p.next v
  | none => p'.enter ⟨p.next, k, .asking⟩

def go (p : PlainTraffic ε α) (n : Nat) : PlainTraffic ε α :=
  match p.caller? n with
  | some ⟨_, k, .asking⟩ => if p.isBusy k then p.enter ⟨n, k, .waiting⟩ else p.serve n k
  | some ⟨_, k, .woken⟩ => p.serve n k
  | _ => p

/-- A compile ends: a value is set if it is spared, and a failure changes nothing in the map. -/
def finish [Dependent α] (p : PlainTraffic ε α) (n : Nat) (result : Except ε α) : PlainTraffic ε α :=
  match p.caller? n with
  | some ⟨_, k, .compiling⟩ =>
    match result with
    | .ok v =>
      ({ p with
        map := if (p.since n).Spares k v then p.map.set k v else p.map,
        stats := { p.stats with compiles := p.stats.compiles + 1 } }.settle n (.value v true)).passOn k
    | .error e => (p.settle n (.failed e)).passOn k
  | _ => p

def cancel (p : PlainTraffic ε α) (n : Nat) : PlainTraffic ε α :=
  match p.caller? n with
  | none => p
  | some c => if c.stage.hasTurn then (p.settle n .cancelled).passOn c.key else p.settle n .cancelled

/-- Removes keys from the map; whoever compiles takes note. -/
def forget (p : PlainTraffic ε α) (ks : Finset Key) : PlainTraffic ε α :=
  { p with map := p.map.without ks, since := fun n => (p.since n).add ks }

def invalidateDependents [Dependent α] (p : PlainTraffic ε α) (k : Key) : PlainTraffic ε α :=
  p.forget (p.map.dependents k)

def step [Dependent α] (p : PlainTraffic ε α) : Event ε α → PlainTraffic ε α
  | .call k => p.call k
  | .go n => p.go n
  | .finish n result => p.finish n result
  | .cancel n => p.cancel n
  | .invalidate k => p.forget {k}
  | .invalidateDependents k => p.invalidateDependents k
  | .change k => (p.forget {k}).invalidateDependents k
  | .clear => { p with map := .empty, since := fun n => (p.since n).clear }

def run [Dependent α] (p : PlainTraffic ε α) (events : List (Event ε α)) : PlainTraffic ε α := events.foldl step p

end PlainTraffic
end Pageweave.Cache
