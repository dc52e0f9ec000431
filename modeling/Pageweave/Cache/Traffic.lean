import Pageweave.Cache.Store
/-!
# Callers of the cache

Many callers at once, numbered in the order of their calls. A caller that misses its value asks for the turn of its
key. One caller of a key has the turn at a time; the others wait in the order in which they asked. Whoever gets the turn
looks again and compiles only if there is still no value. When the turn ends, in whatever way, it goes to the longest
waiting caller. What one caller does between two waits happens at once; in between anything else may happen.
-/
namespace Pageweave.Cache

/-- How a caller fared. -/
inductive Outcome (ε α : Type) where
  /-- A value, and whether this caller compiled it. -/
  | value (value : α) (compiled : Bool)
  | failed (fault : ε)
  | cancelled

/-- How far a caller has come. -/
inductive Phase where
  /-- It missed the value and has not yet asked for the turn. -/
  | asking
  | waiting
  /-- It was given the turn and has not yet looked again. -/
  | woken
  | compiling (ticket : Ticket)
  deriving DecidableEq

namespace Phase

def hasTurn : Phase → Bool
  | .woken | .compiling _ => true
  | .asking | .waiting => false

/-- Can a caller go on without anybody else? -/
def isReady : Phase → Bool
  | .asking | .woken => true
  | .waiting | .compiling _ => false

def ticket? : Phase → Option Ticket
  | .compiling ticket => some ticket
  | _ => none

end Phase

/-- A caller that has no outcome yet. -/
structure Caller where
  number : Nat
  key : Key
  phase : Phase
  deriving DecidableEq

structure Traffic (ε α : Type) where
  cache : Cache α := {}
  /-- Those who have no outcome yet; whoever began to wait earlier stands further in front. -/
  callers : List Caller := []
  outcomes : List (Nat × Outcome ε α) := []
  /-- The number that the next caller gets. -/
  next : Nat := 0

inductive Event (ε α : Type) where
  /-- A new caller looks for a key. -/
  | call (key : Key)
  /-- A caller goes on, if it can. -/
  | go (caller : Nat)
  /-- The compile of a caller ends. -/
  | finish (caller : Nat) (result : Except ε α)
  | cancel (caller : Nat)
  | invalidate (key : Key)
  | invalidateDependents (key : Key)
  | change (key : Key)
  | clear

namespace Traffic

variable {ε α : Type}

def outcome? (t : Traffic ε α) (caller : Nat) : Option (Outcome ε α) :=
  (t.outcomes.find? fun e => e.1 == caller).map Prod.snd

def caller? (t : Traffic ε α) (caller : Nat) : Option Caller := t.callers.find? fun c => c.number == caller

def phase? (t : Traffic ε α) (caller : Nat) : Option Phase := (t.caller? caller).map Caller.phase

/-- The ticket of a caller that compiles. -/
def ticket? (t : Traffic ε α) (caller : Nat) : Option Ticket := (t.phase? caller).bind Phase.ticket?

def isWaiting (t : Traffic ε α) (caller : Nat) : Bool := t.phase? caller == some .waiting

/-- Has somebody the turn of a key? -/
def isBusy (t : Traffic ε α) (k : Key) : Bool := t.callers.any fun c => c.key == k && c.phase.hasTurn

def leave (t : Traffic ε α) (caller : Nat) : Traffic ε α :=
  { t with callers := t.callers.filter fun c => !(c.number == caller) }

/-- Puts a caller behind all others. -/
def enter (t : Traffic ε α) (c : Caller) : Traffic ε α :=
  { t with callers := (t.leave c.number).callers ++ [c] }

def settle (t : Traffic ε α) (caller : Nat) (o : Outcome ε α) : Traffic ε α :=
  { t.leave caller with outcomes := t.outcomes ++ [(caller, o)] }

/-- The longest waiting caller of a key. -/
def longestWaiting? (t : Traffic ε α) (k : Key) : Option Caller :=
  t.callers.find? fun c => c.key == k && c.phase == .waiting

/-- The turn of a key ends; the longest waiting caller gets it. -/
def passOn (t : Traffic ε α) (k : Key) : Traffic ε α :=
  match t.longestWaiting? k with
  | some c => t.enter { c with phase := .woken }
  | none => t

/-- A caller gets the value that there is. -/
def hit (t : Traffic ε α) (caller : Nat) (v : α) : Traffic ε α :=
  { t with cache := t.cache.countHit }.settle caller (.value v false)

/-- A caller has the turn: it gets the value if there is one by now, and compiles otherwise. -/
def serve (t : Traffic ε α) (caller : Nat) (k : Key) : Traffic ε α :=
  match t.cache.lookup? k with
  | some v => (t.hit caller v).passOn k
  | none =>
    let (ticket, cache) := t.cache.begin k
    { t with cache }.enter ⟨caller, k, .compiling ticket⟩

def call (t : Traffic ε α) (k : Key) : Traffic ε α :=
  let t' := { t with next := t.next + 1 }
  match t.cache.lookup? k with
  | some v => t'.hit t.next v
  | none => t'.enter ⟨t.next, k, .asking⟩

def go (t : Traffic ε α) (caller : Nat) : Traffic ε α :=
  match t.caller? caller with
  | some ⟨_, k, .asking⟩ => if t.isBusy k then t.enter ⟨caller, k, .waiting⟩ else t.serve caller k
  | some ⟨_, k, .woken⟩ => t.serve caller k
  | _ => t

def finish [Dependent α] (t : Traffic ε α) (caller : Nat) (result : Except ε α) : Traffic ε α :=
  match t.ticket? caller with
  | none => t
  | some ticket =>
    match result with
    | .ok v => ({ t with cache := t.cache.finish ticket v }.settle caller (.value v true)).passOn ticket.key
    | .error e => (t.settle caller (.failed e)).passOn ticket.key

def cancel (t : Traffic ε α) (caller : Nat) : Traffic ε α :=
  match t.caller? caller with
  | none => t
  | some c => if c.phase.hasTurn then (t.settle caller .cancelled).passOn c.key else t.settle caller .cancelled

def step [Dependent α] (t : Traffic ε α) : Event ε α → Traffic ε α
  | .call k => t.call k
  | .go caller => t.go caller
  | .finish caller result => t.finish caller result
  | .cancel caller => t.cancel caller
  | .invalidate k => { t with cache := t.cache.invalidate k }
  | .invalidateDependents k => { t with cache := t.cache.invalidateDependents k }
  | .change k => { t with cache := t.cache.change k }
  | .clear => { t with cache := t.cache.clear }

def run [Dependent α] (t : Traffic ε α) (events : List (Event ε α)) : Traffic ε α := events.foldl step t

def ready? (t : Traffic ε α) : Option Caller := t.callers.find? fun c => c.phase.isReady

def restFuel : (fuel : Nat) → Traffic ε α → Traffic ε α
  | 0, t => t
  | fuel + 1, t =>
    match t.ready? with
    | some c => restFuel fuel (t.go c.number)
    | none => t

/-- Lets callers go on until none can; each goes on twice at most. -/
def rest (t : Traffic ε α) : Traffic ε α := restFuel (2 * t.callers.length) t

end Traffic
end Pageweave.Cache
