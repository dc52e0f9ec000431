import Pageweave.Key
/-!
# Quiet periods

Changed keys are gathered until nothing has changed for a window of time; then they are handed over together, in
ascending order. Every push starts the window anew, also an empty one. Once the watcher or the last sink is gone nothing
is handed over any more.
-/
namespace Pageweave

structure Debouncer where
  /-- Milliseconds. -/
  window : Nat
  now : Nat := 0
  deadline : Option Nat := none
  /-- In ascending order, each once. -/
  pending : List Key := []
  /-- Is there still somebody to hand keys over? -/
  alive : Bool := true
  /-- Does the watcher's owner still hold it? -/
  watched : Bool := true
  hasSink : Bool := true

namespace Debouncer

inductive Event where
  | push (keys : List Key)
  | advance (millis : Nat)
  | shutdown
  | dropWatcher
  | dropSink

/-- Keys handed over at a time. -/
structure Flush where
  time : Nat
  keys : List Key
  deriving DecidableEq

/-- Hands over what is pending if the deadline lies at `time` or before. -/
def flushBy (d : Debouncer) (time : Nat) : List Flush × Debouncer :=
  match d.deadline with
  | some due =>
    if d.alive && due ≤ time then
      (if d.pending.isEmpty then [] else [⟨due, d.pending⟩], { d with deadline := none, pending := [] })
    else ([], d)
  | none => ([], d)

def step (d : Debouncer) : Event → List Flush × Debouncer
  | .push keys =>
    if d.hasSink then
      let d := { d with pending := keys.foldl (fun acc k => Key.insertSorted k acc) d.pending }
      if d.alive then { d with deadline := some (d.now + d.window) }.flushBy d.now else ([], d)
    else ([], d)
  | .advance millis =>
    let (flushes, d) := d.flushBy (d.now + millis)
    (flushes, { d with now := d.now + millis })
  | .shutdown => ([], { d with alive := false, watched := false })
  | .dropWatcher => ([], { d with alive := false, watched := false })
  | .dropSink => ([], { d with alive := false, hasSink := false })

def run (d : Debouncer) : List Event → List Flush × Debouncer
  | [] => ([], d)
  | e :: rest =>
    let (first, d) := d.step e
    let (more, d) := d.run rest
    (first ++ more, d)

end Debouncer
end Pageweave
