import Pageweave.Cache.Traffic
/-!
# Callers with a known result

Traffic in which every caller's compile has its result from the start and ends when it is told to. Being told before
the compile begins lets it end as soon as it does. After each event callers go on as far as they can.
-/
namespace Pageweave.Cache

/-- A caller's compile: its result, and whether it may end. -/
structure Plan (ε α : Type) where
  caller : Nat
  result : Except ε α
  released : Bool

structure Workload (ε α : Type) where
  traffic : Traffic ε α := {}
  plans : List (Plan ε α) := []

namespace Workload

variable {ε α : Type}

/-- Ends compiles that may end, one after the other; each of the `fuel` callers ends once at most. -/
def settle [Dependent α] : (fuel : Nat) → Workload ε α → Workload ε α
  | 0, w => { w with traffic := w.traffic.rest }
  | fuel + 1, w =>
    let t := w.traffic.rest
    match w.plans.find? fun p => p.released && (t.ticket? p.caller).isSome with
    | some p => settle fuel { w with traffic := t.finish p.caller p.result }
    | none => { w with traffic := t }

def settled [Dependent α] (w : Workload ε α) : Workload ε α := settle w.plans.length w

/-- A new caller; also its number. -/
def call [Dependent α] (w : Workload ε α) (k : Key) (result : Except ε α) (released : Bool) :
    Nat × Workload ε α :=
  let caller := w.traffic.next
  (caller, settled { traffic := w.traffic.call k, plans := w.plans ++ [⟨caller, result, released⟩] })

/-- Lets a caller's compile end. -/
def release [Dependent α] (w : Workload ε α) (caller : Nat) : Workload ε α :=
  settled { w with plans := w.plans.map fun p => if p.caller = caller then { p with released := true } else p }

/-- Any event but calls and ends. -/
def apply [Dependent α] (w : Workload ε α) (e : Event ε α) : Workload ε α :=
  settled { w with traffic := w.traffic.step e }

end Workload
end Pageweave.Cache
