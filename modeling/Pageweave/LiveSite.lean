import Pageweave.Cache.Traffic
import Pageweave.Site
/-!
# A site while its texts change

Callers load pages through the cache while texts change, one key at a time. A load goes step by step, and anything may
happen between two of its steps. The cache hears of a change only when its key is reported.
-/
namespace Pageweave

/-- A store after one of its keys changed; the text may have vanished or become unreadable. -/
def Store.put (s : Store) (k : Key) (answer : Except PageError (Option String)) : Store where
  name := s.name
  read q := if q = k then answer else s.read q
  list := s.list.map fun ks =>
    match answer with
    | .error _ => ks
    | .ok none => ks.filter (· ≠ k)
    | .ok (some _) => if ks.contains k then ks else Key.ordered (k :: ks)
  texts :=
    match answer with
    | .ok (some text) => text :: s.texts
    | _ => s.texts
  mem_texts q text found := by
    split at found
    · subst found
      exact List.mem_cons_self
    · have listed := s.mem_texts q text found
      split
      · exact List.mem_cons_of_mem _ listed
      · exact listed

/-- The stores after a key changed in one of them. -/
def Locator.put (l : Locator) (store : Nat) (k : Key) (answer : Except PageError (Option String)) : Locator :=
  { l with stores := l.stores.modify store fun s => s.put k answer }

private theorem findIn_modify {stores : List Store} {store : Nat} {k q : Key} {answer : Except PageError (Option String)}
    (other : q ≠ k) :
    Locator.findIn (stores.modify store fun s => s.put k answer) q = Locator.findIn stores q := by
  induction stores generalizing store with
  | nil => simp
  | cons s rest ih =>
    have read : (s.put k answer).read q = s.read q := if_neg other
    have name : (s.put k answer).name = s.name := rfl
    cases store with
    | zero => simp only [List.modify_zero_cons, Locator.findIn, read, name]
    | succ store => simp only [List.modify_succ_cons, Locator.findIn, ih]

theorem Locator.find_put {l : Locator} {store : Nat} {k q : Key} {answer : Except PageError (Option String)}
    (other : q ≠ k) : (l.put store k answer).find q = l.find q := findIn_modify other

inductive LiveEvent where
  /-- A new caller asks for a page. -/
  | call (key : Key)
  /-- A caller goes on, if it can. -/
  | go (caller : Nat)
  /-- The load of a caller makes a step, or it is done and the compile ends. -/
  | load (caller : Nat)
  | cancel (caller : Nat)
  /-- The text of a key changes in one of the stores. -/
  | edit (store : Nat) (key : Key) (answer : Except PageError (Option String))
  /-- The cache is told that a key changed. -/
  | report (key : Key)
  | clear

structure LiveSite where
  engine : Engine := {}
  locator : Locator
  traffic : Cache.Traffic PageError Compiled := {}
  /-- How far the loads of callers have come, the latest first. -/
  loads : List (Nat × Loading) := []

namespace LiveSite

/-- The load of a caller, if it made a step yet. -/
def started? (s : LiveSite) (caller : Nat) : Option Loading :=
  (s.loads.find? fun e => e.1 == caller).map Prod.snd

/-- The load of a caller that compiles. -/
def loading? (s : LiveSite) (caller : Nat) : Option Loading :=
  (s.traffic.ticket? caller).map fun ticket => (s.started? caller).getD (.opening ticket.key)

/-- What an event is to the callers and the cache, if anything. -/
def heard? (s : LiveSite) : LiveEvent → Option (Cache.Event PageError Compiled)
  | .call k => some (.call k)
  | .go caller => some (.go caller)
  | .load caller =>
    match s.loading? caller with
    | some (.done r) => some (.finish caller (r >>= s.engine.assemble))
    | _ => none
  | .cancel caller => some (.cancel caller)
  | .edit _ _ _ => none
  | .report k => some (.change k)
  | .clear => some .clear

def step (s : LiveSite) (e : LiveEvent) : LiveSite where
  engine := s.engine
  locator :=
    match e with
    | .edit store k answer => s.locator.put store k answer
    | _ => s.locator
  traffic :=
    match s.heard? e with
    | some heard => s.traffic.step heard
    | none => s.traffic
  loads :=
    match e with
    | .load caller =>
      match s.loading? caller with
      | some l => (caller, l.step s.locator) :: s.loads
      | none => s.loads
    | _ => s.loads

end LiveSite
end Pageweave
