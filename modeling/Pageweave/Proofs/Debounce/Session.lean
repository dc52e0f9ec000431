import Mathlib.Algebra.GroupWithZero.Nat
import Pageweave.Debounce
import Pageweave.Proofs.Key.Order
/-!
# Sessions of a debouncer

A session is a window and what happens, one thing after another. Time only passes in advances. What is said here of a
moment, `Live`, `LatestPush` and the rest, speaks of what happened and of what was handed over before, not of how the
debouncer keeps track of it; `Tracks` says that it does keep track.
-/
namespace Pageweave.Debouncer

namespace Event

/-- The time that something takes. -/
def millis : Event → Nat
  | .advance n => n
  | _ => 0

/-- After these nobody is left to hand keys over, or to hand them over to. -/
def IsEnd : Event → Prop
  | .shutdown => True
  | .dropWatcher => True
  | .dropSink => True
  | _ => False

end Event

structure Session where
  window : Nat
  events : List Event

namespace Session

/-- The debouncer before the `i`th event. -/
def state (s : Session) (i : Nat) : Debouncer := (run { window := s.window } (s.events.take i)).2

def time (s : Session) (i : Nat) : Nat := ((s.events.take i).map Event.millis).sum

/-- What is handed over during the `i`th event. -/
def handed (s : Session) (i : Nat) : List Flush :=
  match s.events[i]? with
  | some e => ((s.state i).step e).1
  | none => []

def Pushes (s : Session) (i : Nat) (keys : List Key) : Prop := s.events[i]? = some (.push keys)

/-- Nothing has ended the session before the `i`th event. -/
def Live (s : Session) (i : Nat) : Prop := ∀ j < i, ∀ e, s.events[j]? = some e → ¬e.IsEnd

/-- Nothing is handed over from the `i`th event until the `j`th. -/
def Quiet (s : Session) (i j : Nat) : Prop := ∀ m, i ≤ m → m < j → s.handed m = []

/-- Of the pushes before the `i`th event, this one is the latest. -/
def LatestPush (s : Session) (i p : Nat) : Prop :=
  p < i ∧ (∃ keys, s.Pushes p keys) ∧ ∀ j, p < j → j < i → ∀ keys, ¬s.Pushes j keys

/-- Before the `i`th event a key was pushed, and nothing was handed over since. -/
def Waits (s : Session) (i : Nat) (q : Key) : Prop := ∃ p keys, p < i ∧ s.Pushes p keys ∧ q ∈ keys ∧ s.Quiet p i

/-- A key was pushed by the `i`th event or, since keys were last handed over, before it. -/
def PushedSince (s : Session) (i : Nat) (q : Key) : Prop :=
  ∃ p keys, p ≤ i ∧ s.Pushes p keys ∧ q ∈ keys ∧ s.Quiet p i

variable {s : Session} {i j p : Nat} {q : Key} {e : Event}

theorem run_append (d : Debouncer) (front back : List Event) :
    run d (front ++ back) = ((run d front).1 ++ (run (run d front).2 back).1, (run (run d front).2 back).2) := by
  induction front generalizing d with
  | nil => rfl
  | cons e front ih => simp only [List.cons_append, run, ih, List.append_assoc]

private theorem take_succ_of_some (happens : s.events[i]? = some e) : s.events.take (i + 1) = s.events.take i ++ [e] := by
  rw [List.take_add_one, happens]
  rfl

theorem state_zero (s : Session) : s.state 0 = { window := s.window } := rfl

theorem state_succ (happens : s.events[i]? = some e) : s.state (i + 1) = ((s.state i).step e).2 := by
  unfold state
  rw [take_succ_of_some happens, run_append]
  rfl

theorem time_succ (happens : s.events[i]? = some e) : s.time (i + 1) = s.time i + e.millis := by
  unfold time
  rw [take_succ_of_some happens, List.map_append, List.sum_append]
  rfl

theorem time_mono (upTo : i ≤ j) : s.time i ≤ s.time j := by
  obtain ⟨more, rfl⟩ := Nat.exists_eq_add_of_le upTo
  unfold time
  rw [List.take_add, List.map_append, List.sum_append]
  exact Nat.le_add_right _ _

theorem handed_of_some (happens : s.events[i]? = some e) : s.handed i = ((s.state i).step e).1 := by
  unfold handed
  rw [happens]

theorem live_succ (happens : s.events[i]? = some e) : s.Live (i + 1) ↔ s.Live i ∧ ¬e.IsEnd := by
  constructor
  · intro live
    exact ⟨fun j before => live j (Nat.lt_succ_of_lt before), live i (Nat.lt_succ_self i) e happens⟩
  · rintro ⟨live, goes_on⟩ j before e' happens'
    rcases Nat.lt_succ_iff_lt_or_eq.mp before with earlier | rfl
    · exact live j earlier e' happens'
    · rw [happens, Option.some.injEq] at happens'
      exact happens' ▸ goes_on

theorem quiet_succ (upTo : p ≤ i) : s.Quiet p (i + 1) ↔ s.Quiet p i ∧ s.handed i = [] := by
  constructor
  · intro quiet
    exact ⟨fun m after before => quiet m after (Nat.lt_succ_of_lt before), quiet i upTo (Nat.lt_succ_self i)⟩
  · rintro ⟨quiet, nothing⟩ m after before
    rcases Nat.lt_succ_iff_lt_or_eq.mp before with earlier | rfl
    · exact quiet m after earlier
    · exact nothing

theorem LatestPush.unique {p' : Nat} (h : s.LatestPush i p) (h' : s.LatestPush i p') : p = p' := by
  obtain ⟨before, ⟨keys, pushes⟩, last⟩ := h
  obtain ⟨before', ⟨keys', pushes'⟩, last'⟩ := h'
  rcases Nat.lt_trichotomy p p' with lt | same | gt
  · exact absurd pushes' (last p' lt before' keys')
  · exact same
  · exact absurd pushes (last' p gt before keys)

theorem latestPush_succ_of_push {keys : List Key} (pushes : s.Pushes i keys) : s.LatestPush (i + 1) i :=
  ⟨Nat.lt_succ_self i, ⟨keys, pushes⟩, fun j after before => by omega⟩

theorem latestPush_succ_of_not_push (no_push : ∀ keys, ¬s.Pushes i keys) :
    s.LatestPush (i + 1) p ↔ s.LatestPush i p := by
  constructor
  · rintro ⟨before, ⟨keys, pushes⟩, last⟩
    have apart : p ≠ i := fun same => no_push keys (same ▸ pushes)
    exact ⟨by omega, ⟨keys, pushes⟩, fun j after earlier => last j after (Nat.lt_succ_of_lt earlier)⟩
  · rintro ⟨before, some_push, last⟩
    refine ⟨Nat.lt_succ_of_lt before, some_push, fun j after earlier => ?_⟩
    rcases Nat.lt_succ_iff_lt_or_eq.mp earlier with earlier | rfl
    · exact last j after earlier
    · exact no_push

theorem pushedSince_of_push {keys : List Key} (pushes : s.Pushes i keys) :
    s.PushedSince i q ↔ s.Waits i q ∨ q ∈ keys := by
  constructor
  · rintro ⟨p, keys', upTo, pushes', listed, quiet⟩
    rcases Nat.lt_or_eq_of_le upTo with before | rfl
    · exact .inl ⟨p, keys', before, pushes', listed, quiet⟩
    · unfold Pushes at pushes pushes'
      rw [pushes] at pushes'
      cases pushes'
      exact .inr listed
  · rintro (⟨p, keys', before, pushes', listed, quiet⟩ | listed)
    · exact ⟨p, keys', Nat.le_of_lt before, pushes', listed, quiet⟩
    · exact ⟨i, keys, Nat.le_refl i, pushes, listed, fun m after before => by omega⟩

theorem pushedSince_of_not_push (no_push : ∀ keys, ¬s.Pushes i keys) : s.PushedSince i q ↔ s.Waits i q := by
  constructor
  · rintro ⟨p, keys, upTo, pushes, listed, quiet⟩
    have apart : p ≠ i := fun same => no_push keys (same ▸ pushes)
    exact ⟨p, keys, by omega, pushes, listed, quiet⟩
  · rintro ⟨p, keys, before, pushes, listed, quiet⟩
    exact ⟨p, keys, Nat.le_of_lt before, pushes, listed, quiet⟩

theorem waits_succ : s.Waits (i + 1) q ↔ s.PushedSince i q ∧ s.handed i = [] := by
  constructor
  · rintro ⟨p, keys, before, pushes, listed, quiet⟩
    obtain ⟨quiet, nothing⟩ := (quiet_succ (Nat.le_of_lt_succ before)).mp quiet
    exact ⟨⟨p, keys, Nat.le_of_lt_succ before, pushes, listed, quiet⟩, nothing⟩
  · rintro ⟨⟨p, keys, upTo, pushes, listed, quiet⟩, nothing⟩
    exact ⟨p, keys, Nat.lt_succ_of_le upTo, pushes, listed, (quiet_succ upTo).mpr ⟨quiet, nothing⟩⟩

end Session
end Pageweave.Debouncer
