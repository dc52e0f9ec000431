import Pageweave.Proofs.Debounce.Session
/-!
# What a debouncer keeps track of

At every moment of a session that has not ended, the pending keys are those pushed since keys were last handed over, and
the deadline, if there is one, lies ahead, one window after the latest push. Without a deadline nothing is pending.
-/
namespace Pageweave.Debouncer

variable {d : Debouncer} {time due : Nat} {keys : List Key} {e : Event}

theorem flushBy_of_due (deadline : d.deadline = some due) (alive : d.alive = true) (reached : due ≤ time) :
    d.flushBy time =
      (if d.pending = [] then [] else [⟨due, d.pending⟩], { d with deadline := none, pending := [] }) := by
  simp [flushBy, deadline, alive, reached]

theorem flushBy_of_not_due (ahead : ∀ due, d.deadline = some due → d.alive = true → time < due) :
    d.flushBy time = ([], d) := by
  unfold flushBy
  cases deadline : d.deadline with
  | none => rfl
  | some due =>
    have unreached : (d.alive && decide (due ≤ time)) = false := by
      rw [Bool.and_eq_false_imp, decide_eq_false_iff_not, Nat.not_le]
      exact ahead due deadline
    simp [unreached]

theorem flushBy_cases (d : Debouncer) (time : Nat) :
    (∃ due, d.deadline = some due ∧ d.alive = true ∧ due ≤ time) ∨
      ∀ due, d.deadline = some due → d.alive = true → time < due := by
  by_cases reached : ∃ due, d.deadline = some due ∧ d.alive = true ∧ due ≤ time
  · exact .inl reached
  · exact .inr fun due deadline alive => Nat.lt_of_not_le fun le => reached ⟨due, deadline, alive, le⟩

private theorem flushBy_frame (d : Debouncer) (time : Nat) :
    (d.flushBy time).2.window = d.window ∧ (d.flushBy time).2.now = d.now ∧ (d.flushBy time).2.alive = d.alive ∧
      (d.flushBy time).2.hasSink = d.hasSink ∧
      ((d.flushBy time).2.pending = d.pending ∨ (d.flushBy time).2.pending = []) := by
  rcases flushBy_cases d time with ⟨due, deadline, alive, reached⟩ | ahead
  · rw [flushBy_of_due deadline alive reached]
    exact ⟨rfl, rfl, rfl, rfl, .inr rfl⟩
  · rw [flushBy_of_not_due ahead]
    exact ⟨rfl, rfl, rfl, rfl, .inl rfl⟩

/-- The debouncer that an event leaves to be looked at by the clock. -/
def arm (d : Debouncer) : Event → Debouncer
  | .push keys => { d with pending := Key.insertAll keys d.pending, deadline := some (d.now + d.window) }
  | _ => d

theorem step_eq_flushBy (alive : d.alive = true) (sink : d.hasSink = true) (goes_on : ¬e.IsEnd) :
    (d.step e).1 = ((d.arm e).flushBy (d.now + e.millis)).1 ∧
      (d.step e).2 = { ((d.arm e).flushBy (d.now + e.millis)).2 with now := d.now + e.millis } := by
  cases e with
  | push keys =>
    have stepped : d.step (.push keys) = (d.arm (.push keys)).flushBy d.now := by
      simp [step, alive, sink, arm, Key.insertAll]
    rw [stepped]
    have now := (flushBy_frame (d.arm (.push keys)) d.now).2.1
    cases flushed : (d.arm (.push keys)).flushBy d.now with
    | mk flushes d' =>
      have same : d'.now = d.now := by rwa [flushed] at now
      simp only [Event.millis, Nat.add_zero, flushed, true_and]
      rw [← same]
  | advance n =>
    have now : (d.flushBy (d.now + n)).2.now = d.now := (flushBy_frame _ _).2.1
    simp [step, arm, Event.millis, now]
  | shutdown => exact absurd trivial goes_on
  | dropWatcher => exact absurd trivial goes_on
  | dropSink => exact absurd trivial goes_on

private theorem step_push_idle (keys : List Key) (idle : d.alive = false ∨ d.hasSink = false) :
    d.step (.push keys) = ([], d) ∨ d.step (.push keys) = ([], { d with pending := Key.insertAll keys d.pending }) := by
  cases sink : d.hasSink with
  | true =>
    have dead : d.alive = false := idle.resolve_right (by simp [sink])
    exact .inr (by simp [step, dead, sink, Key.insertAll])
  | false => exact .inl (by simp [step, sink])

private theorem push_cases (d : Debouncer) :
    (d.alive = true ∧ d.hasSink = true) ∨ d.alive = false ∨ d.hasSink = false := by
  cases d.alive <;> cases d.hasSink <;> simp

theorem step_frame (d : Debouncer) (e : Event) :
    (d.step e).2.window = d.window ∧ (d.step e).2.now = d.now + e.millis ∧
      ((d.step e).2.alive = true ↔ d.alive = true ∧ ¬e.IsEnd) ∧
      (d.hasSink = true → ¬e.IsEnd → (d.step e).2.hasSink = true) := by
  cases e with
  | push keys =>
    rcases push_cases d with ⟨alive, sink⟩ | idle
    · obtain ⟨window, -, alive', sink', -⟩ := flushBy_frame (d.arm (.push keys)) (d.now + 0)
      rw [(step_eq_flushBy alive sink id).2]
      simp only [Event.millis, window, alive', sink']
      simp [arm, Event.IsEnd]
    · rcases step_push_idle keys idle with same | same <;>
        simp [same, Event.millis, Event.IsEnd]
  | advance n =>
    obtain ⟨window, now, alive, sink, -⟩ := flushBy_frame d (d.now + n)
    simp [step, Event.millis, Event.IsEnd, window, now, alive, sink]
  | shutdown => simp [step, Event.millis, Event.IsEnd]
  | dropWatcher => simp [step, Event.millis, Event.IsEnd]
  | dropSink => simp [step, Event.millis, Event.IsEnd]

theorem step_of_dead (dead : d.alive = false) (e : Event) : (d.step e).1 = [] := by
  cases e with
  | push keys => rcases step_push_idle keys (.inl dead) with same | same <;> rw [same]
  | advance n =>
    have ahead : ∀ due, d.deadline = some due → d.alive = true → d.now + n < due := by simp [dead]
    simp [step, flushBy_of_not_due ahead]
  | shutdown => rfl
  | dropWatcher => rfl
  | dropSink => rfl

theorem step_of_end (ends : e.IsEnd) : (d.step e).1 = [] := by
  cases e with
  | push keys => exact absurd ends id
  | advance n => exact absurd ends id
  | shutdown => rfl
  | dropWatcher => rfl
  | dropSink => rfl

theorem run_of_dead {events : List Event} (dead : d.alive = false) : (run d events).1 = [] := by
  induction events generalizing d with
  | nil => rfl
  | cons e events ih =>
    have still_dead : (d.step e).2.alive = false := by
      rw [← Bool.not_eq_true, (step_frame d e).2.2.1, dead]
      exact fun h => absurd h.1 Bool.false_ne_true
    simp only [run, step_of_dead dead, ih still_dead, List.append_nil]

theorem step_advance_add (d : Debouncer) (a b : Nat) :
    (d.step (.advance (a + b))).1 = (d.step (.advance a)).1 ++ ((d.step (.advance a)).2.step (.advance b)).1 ∧
      (d.step (.advance (a + b))).2 = ((d.step (.advance a)).2.step (.advance b)).2 := by
  rcases flushBy_cases d (d.now + a) with ⟨due, deadline, alive, reached⟩ | ahead
  · -- reached in the first part, so nothing is left for the second
    have reached' : due ≤ d.now + (a + b) := by omega
    simp only [step, flushBy_of_due deadline alive reached, flushBy_of_due deadline alive reached']
    simp [flushBy, Nat.add_assoc]
  · have later : d.now + a + b = d.now + (a + b) := Nat.add_assoc _ _ _
    simp only [step, flushBy_of_not_due ahead, List.nil_append, later]
    rcases flushBy_cases d (d.now + (a + b)) with ⟨due, deadline, alive, reached⟩ | ahead'
    · rw [flushBy_of_due deadline alive reached, flushBy_of_due (by exact deadline) (by exact alive) reached]
      simp [later]
    · rw [flushBy_of_not_due ahead', flushBy_of_not_due (by exact ahead')]
      simp [later]

namespace Session

variable {s : Session} {i p : Nat} {q : Key}

/-- What the debouncer of a session that lives knows of the past. -/
structure Knows (s : Session) (i : Nat) : Prop where
  ascending : (s.state i).pending.Pairwise (· < ·)
  pending : ∀ q, q ∈ (s.state i).pending ↔ s.Waits i q
  deadline : ∀ due, (s.state i).deadline = some due →
    s.time i < due ∧ ∃ p, s.LatestPush i p ∧ due = s.time p + s.window ∧ s.Quiet p i
  idle : (s.state i).deadline = none →
    (s.state i).pending = [] ∧ ∀ p, s.LatestPush i p → s.time p + s.window ≤ s.time i

structure Tracks (s : Session) (i : Nat) : Prop where
  window : (s.state i).window = s.window
  now : (s.state i).now = s.time i
  alive : (s.state i).alive = true ↔ s.Live i
  sink : s.Live i → (s.state i).hasSink = true
  knows : s.Live i → s.Knows i

theorem tracks_zero (s : Session) : s.Tracks 0 where
  window := rfl
  now := rfl
  alive := by simp [state_zero, Live]
  sink _ := rfl
  knows _ := by constructor <;> simp [state_zero, Waits, LatestPush]

/-- What holds of a debouncer when only the clock is left to be looked at in the `i`th event. -/
structure Armed (s : Session) (i : Nat) (d : Debouncer) : Prop where
  alive : d.alive = true
  ascending : d.pending.Pairwise (· < ·)
  pending : ∀ q, q ∈ d.pending ↔ s.PushedSince i q
  deadline : ∀ due, d.deadline = some due →
    s.time i ≤ due ∧ ∃ p, s.LatestPush (i + 1) p ∧ due = s.time p + s.window ∧ s.Quiet p i
  idle : d.deadline = none → d.pending = [] ∧ ∀ p, s.LatestPush (i + 1) p → s.time p + s.window ≤ s.time i

private theorem Tracks.armed_push {keys : List Key} (h : s.Tracks i) (live : s.Live i) (pushes : s.Pushes i keys) :
    s.Armed i ((s.state i).arm (.push keys)) where
  alive := h.alive.mpr live
  ascending := Key.pairwise_insertAll keys (h.knows live).ascending
  pending q := by
    rw [pushedSince_of_push pushes, ← (h.knows live).pending q]
    exact Key.mem_insertAll q keys _
  deadline := by
    rintro _ ⟨⟩
    rw [h.now, h.window]
    exact ⟨by omega, i, latestPush_succ_of_push pushes, rfl, fun m after before => by omega⟩
  idle := nofun

private theorem Tracks.armed_advance {n : Nat} (h : s.Tracks i) (live : s.Live i)
    (happens : s.events[i]? = some (.advance n)) : s.Armed i ((s.state i).arm (.advance n)) := by
  have no_push (keys : List Key) : ¬s.Pushes i keys := by
    unfold Pushes
    rw [happens]
    rintro ⟨⟩
  have knows := h.knows live
  refine ⟨h.alive.mpr live, knows.ascending, fun q => ?_, fun due deadline => ?_, fun none => ?_⟩
  · rw [pushedSince_of_not_push no_push]
    exact knows.pending q
  · obtain ⟨ahead, p, last, same, quiet⟩ := knows.deadline due deadline
    exact ⟨Nat.le_of_lt ahead, p, (latestPush_succ_of_not_push no_push).mpr last, same, quiet⟩
  · obtain ⟨nothing, latest⟩ := knows.idle none
    exact ⟨nothing, fun p last => latest p ((latestPush_succ_of_not_push no_push).mp last)⟩

theorem Tracks.armed (h : s.Tracks i) (live : s.Live (i + 1)) (happens : s.events[i]? = some e) :
    s.Armed i ((s.state i).arm e) := by
  obtain ⟨live, goes_on⟩ := (live_succ happens).mp live
  cases e with
  | push keys => exact h.armed_push live happens
  | advance n => exact h.armed_advance live happens
  | shutdown => exact absurd trivial goes_on
  | dropWatcher => exact absurd trivial goes_on
  | dropSink => exact absurd trivial goes_on

theorem Tracks.handed_eq (h : s.Tracks i) (live : s.Live (i + 1)) (happens : s.events[i]? = some e) :
    s.handed i = (((s.state i).arm e).flushBy (s.time (i + 1))).1 ∧
      (s.state (i + 1)).deadline = (((s.state i).arm e).flushBy (s.time (i + 1))).2.deadline ∧
      (s.state (i + 1)).pending = (((s.state i).arm e).flushBy (s.time (i + 1))).2.pending := by
  obtain ⟨live, goes_on⟩ := (live_succ happens).mp live
  obtain ⟨first, second⟩ := step_eq_flushBy (h.alive.mpr live) (h.sink live) goes_on
  rw [handed_of_some happens, state_succ happens, first, second, h.now, time_succ happens]
  exact ⟨rfl, rfl, rfl⟩

/-- After a deadline was reached nothing waits, and there is no deadline until the next push. -/
private theorem Tracks.knows_of_reached {due : Nat} (h : s.Tracks i) (live : s.Live (i + 1))
    (happens : s.events[i]? = some e) (deadline : ((s.state i).arm e).deadline = some due)
    (reached : due ≤ s.time (i + 1)) : s.Knows (i + 1) := by
  have armed := h.armed live happens
  obtain ⟨handed, no_deadline, nothing⟩ := h.handed_eq live happens
  rw [flushBy_of_due deadline armed.alive reached] at handed no_deadline nothing
  refine ⟨by rw [nothing]; exact List.Pairwise.nil, fun q => ?_, fun due' some_due => ?_, fun _ => ⟨nothing, ?_⟩⟩
  · rw [nothing, waits_succ, ← armed.pending q]
    refine iff_of_false List.not_mem_nil ?_
    rintro ⟨listed, quiet⟩
    rw [handed, if_neg (List.ne_nil_of_mem listed)] at quiet
    cases quiet
  · rw [no_deadline] at some_due
    cases some_due
  · intro p last
    obtain ⟨-, p', last', same, -⟩ := armed.deadline due deadline
    rw [last.unique last', ← same]
    exact reached

private theorem Tracks.knows_of_ahead (h : s.Tracks i) (live : s.Live (i + 1)) (happens : s.events[i]? = some e)
    (ahead : ∀ due, ((s.state i).arm e).deadline = some due → ((s.state i).arm e).alive = true →
      s.time (i + 1) < due) : s.Knows (i + 1) := by
  have armed := h.armed live happens
  obtain ⟨handed, deadline, pending⟩ := h.handed_eq live happens
  rw [flushBy_of_not_due ahead] at handed deadline pending
  refine ⟨by rw [pending]; exact armed.ascending, fun q => ?_, fun due some_due => ?_, fun none => ?_⟩
  · rw [pending, waits_succ, armed.pending q]
    exact (and_iff_left handed).symm
  · rw [deadline] at some_due
    obtain ⟨-, p, last, same, quiet⟩ := armed.deadline due some_due
    exact ⟨ahead due some_due armed.alive, p, last, same,
      (quiet_succ (Nat.le_of_lt_succ last.1)).mpr ⟨quiet, handed⟩⟩
  · rw [deadline] at none
    obtain ⟨nothing, latest⟩ := armed.idle none
    refine ⟨pending.trans nothing, fun p last => Nat.le_trans (latest p last) ?_⟩
    rw [time_succ happens]
    exact Nat.le_add_right _ _

theorem Tracks.succ (h : s.Tracks i) (happens : s.events[i]? = some e) : s.Tracks (i + 1) := by
  obtain ⟨window, now, alive, sink⟩ := step_frame (s.state i) e
  rw [← state_succ happens] at window now alive sink
  refine ⟨window.trans h.window, ?_, ?_, fun live => ?_, fun live => ?_⟩
  · rw [now, h.now, time_succ happens]
  · rw [alive, h.alive, live_succ happens]
  · obtain ⟨live, goes_on⟩ := (live_succ happens).mp live
    exact sink (h.sink live) goes_on
  · rcases flushBy_cases ((s.state i).arm e) (s.time (i + 1)) with ⟨due, deadline, -, reached⟩ | ahead
    · exact h.knows_of_reached live happens deadline reached
    · exact h.knows_of_ahead live happens ahead

theorem tracks (s : Session) (upTo : i ≤ s.events.length) : s.Tracks i := by
  induction i with
  | zero => exact s.tracks_zero
  | succ i ih => exact (ih (Nat.le_of_lt upTo)).succ (List.getElem?_eq_getElem upTo)

end Session
end Pageweave.Debouncer
