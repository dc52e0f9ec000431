import Mathlib.Data.Nat.Find
import Pageweave.Proofs.Debounce.Tracking
/-!
# When keys are handed over, and which

Keys are handed over exactly one window after the latest push, if the session still lives and keys were pushed since
the last time; then all of these, each once, in order of their bytes. So no key comes too early, none is lost and none
comes twice, it makes no difference how time is cut into advances, and after its end a session hands nothing over.
-/
namespace Pageweave.Debouncer.Session

/-- During the `i`th event the quiet time after the latest push is over, for the first time. -/
def DueAt (s : Session) (i t : Nat) : Prop :=
  s.Live i ∧ s.time i ≤ t ∧ t ≤ s.time (i + 1) ∧
    ∃ p, s.LatestPush (i + 1) p ∧ t = s.time p + s.window ∧ s.Quiet p i

def output (s : Session) : List Flush := (run { window := s.window } s.events).1

structure Exact (s : Session) : Prop where
  /-- All that a session hands over it hands over during its events, in their order. -/
  in_turn : s.output = (List.range s.events.length).flatMap s.handed
  once : ∀ i, (s.handed i).length ≤ 1
  handed_iff : ∀ i < s.events.length, ∀ f, f ∈ s.handed i ↔
    s.DueAt i f.time ∧ f.keys ≠ [] ∧ (∀ q, q ∈ f.keys ↔ s.PushedSince i q) ∧ (f.keys.map Key.bytes).Pairwise (· < ·)
  /-- No key is handed over less than a window after any push. -/
  spaced : ∀ i, ∀ f ∈ s.handed i, ∀ p ≤ i, ∀ keys, s.Pushes p keys → s.time p + s.window ≤ f.time
  /-- A session that lives until a window after the latest push has handed over all that was pushed. -/
  delivers : ∀ n ≤ s.events.length, s.Live n → (∀ p, s.LatestPush n p → s.time p + s.window ≤ s.time n) →
    ∀ p < n, ∀ keys, s.Pushes p keys → ∀ q ∈ keys, ∃ i, p ≤ i ∧ i < n ∧ ∃ f ∈ s.handed i, q ∈ f.keys
  /-- A key that is handed over again was pushed again. -/
  repushed : ∀ i j, i < j → ∀ f ∈ s.handed i, ∀ g ∈ s.handed j, ∀ q ∈ f.keys, q ∈ g.keys →
    ∃ p keys, i < p ∧ p ≤ j ∧ s.Pushes p keys ∧ q ∈ keys
  /-- An advance does the same in two parts. -/
  split : ∀ front back a b, s.events = front ++ .advance (a + b) :: back →
    s.output = Session.output ⟨s.window, front ++ .advance a :: .advance b :: back⟩
  /-- After an end nothing is handed over. -/
  ended : ∀ front back e, s.events = front ++ e :: back → e.IsEnd → s.output = Session.output ⟨s.window, front⟩

variable {s : Session} {i p : Nat} {q : Key} {e : Event} {f : Flush}

private theorem handed_of_dead (upTo : i ≤ s.events.length) (dead : ¬s.Live (i + 1)) : s.handed i = [] := by
  cases happens : s.events[i]? with
  | none => simp [handed, happens]
  | some e =>
    rw [handed_of_some happens]
    by_cases ends : e.IsEnd
    · exact step_of_end ends
    · have not_live : ¬s.Live i := fun live => dead ((live_succ happens).mpr ⟨live, ends⟩)
      refine step_of_dead ?_ e
      rw [← Bool.not_eq_true, (s.tracks upTo).alive]
      exact not_live

private theorem mem_handed_iff (happens : s.events[i]? = some e) (live : s.Live (i + 1)) :
    f ∈ s.handed i ↔ s.DueAt i f.time ∧ f.keys ≠ [] ∧ (∀ q, q ∈ f.keys ↔ s.PushedSince i q) ∧
      (f.keys.map Key.bytes).Pairwise (· < ·) := by
  have upTo : i ≤ s.events.length := Nat.le_of_lt (List.getElem?_eq_some_iff.mp happens).1
  have tracks := s.tracks upTo
  have armed := tracks.armed live happens
  have handed := (tracks.handed_eq live happens).1
  have before := ((live_succ happens).mp live).1
  have in_order : ∀ keys : List Key, (keys.map Key.bytes).Pairwise (· < ·) ↔ keys.Pairwise (· < ·) := by
    intro keys
    rw [List.pairwise_map]
    simp only [Key.lt_iff_bytes_lt]
  constructor
  · intro listed
    rw [handed] at listed
    rcases flushBy_cases ((s.state i).arm e) (s.time (i + 1)) with ⟨due, deadline, alive, reached⟩ | ahead
    · rw [flushBy_of_due deadline alive reached] at listed
      split_ifs at listed with nothing
      · cases listed
      · obtain rfl := List.mem_singleton.mp listed
        obtain ⟨from_i, p, last, same, quiet⟩ := armed.deadline due deadline
        exact ⟨⟨before, from_i, reached, p, last, same, quiet⟩, nothing, armed.pending,
          (in_order _).mpr armed.ascending⟩
    · rw [flushBy_of_not_due ahead] at listed
      cases listed
  · rintro ⟨⟨-, -, reached, p, last, same, -⟩, some_key, pushed, ordered⟩
    have all : f.keys = ((s.state i).arm e).pending := by
      refine ((in_order _).mp ordered).eq_of_mem_iff armed.ascending fun q => ?_
      rw [pushed, armed.pending]
    cases deadline : ((s.state i).arm e).deadline with
    | none => exact absurd (all.trans (armed.idle deadline).1) some_key
    | some due =>
      obtain ⟨-, p', last', same', -⟩ := armed.deadline due deadline
      have time : f.time = due := by rw [same, same', last.unique last']
      rw [handed, flushBy_of_due deadline armed.alive (time ▸ reached), if_neg (all ▸ some_key), ← all, ← time]
      exact List.mem_singleton_self f

private theorem not_due_of_end (happens : s.events[i]? = some e) (ends : e.IsEnd) {t : Nat} (due : s.DueAt i t) :
    ¬s.PushedSince i q := by
  obtain ⟨live, -, reached, p, last, same, -⟩ := due
  have no_push (keys : List Key) : ¬s.Pushes i keys := by
    unfold Pushes
    rw [happens]
    rintro ⟨⟩
    exact ends
  have knows := (s.tracks (Nat.le_of_lt (List.getElem?_eq_some_iff.mp happens).1)).knows live
  intro pushed
  have waits : q ∈ (s.state i).pending := (knows.pending q).mpr ((pushedSince_of_not_push no_push).mp pushed)
  have no_time : e.millis = 0 := by
    cases e with
    | push _ => rfl
    | advance _ => exact absurd ends id
    | shutdown => rfl
    | dropWatcher => rfl
    | dropSink => rfl
  rw [time_succ happens, no_time] at reached
  cases deadline : (s.state i).deadline with
  | none =>
    rw [(knows.idle deadline).1] at waits
    cases waits
  | some due =>
    obtain ⟨ahead, p', last', same', -⟩ := knows.deadline due deadline
    rw [((latestPush_succ_of_not_push no_push).mp last).unique last'] at same
    omega

private theorem handed_iff (within : i < s.events.length) (f : Flush) :
    f ∈ s.handed i ↔ s.DueAt i f.time ∧ f.keys ≠ [] ∧ (∀ q, q ∈ f.keys ↔ s.PushedSince i q) ∧
      (f.keys.map Key.bytes).Pairwise (· < ·) := by
  have happens : s.events[i]? = some s.events[i] := List.getElem?_eq_getElem within
  by_cases live : s.Live (i + 1)
  · exact mem_handed_iff happens live
  · rw [handed_of_dead (Nat.le_of_lt within) live]
    refine iff_of_false List.not_mem_nil ?_
    rintro ⟨due, some_key, pushed, -⟩
    by_cases ends : s.events[i].IsEnd
    · obtain ⟨q, listed⟩ := List.exists_mem_of_ne_nil _ some_key
      exact not_due_of_end happens ends due ((pushed q).mp listed)
    · exact live ((live_succ happens).mpr ⟨due.1, ends⟩)

private theorem lt_length_of_handed (some_flush : f ∈ s.handed i) : i < s.events.length := by
  rw [← Nat.not_le]
  intro beyond
  rw [handed, List.getElem?_eq_none beyond] at some_flush
  cases some_flush

private theorem length_handed_le (s : Session) (i : Nat) : (s.handed i).length ≤ 1 := by
  have flushed (d : Debouncer) (time : Nat) : (d.flushBy time).1.length ≤ 1 := by
    rcases flushBy_cases d time with ⟨due, deadline, alive, reached⟩ | ahead
    · rw [flushBy_of_due deadline alive reached]
      split_ifs <;> simp
    · simp [flushBy_of_not_due ahead]
  cases happens : s.events[i]? with
  | none => simp [handed, happens]
  | some e =>
    have upTo : i ≤ s.events.length := Nat.le_of_lt (List.getElem?_eq_some_iff.mp happens).1
    by_cases live : s.Live (i + 1)
    · rw [((s.tracks upTo).handed_eq live happens).1]
      exact flushed _ _
    · simp [handed_of_dead upTo live]

private theorem run_take (s : Session) (upTo : i ≤ s.events.length) :
    (run { window := s.window } (s.events.take i)).1 = (List.range i).flatMap s.handed := by
  induction i with
  | zero => rfl
  | succ i ih =>
    have happens : s.events[i]? = some s.events[i] := List.getElem?_eq_getElem upTo
    rw [List.take_add_one, happens, Option.toList_some, run_append, ih (Nat.le_of_lt upTo), List.range_succ,
      List.flatMap_append, List.flatMap_singleton, handed_of_some happens]
    simp [run, state]

private theorem in_turn (s : Session) : s.output = (List.range s.events.length).flatMap s.handed := by
  have whole := s.run_take (Nat.le_refl s.events.length)
  rwa [List.take_length] at whole

private theorem spaced (some_flush : f ∈ s.handed i) (upTo : p ≤ i) {keys : List Key} (pushes : s.Pushes p keys) :
    s.time p + s.window ≤ f.time := by
  obtain ⟨⟨-, -, -, p', ⟨-, -, last⟩, same, -⟩, -⟩ :=
    (handed_iff (lt_length_of_handed some_flush) f).mp some_flush
  have not_later : p ≤ p' := by
    by_contra later
    exact last p (Nat.lt_of_not_le later) (Nat.lt_succ_of_le upTo) keys pushes
  rw [same]
  exact Nat.add_le_add_right (time_mono not_later) _

private theorem not_waits {n : Nat} (upTo : n ≤ s.events.length) (live : s.Live n)
    (closed : ∀ p, s.LatestPush n p → s.time p + s.window ≤ s.time n) : ¬s.Waits n q := by
  have knows := (s.tracks upTo).knows live
  intro waits
  have listed : q ∈ (s.state n).pending := (knows.pending q).mpr waits
  cases deadline : (s.state n).deadline with
  | none =>
    rw [(knows.idle deadline).1] at listed
    cases listed
  | some due =>
    obtain ⟨ahead, p, last, same, -⟩ := knows.deadline due deadline
    have reached := closed p last
    omega

private theorem delivers {n : Nat} (upTo : n ≤ s.events.length) (live : s.Live n)
    (closed : ∀ p, s.LatestPush n p → s.time p + s.window ≤ s.time n) (before : p < n) {keys : List Key}
    (pushes : s.Pushes p keys) (pushed : q ∈ keys) : ∃ i, p ≤ i ∧ i < n ∧ ∃ f ∈ s.handed i, q ∈ f.keys := by
  have some_flush : ∃ m, p ≤ m ∧ m < n ∧ s.handed m ≠ [] := by
    by_contra none
    have quiet : s.Quiet p n := fun m after earlier =>
      Classical.byContradiction fun flushed => none ⟨m, after, earlier, flushed⟩
    exact not_waits upTo live closed ⟨p, keys, before, pushes, pushed, quiet⟩
  -- the first flush from the push on still has the key
  classical
  obtain ⟨after, earlier, flushed⟩ := Nat.find_spec some_flush
  have quiet : s.Quiet p (Nat.find some_flush) := fun m after' first =>
    Classical.byContradiction fun flushed' =>
      Nat.find_min some_flush first ⟨after', Nat.lt_trans first earlier, flushed'⟩
  obtain ⟨f, listed⟩ := List.exists_mem_of_ne_nil _ flushed
  obtain ⟨-, -, all, -⟩ := (handed_iff (lt_length_of_handed listed) f).mp listed
  exact ⟨_, after, earlier, f, listed, (all q).mpr ⟨p, keys, after, pushes, pushed, quiet⟩⟩

private theorem repushed {j : Nat} {g : Flush} (first : f ∈ s.handed i) (second : g ∈ s.handed j) (before : i < j)
    (again : q ∈ g.keys) : ∃ p keys, i < p ∧ p ≤ j ∧ s.Pushes p keys ∧ q ∈ keys := by
  obtain ⟨-, -, all, -⟩ := (handed_iff (lt_length_of_handed second) g).mp second
  obtain ⟨p, keys, upTo, pushes, pushed, quiet⟩ := (all q).mp again
  refine ⟨p, keys, ?_, upTo, pushes, pushed⟩
  by_contra early
  have nothing : s.handed i = [] := quiet i (Nat.le_of_not_lt early) before
  rw [nothing] at first
  cases first

private theorem split (s : Session) (front back : List Event) (a b : Nat)
    (events : s.events = front ++ .advance (a + b) :: back) :
    s.output = output ⟨s.window, front ++ .advance a :: .advance b :: back⟩ := by
  unfold output
  rw [events, run_append, run_append]
  obtain ⟨flushes, after⟩ := step_advance_add (run { window := s.window } front).2 a b
  simp only [run, flushes, after, List.append_assoc]

private theorem ended (s : Session) (front back : List Event) (events : s.events = front ++ e :: back)
    (ends : e.IsEnd) : s.output = output ⟨s.window, front⟩ := by
  unfold output
  have dead : ((run { window := s.window } front).2.step e).2.alive = false := by
    rw [← Bool.not_eq_true, (step_frame _ e).2.2.1]
    exact fun h => h.2 ends
  rw [events, run_append]
  simp only [run, step_of_end ends, run_of_dead dead, List.append_nil]

theorem handed_over_exactly (s : Session) : s.Exact where
  in_turn := s.in_turn
  once := s.length_handed_le
  handed_iff _ := handed_iff
  spaced _ _ listed _ upTo _ pushes := spaced listed upTo pushes
  delivers _ upTo live closed _ before _ pushes _ pushed := delivers upTo live closed before pushes pushed
  repushed _ _ before _ first _ second _ _ again := repushed first second before again
  split := s.split
  ended _ _ _ events ends := s.ended _ _ events ends

end Pageweave.Debouncer.Session
