import Pageweave.Proofs.Cache.Step
/-!
# Runs in time

A schedule says what happens at each moment; any run of events is one. Here moments are traced: when a caller called,
when it began to compile, and that its ticket is good to the end. Between two moments the invalidated keys are counted
one by one.
-/
namespace Pageweave.Cache

structure Schedule (ε α : Type) where
  /-- What happens at a moment, if anything. -/
  event : Nat → Option (Event ε α)

namespace Schedule

variable {ε α : Type} [Dependent α]

def ofList (events : List (Event ε α)) : Schedule ε α := ⟨fun n => events[n]?⟩

/-- The state before what happens at a moment. -/
def state (s : Schedule ε α) : Nat → Traffic ε α
  | 0 => {}
  | n + 1 =>
    match s.event n with
    | some e => (s.state n).step e
    | none => s.state n

/-- A new caller gets this number. -/
def Calls (s : Schedule ε α) (n u : Nat) (k : Key) : Prop := s.event n = some (.call k) ∧ (s.state n).next = u

def Receives (s : Schedule ε α) (n u : Nat) (o : Outcome ε α) : Prop :=
  (s.state n).outcome? u = none ∧ (s.state (n + 1)).outcome? u = some o

/-- A caller begins to compile for a key. -/
def Begins (s : Schedule ε α) (n w : Nat) (k : Key) : Prop :=
  (s.state n).ticket? w = none ∧ ∃ ticket, (s.state (n + 1)).ticket? w = some ticket ∧ ticket.key = k

/-- A compile that begins at `i` and ends well at `j`. -/
structure Compiles (s : Schedule ε α) (w : Nat) (k : Key) (v : α) (i j : Nat) : Prop where
  begins : s.Begins i w k
  before : i < j
  compiling : ((s.state j).ticket? w).isSome = true
  ends : s.event j = some (.finish w (.ok v))

/-- The keys that are invalidated at a moment. -/
def invalidated (s : Schedule ε α) (n : Nat) : List Key :=
  match s.event n with
  | some e => e.invalidates (s.state n).cache
  | none => []

/-- The keys that are invalidated from one moment on and before another. -/
def invalidations (s : Schedule ε α) (i j : Nat) : List Key := ((List.range j).filter (i ≤ ·)).flatMap s.invalidated

def Clears (s : Schedule ε α) (n : Nat) : Prop := s.event n = some .clear

variable {s : Schedule ε α} {n m i j u w : Nat} {k q : Key} {v : α} {c : Caller} {o : Outcome ε α} {ticket : Ticket}

theorem state_succ_of_some {e : Event ε α} (h : s.event n = some e) : s.state (n + 1) = (s.state n).step e := by
  simp only [state, h]

theorem state_succ_of_none (h : s.event n = none) : s.state (n + 1) = s.state n := by
  simp only [state, h]

theorem state_eq_run (s : Schedule ε α) (n : Nat) : s.state n = Traffic.run {} ((List.range n).filterMap s.event) := by
  induction n with
  | zero => rfl
  | succ n ih =>
    rw [List.range_succ, List.filterMap_append]
    cases h : s.event n with
    | none => simp [state_succ_of_none h, ih, h]
    | some e => simp [state_succ_of_some h, ih, h, Traffic.run]

omit [Dependent α] in
private theorem filterMap_ofList (events : List (Event ε α)) (n : Nat) :
    (List.range n).filterMap (ofList events).event = events.take n := by
  induction n with
  | zero => rfl
  | succ n ih =>
    have last : [n].filterMap (ofList events).event = events[n]?.toList := by
      change [n].filterMap (fun m => events[m]?) = _
      cases h : events[n]? with
      | none => simp [h]
      | some e => simp [h]
    rw [List.range_succ, List.filterMap_append, ih, List.take_add_one, last]

theorem state_ofList_append (front back : List (Event ε α)) :
    (ofList (front ++ back)).state front.length = Traffic.run {} front := by
  rw [state_eq_run, filterMap_ofList, List.take_left]

theorem sound (s : Schedule ε α) (n : Nat) : (s.state n).Sound := by
  rw [state_eq_run]
  exact Traffic.sound_empty.run _

theorem mem_invalidations : q ∈ s.invalidations i j ↔ ∃ m, i ≤ m ∧ m < j ∧ q ∈ s.invalidated m := by
  simp only [invalidations, List.mem_flatMap, List.mem_filter, List.mem_range, decide_eq_true_eq]
  tauto

theorem invalidations_self (s : Schedule ε α) (i : Nat) : s.invalidations i i = [] := by
  have nothing : (List.range i).filter (i ≤ ·) = [] := by
    simp only [List.filter_eq_nil_iff, List.mem_range, decide_eq_true_eq]
    omega
  rw [invalidations, nothing, List.flatMap_nil]

theorem invalidations_succ (s : Schedule ε α) (h : i ≤ j) :
    s.invalidations i (j + 1) = s.invalidations i j ++ s.invalidated j := by
  simp [invalidations, List.range_succ, List.filter_append, h]

theorem next_mono (s : Schedule ε α) (h : m ≤ n) : (s.state m).next ≤ (s.state n).next := by
  induction h with
  | refl => exact Nat.le_refl _
  | @step n _ ih =>
    refine Nat.le_trans ih ?_
    cases e : s.event n with
    | none => exact Nat.le_of_eq (congrArg Traffic.next (state_succ_of_none e).symm)
    | some _ =>
      rw [state_succ_of_some e]
      exact Traffic.next_le_step _ _

/-- A number is given to one call only. -/
theorem calls_unique (h : s.Calls m u k) (h' : s.Calls n u q) : m = n ∧ k = q := by
  have later {m n : Nat} {k q : Key} (h : s.Calls m u k) (h' : s.Calls n u q) : n ≤ m := by
    by_contra after
    have grown := s.next_mono (show m + 1 ≤ n by omega)
    rw [state_succ_of_some h.1, Traffic.next_step_call, h.2, h'.2] at grown
    omega
  obtain rfl : m = n := Nat.le_antisymm (later h' h) (later h h')
  refine ⟨rfl, ?_⟩
  have same := h.1.symm.trans h'.1
  simpa using same

theorem called_of_caller? (there : (s.state n).caller? u = some c) : ∃ m < n, s.Calls m u c.key := by
  induction n generalizing c with
  | zero => cases there
  | succ n ih =>
    have older {d : Caller} (before : (s.state n).caller? u = some d) (key : d.key = c.key) :
        ∃ m < n + 1, s.Calls m u c.key := by
      obtain ⟨m, earlier, calls⟩ := ih before
      exact ⟨m, by omega, key ▸ calls⟩
    cases e : s.event n with
    | none =>
      rw [state_succ_of_none e] at there
      exact older there rfl
    | some _ =>
      rw [state_succ_of_some e] at there
      rcases (s.sound n).caller?_of_step there with ⟨rfl, number, -⟩ | ⟨d, before, advance⟩
      · exact ⟨n, Nat.lt_succ_self n, e, number.symm⟩
      · exact older before advance.key

theorem outcome?_mono (got : (s.state m).outcome? u = some o) (h : m ≤ n) : (s.state n).outcome? u = some o := by
  induction h with
  | refl => exact got
  | @step n _ ih =>
    cases e : s.event n with
    | none => rwa [state_succ_of_none e]
    | some _ =>
      rw [state_succ_of_some e]
      exact Traffic.outcome?_step ih

theorem called_of_begins (begins : s.Begins i w k) : ∃ m < i, s.Calls m w k := by
  obtain ⟨idle, ticket, compiles, key⟩ := begins
  cases e : s.event i with
  | none =>
    rw [state_succ_of_none e, idle] at compiles
    cases compiles
  | some _ =>
    rw [state_succ_of_some e] at compiles
    obtain ⟨q, p, -, there, -, -, rfl⟩ := (s.sound i).ticket?_of_step idle compiles
    subst key
    exact called_of_caller? there

theorem ticket?_of_begins (begins : s.Begins i w k) :
    (s.state (i + 1)).ticket? w = some ((s.state i).cache.begin k).1 ∧ (s.state i).cache.lookup? k = none ∧
      s.event i = some (.go w) := by
  obtain ⟨idle, ticket, compiles, key⟩ := begins
  cases e : s.event i with
  | none =>
    rw [state_succ_of_none e, idle] at compiles
    cases compiles
  | some _ =>
    rw [state_succ_of_some e] at compiles ⊢
    obtain ⟨q, p, rfl, there, -, missed, rfl⟩ := (s.sound i).ticket?_of_step idle compiles
    subst key
    exact ⟨compiles, missed, rfl⟩

theorem cache_of_begins (begins : s.Begins i w k) : (s.state (i + 1)).cache = ((s.state i).cache.begin k).2 := by
  have goes := (ticket?_of_begins begins).2.2
  obtain ⟨idle, ticket, compiles, rfl⟩ := begins
  rw [state_succ_of_some goes] at compiles ⊢
  exact (s.sound i).cache_of_step idle compiles

private theorem elapsed_succ (s : Schedule ε α) (n : Nat) :
    (s.state n).cache.Elapsed (s.state (n + 1)).cache (s.invalidated n) (s.Clears n) := by
  unfold invalidated Clears
  cases h : s.event n with
  | none =>
    rw [state_succ_of_none h]
    exact (elapsed_of_eq rfl rfl rfl).congr (by simp)
  | some e =>
    rw [state_succ_of_some h]
    exact ((s.state n).elapsed_step e).congr (by simp)

theorem elapsed_of_begins (begins : s.Begins i w k) (h : i < j) :
    ((s.state i).cache.begin k).2.Elapsed (s.state j).cache (s.invalidations i j)
      (∃ m, i ≤ m ∧ m < j ∧ s.Clears m) := by
  induction h with
  | refl =>
    have goes := (ticket?_of_begins begins).2.2
    have nothing : s.invalidated i = [] := by simp [invalidated, goes, Event.invalidates]
    rw [cache_of_begins begins, invalidations_succ s (Nat.le_refl i), invalidations_self, nothing]
    refine (elapsed_of_eq rfl rfl rfl).congr ⟨False.elim, ?_⟩
    rintro ⟨m, after, before, clears⟩
    obtain rfl : m = i := by omega
    rw [Clears, goes] at clears
    cases clears
  | @step j h ih =>
    have upTo : i ≤ j := Nat.le_of_lt h
    rw [invalidations_succ s upTo]
    refine (ih.trans (s.elapsed_succ j)).congr ⟨?_, ?_⟩
    · rintro (⟨m, after, before, clears⟩ | clears)
      · exact ⟨m, after, by omega, clears⟩
      · exact ⟨j, upTo, Nat.lt_succ_self j, clears⟩
    · rintro ⟨m, after, before, clears⟩
      by_cases last : m = j
      · exact .inr (last ▸ clears)
      · exact .inl ⟨m, after, by omega, clears⟩

theorem lookup?_of_ticket? (h : (s.state n).ticket? u = some ticket) :
    (s.state n).cache.lookup? ticket.key = none := by
  obtain ⟨c, there, compiles⟩ := Traffic.ticket?_eq_some_iff.mp h
  obtain ⟨key, missed⟩ := (s.sound n).compiling c (Traffic.mem_of_caller? there).1 _ compiles
  rw [key, missed]

theorem outcome?_of_ticket? (h : (s.state n).ticket? u = some ticket) : (s.state n).outcome? u = none := by
  obtain ⟨c, there, -⟩ := Traffic.ticket?_eq_some_iff.mp h
  exact (s.sound n).outcome?_of_caller? there

/-- Once a caller compiles it keeps its ticket until it has an outcome. -/
theorem ticket?_or_outcome? (compiles : (s.state m).ticket? w = some ticket) (h : m ≤ n) :
    (s.state n).ticket? w = some ticket ∨ ∃ o, (s.state n).outcome? w = some o := by
  induction h with
  | refl => exact .inl compiles
  | @step n _ ih =>
    cases e : s.event n with
    | none => rwa [state_succ_of_none e]
    | some _ =>
      rw [state_succ_of_some e]
      rcases ih with compiles | ⟨o, got⟩
      · rcases (s.sound n).ticket?_step compiles with still | ⟨-, o, more, -⟩
        · exact .inl still
        · refine .inr ⟨o, ?_⟩
          rw [Traffic.outcome?_append more, outcome?_of_ticket? compiles]
          simp
      · exact .inr ⟨o, Traffic.outcome?_step got⟩

theorem Compiles.ticket?_of_le (h : s.Compiles w k v i j) (after : i < m) (before : m ≤ j) :
    (s.state m).ticket? w = some ((s.state i).cache.begin k).1 := by
  rcases ticket?_or_outcome? (ticket?_of_begins h.begins).1 after with same | ⟨o, got⟩
  · exact same
  · obtain ⟨ticket, compiles⟩ := Option.isSome_iff_exists.mp h.compiling
    have later := outcome?_mono got before
    rw [outcome?_of_ticket? compiles] at later
    cases later

theorem Compiles.ticket? (h : s.Compiles w k v i j) :
    (s.state j).ticket? w = some ((s.state i).cache.begin k).1 := h.ticket?_of_le h.before (Nat.le_refl j)

theorem begins_of_ticket? (compiles : (s.state n).ticket? w = some ticket) :
    ∃ i < n, s.Begins i w ticket.key ∧ ticket = ((s.state i).cache.begin ticket.key).1 := by
  induction n with
  | zero => cases compiles
  | succ n ih =>
    cases idle : (s.state n).ticket? w with
    | none =>
      have begins : s.Begins n w ticket.key := ⟨idle, ticket, compiles, rfl⟩
      have same := (ticket?_of_begins begins).1
      rw [compiles] at same
      exact ⟨n, Nat.lt_succ_self n, begins, Option.some.inj same⟩
    | some older =>
      have same : older = ticket := by
        rcases ticket?_or_outcome? idle (Nat.le_succ n) with still | ⟨o, got⟩
        · exact Option.some.inj (still.symm.trans compiles)
        · rw [outcome?_of_ticket? compiles] at got
          cases got
      obtain ⟨i, earlier, begins⟩ := ih (same ▸ idle)
      exact ⟨i, by omega, begins⟩

end Schedule
end Pageweave.Cache
