import Pageweave.Proofs.Cache.Turn
/-!
# What one event can change

Each fact about the state after an event is traced back to the state before it: where a caller came from, how it got its
ticket or its outcome, which values were kept and which were stored.
-/
namespace Pageweave.Cache

variable {ε α : Type} [Dependent α]

/-- The keys that an event invalidates, one by one. -/
def Event.invalidates (c : Cache α) : Event ε α → List Key
  | .invalidate k => [k]
  | .invalidateDependents k => c.dependents k
  | .change k => k :: (c.invalidate k).dependents k
  | _ => []

/-- Does an event take this value of a key out of the cache? -/
def Event.Removes (e : Event ε α) (k : Key) (v : α) : Prop :=
  e = .clear ∨ e = .invalidate k ∨ e = .change k ∨
    ∃ d, dependsOn v d = true ∧ (e = .invalidateDependents d ∨ e = .change d)

namespace Traffic

variable {t : Traffic ε α} {e : Event ε α} {k : Key} {n : Nat} {v : α} {c : Caller} {o : Outcome ε α} {ticket : Ticket}

theorem elapsed_step (t : Traffic ε α) (e : Event ε α) :
    t.cache.Elapsed (t.step e).cache (e.invalidates t.cache) (e = .clear) := by
  have move := move_step t e
  generalize t.step e = t' at move
  have quiet {d : Cache α} {e : Event ε α} (h : t.cache.Elapsed d [] False) (other : e ≠ .clear) :
      t.cache.Elapsed d [] (e = .clear) := h.congr (by simp [other])
  cases move with
  | look _ => exact quiet (elapsed_of_eq rfl rfl rfl) nofun
  | ask _ => exact quiet (elapsed_of_eq rfl rfl rfl) nofun
  | wait _ _ => exact quiet (elapsed_of_eq rfl rfl rfl) nofun
  | take _ _ _ _ => exact quiet (elapsed_of_eq rfl rfl rfl) nofun
  | begin _ _ _ _ => exact quiet (elapsed_begin t.cache _) nofun
  | finish v _ => exact quiet (elapsed_finish t.cache _ v) nofun
  | fail _ _ =>
    rw [cache_passOn]
    exact quiet (elapsed_of_eq rfl rfl rfl) nofun
  | drop _ _ =>
    rw [cache_passOn]
    exact quiet (elapsed_of_eq rfl rfl rfl) nofun
  | giveUp _ _ => exact quiet (elapsed_of_eq rfl rfl rfl) nofun
  | still _ => exact quiet (elapsed_of_eq rfl rfl rfl) nofun
  | idle _ _ => exact quiet (elapsed_of_eq rfl rfl rfl) nofun
  | gone _ => exact quiet (elapsed_of_eq rfl rfl rfl) nofun
  | invalidate k => exact (elapsed_invalidate t.cache k).congr (by simp)
  | invalidateDependents k => exact (elapsed_foldl_invalidate t.cache _).congr (by simp)
  | change k =>
    exact ((elapsed_invalidate t.cache k).trans (elapsed_foldl_invalidate _ _)).congr (by simp)
  | clear => exact (elapsed_clear t.cache).congr (by simp)

/-! ## Where a caller stands -/

/-- Until an event concerns a caller itself it stays where it is, except that one who waits may be woken. -/
theorem Sound.caller?_step (h : t.Sound) (there : t.caller? n = some c) (goes : e ≠ .go n)
    (ends : ∀ r, e ≠ .finish n r) (cancels : e ≠ .cancel n) :
    (t.step e).caller? n = some c ∨
      c.phase = .waiting ∧ (t.step e).caller? n = some { c with phase := .woken } := by
  have move := move_step t e
  generalize t.step e = t' at move
  have fresh : n ≠ t.next := Nat.ne_of_lt (h.lt_next there)
  have passed {m : Nat} {d : Caller} {o : Outcome ε α} {k : Key} (other : n ≠ m) (actor : t.caller? m = some d) :
      ((t.settle m o).passOn k).caller? n = some c ∨
        c.phase = .waiting ∧ ((t.settle m o).passOn k).caller? n = some { c with phase := .woken } := by
    have left : (t.settle m o).caller? n = some c := by rw [caller?_settle, if_neg other, there]
    rcases (h.toConsistent.settle (h.lt_next actor) (h.unsettled actor) o).caller?_passOn (k := k) left with
      same | ⟨longest, woken⟩
    · exact .inl same
    · exact .inr ⟨(mem_of_longestWaiting? longest).2.2, woken⟩
  cases move with
  | @look k v found =>
    left
    change (t.settle t.next (.value v false)).caller? n = some c
    rw [caller?_settle, if_neg fresh, there]
  | ask _ =>
    left
    change (t.enter _).caller? n = some c
    rw [caller?_enter, if_neg fresh, there]
  | @wait m k actor busy =>
    left
    rw [caller?_enter, if_neg (by rintro rfl; exact goes rfl), there]
  | @take m k p v actor ready free found =>
    have other : n ≠ m := by rintro rfl; exact goes rfl
    exact passed other actor
  | @begin m k p actor ready free missed =>
    left
    change (t.enter _).caller? n = some c
    rw [caller?_enter, if_neg (by rintro rfl; exact goes rfl), there]
  | @finish m k ticket v actor =>
    have other : n ≠ m := by rintro rfl; exact ends _ rfl
    exact passed other actor
  | @fail m k ticket x actor => exact passed (by rintro rfl; exact ends _ rfl) actor
  | @drop d actor turn => exact passed (by rintro rfl; exact cancels rfl) actor
  | @giveUp d actor turn =>
    left
    rw [caller?_settle, if_neg (by rintro rfl; exact cancels rfl), there]
  | still _ => exact .inl there
  | idle _ _ => exact .inl there
  | gone _ => exact .inl there
  | invalidate k => exact .inl there
  | invalidateDependents k => exact .inl there
  | change k => exact .inl there
  | clear => exact .inl there

theorem Sound.ticket?_step (h : t.Sound) (compiles : t.ticket? n = some ticket) :
    (t.step e).ticket? n = some ticket ∨
      (t.step e).caller? n = none ∧ ∃ o, (t.step e).outcomes = t.outcomes ++ [(n, o)] ∧
        ((∃ v, e = .finish n (.ok v) ∧ o = .value v true) ∨ (∃ x, e = .finish n (.error x) ∧ o = .failed x) ∨
          e = .cancel n ∧ o = .cancelled) := by
  obtain ⟨⟨m, k, p⟩, there, rfl⟩ := ticket?_eq_some_iff.mp compiles
  obtain rfl : m = n := (mem_of_caller? there).2
  have gone {o : Outcome ε α} {k : Key} : ((t.settle m o).passOn k).caller? m = none :=
    caller?_passOn_of_none (by simp)
  by_cases goes : e = .go m
  · subst goes
    left
    have still : t.step (.go m) = t := by simp [Traffic.step, Traffic.go, there]
    rw [still, compiles]
  by_cases ends : ∃ r, e = .finish m r
  · obtain ⟨r, rfl⟩ := ends
    right
    cases r with
    | ok v =>
      refine ⟨?_, .value v true, ?_, .inl ⟨v, rfl, rfl⟩⟩
      · simp only [Traffic.step, Traffic.finish, compiles, settle_passOn_withCache]
        exact gone
      · simp only [Traffic.step, Traffic.finish, compiles, outcomes_passOn]
        rfl
    | error x =>
      refine ⟨?_, .failed x, ?_, .inr (.inl ⟨x, rfl, rfl⟩)⟩
      · simp only [Traffic.step, Traffic.finish, compiles]
        exact gone
      · simp only [Traffic.step, Traffic.finish, compiles, outcomes_passOn]
        rfl
  by_cases cancels : e = .cancel m
  · subst cancels
    right
    refine ⟨?_, .cancelled, ?_, .inr (.inr ⟨rfl, rfl⟩)⟩
    · simp only [Traffic.step, Traffic.cancel, there, Phase.hasTurn, if_true]
      exact gone
    · simp only [Traffic.step, Traffic.cancel, there, Phase.hasTurn, if_true, outcomes_passOn]
      rfl
  · left
    rcases h.caller?_step there goes (fun r same => ends ⟨r, same⟩) cancels with same | ⟨waits, -⟩
    · exact ticket?_eq_some_iff.mpr ⟨_, same, rfl⟩
    · cases waits

/-- How one event may take a caller further. -/
inductive Advance (t : Traffic ε α) (e : Event ε α) : Caller → Caller → Prop where
  | stay (c : Caller) : Advance t e c c
  | wake (c : Caller) (waits : c.phase = .waiting) : Advance t e c { c with phase := .woken }
  | wait (n : Nat) (k : Key) (goes : e = .go n) : Advance t e ⟨n, k, .asking⟩ ⟨n, k, .waiting⟩
  | begin (n : Nat) (k : Key) (p : Phase) (goes : e = .go n) (ready : p.isReady = true)
      (missed : t.cache.lookup? k = none) : Advance t e ⟨n, k, p⟩ ⟨n, k, .compiling (t.cache.begin k).1⟩

omit [Dependent α] in
theorem Advance.key {d : Caller} (h : t.Advance e d c) : d.key = c.key := by
  cases h with
  | stay => rfl
  | wake => rfl
  | wait => rfl
  | begin => rfl

theorem Sound.caller?_of_step (h : t.Sound) (there : (t.step e).caller? n = some c) :
    e = .call c.key ∧ n = t.next ∧ c.phase = .asking ∨ ∃ d, t.caller? n = some d ∧ t.Advance e d c := by
  have move := move_step t e
  generalize t.step e = t' at move there
  have passed {m : Nat} {d : Caller} {o : Outcome ε α} {k : Key} (actor : t.caller? m = some d)
      (there : ((t.settle m o).passOn k).caller? n = some c) : ∃ d, t.caller? n = some d ∧ t.Advance e d c := by
    have ended := h.toConsistent.settle (h.lt_next actor) (h.unsettled actor) o
    rcases ended.caller?_of_passOn there with same | ⟨d, longest, before, rfl⟩
    · rw [caller?_settle] at same
      split at same
      · cases same
      · exact ⟨c, same, .stay c⟩
    · rw [caller?_settle] at before
      split at before
      · cases before
      · exact ⟨d, before, .wake d (mem_of_longestWaiting? longest).2.2⟩
  cases move with
  | @look k v found =>
    change (t.settle t.next (.value v false)).caller? n = some c at there
    rw [caller?_settle] at there
    split at there
    · cases there
    · exact .inr ⟨c, there, .stay c⟩
  | @ask k missed =>
    change (t.enter ⟨t.next, k, .asking⟩).caller? n = some c at there
    rw [caller?_enter] at there
    split at there
    · rename_i new
      cases there
      exact .inl ⟨rfl, new, rfl⟩
    · exact .inr ⟨c, there, .stay c⟩
  | @wait m k actor busy =>
    rw [caller?_enter] at there
    split at there
    · rename_i same
      obtain rfl : n = m := same
      cases there
      exact .inr ⟨_, actor, .wait n k rfl⟩
    · exact .inr ⟨c, there, .stay c⟩
  | take actor _ _ _ => exact .inr (passed actor there)
  | @begin m k p actor ready free missed =>
    change (t.enter ⟨m, k, .compiling (t.cache.begin k).1⟩).caller? n = some c at there
    rw [caller?_enter] at there
    split at there
    · rename_i same
      obtain rfl : n = m := same
      cases there
      exact .inr ⟨_, actor, .begin n k p rfl ready missed⟩
    · exact .inr ⟨c, there, .stay c⟩
  | finish _ actor => exact .inr (passed actor there)
  | fail _ actor => exact .inr (passed actor there)
  | drop actor _ => exact .inr (passed actor there)
  | giveUp actor _ =>
    rw [caller?_settle] at there
    split at there
    · cases there
    · exact .inr ⟨c, there, .stay c⟩
  | still _ => exact .inr ⟨c, there, .stay c⟩
  | idle _ _ => exact .inr ⟨c, there, .stay c⟩
  | gone _ => exact .inr ⟨c, there, .stay c⟩
  | invalidate _ => exact .inr ⟨c, there, .stay c⟩
  | invalidateDependents _ => exact .inr ⟨c, there, .stay c⟩
  | change _ => exact .inr ⟨c, there, .stay c⟩
  | clear => exact .inr ⟨c, there, .stay c⟩

theorem Sound.ticket?_of_step (h : t.Sound) (idle : t.ticket? n = none)
    (compiles : (t.step e).ticket? n = some ticket) :
    ∃ k p, e = .go n ∧ t.caller? n = some ⟨n, k, p⟩ ∧ p.isReady = true ∧ t.cache.lookup? k = none ∧
      ticket = (t.cache.begin k).1 := by
  obtain ⟨c, there, phase⟩ := ticket?_eq_some_iff.mp compiles
  rcases h.caller?_of_step there with ⟨-, -, asks⟩ | ⟨d, before, advance⟩
  · rw [asks] at phase
    cases phase
  · cases advance with
    | stay =>
      rw [ticket?_eq_some_iff.mpr ⟨c, before, phase⟩] at idle
      cases idle
    | wake _ _ => cases phase
    | wait _ _ _ => cases phase
    | begin m k p goes ready missed =>
      obtain rfl : m = n := (mem_of_caller? before).2
      cases phase
      exact ⟨k, p, goes, before, ready, missed, rfl⟩

theorem Sound.cache_of_step (h : t.Sound) (idle : t.ticket? n = none) (compiles : (t.step e).ticket? n = some ticket) :
    (t.step e).cache = (t.cache.begin ticket.key).2 := by
  obtain ⟨k, p, rfl, there, ready, missed, rfl⟩ := h.ticket?_of_step idle compiles
  have move := move_step t (.go n)
  generalize t.step (.go n) = t' at move compiles
  cases move with
  | wait _ _ =>
    obtain ⟨c, waits, phase⟩ := ticket?_eq_some_iff.mp compiles
    rw [caller?_enter, if_pos rfl] at waits
    cases waits
    cases phase
  | take there' _ _ found =>
    cases there.symm.trans there'
    rw [missed] at found
    cases found
  | begin there' _ _ _ =>
    cases there.symm.trans there'
    rfl
  | still stuck =>
    rw [stuck _ there] at ready
    cases ready

/-! ## Numbers and outcomes -/

theorem next_step_call (t : Traffic ε α) (k : Key) : (t.step (.call k)).next = t.next + 1 := by
  have move := move_step t (.call k)
  generalize t.step (.call k) = t' at move
  cases move with
  | look _ => rfl
  | ask _ => rfl

omit [Dependent α] in
theorem caller?_call (missed : t.cache.lookup? k = none) : (t.call k).caller? t.next = some ⟨t.next, k, .asking⟩ := by
  simp only [Traffic.call, missed]
  change (t.enter ⟨t.next, k, .asking⟩).caller? t.next = _
  simp

theorem next_le_step (t : Traffic ε α) (e : Event ε α) : t.next ≤ (t.step e).next := by
  have move := move_step t e
  generalize t.step e = t' at move
  have passed {m : Nat} {o : Outcome ε α} {k : Key} : t.next ≤ ((t.settle m o).passOn k).next := by
    rw [next_passOn]
    exact Nat.le_refl _
  cases move with
  | look _ => exact Nat.le_succ _
  | ask _ => exact Nat.le_succ _
  | wait _ _ => exact Nat.le_refl _
  | take _ _ _ _ => exact passed
  | begin _ _ _ _ => exact Nat.le_refl _
  | finish _ _ => exact passed
  | fail _ _ => exact passed
  | drop _ _ => exact passed
  | giveUp _ _ => exact Nat.le_refl _
  | still _ => exact Nat.le_refl _
  | idle _ _ => exact Nat.le_refl _
  | gone _ => exact Nat.le_refl _
  | invalidate _ => exact Nat.le_refl _
  | invalidateDependents _ => exact Nat.le_refl _
  | change _ => exact Nat.le_refl _
  | clear => exact Nat.le_refl _

theorem outcomes_step (t : Traffic ε α) (e : Event ε α) :
    (t.step e).outcomes = t.outcomes ∨ ∃ u o, (t.step e).outcomes = t.outcomes ++ [(u, o)] := by
  have move := move_step t e
  generalize t.step e = t' at move
  cases move with
  | look _ => exact .inr ⟨_, _, rfl⟩
  | ask _ => exact .inl rfl
  | wait _ _ => exact .inl rfl
  | take _ _ _ _ => exact .inr ⟨_, _, outcomes_passOn⟩
  | begin _ _ _ _ => exact .inl rfl
  | finish _ _ => exact .inr ⟨_, _, outcomes_passOn⟩
  | fail _ _ => exact .inr ⟨_, _, outcomes_passOn⟩
  | drop _ _ => exact .inr ⟨_, _, outcomes_passOn⟩
  | giveUp _ _ => exact .inr ⟨_, _, rfl⟩
  | still _ => exact .inl rfl
  | idle _ _ => exact .inl rfl
  | gone _ => exact .inl rfl
  | invalidate _ => exact .inl rfl
  | invalidateDependents _ => exact .inl rfl
  | change _ => exact .inl rfl
  | clear => exact .inl rfl

omit [Dependent α] in
theorem outcome?_eq_none_iff {u : Nat} : t.outcome? u = none ↔ ∀ e ∈ t.outcomes, e.1 ≠ u := by
  simp [outcome?, List.find?_eq_none]

omit [Dependent α] in
theorem outcome?_append {t' : Traffic ε α} {u w : Nat} (more : t'.outcomes = t.outcomes ++ [(w, o)]) :
    t'.outcome? u = (t.outcome? u).or (if w = u then some o else none) := by
  unfold outcome?
  rw [more, List.find?_append]
  cases t.outcomes.find? fun e => e.1 == u with
  | none => by_cases same : w = u <;> simp [same]
  | some x => simp

omit [Dependent α] in
theorem Sound.outcome?_of_caller? (h : t.Sound) (there : t.caller? n = some c) : t.outcome? n = none :=
  outcome?_eq_none_iff.mpr (h.unsettled there)

omit [Dependent α] in
theorem Sound.outcome?_call (h : t.Sound) (found : t.cache.lookup? k = some v) :
    (t.call k).outcome? t.next = some (.value v false) := by
  have unsettled : t.outcome? t.next = none :=
    outcome?_eq_none_iff.mpr fun e he => Nat.ne_of_lt (h.settled e he).1
  simp only [Traffic.call, found]
  refine (outcome?_append (t := t) (w := t.next) rfl).trans ?_
  simp [unsettled]

theorem outcome?_step {u : Nat} (got : t.outcome? u = some o) : (t.step e).outcome? u = some o := by
  rcases outcomes_step t e with same | ⟨w, o', more⟩
  · unfold outcome? at got ⊢
    rw [same, got]
  · rw [outcome?_append more, got]
    rfl

theorem outcomes_of_received {u : Nat} (before : t.outcome? u = none) (after : (t.step e).outcome? u = some o) :
    (t.step e).outcomes = t.outcomes ++ [(u, o)] := by
  rcases outcomes_step t e with same | ⟨w, o', more⟩
  · unfold outcome? at before after
    rw [same, before] at after
    cases after
  · rw [outcome?_append more, before, Option.none_or] at after
    split at after
    · rename_i own
      subst own
      rw [more, Option.some.inj after]
    · cases after

/-- A value comes from the cache, where it then is, or from a compile that ends well. -/
theorem value_of_step {u : Nat} {compiled : Bool}
    (received : (t.step e).outcomes = t.outcomes ++ [(u, .value v compiled)]) :
    (compiled = true ∧ e = .finish u (.ok v) ∧ ∃ ticket, t.ticket? u = some ticket) ∨
      compiled = false ∧ ∃ k, t.cache.lookup? k = some v ∧
        (e = .call k ∧ u = t.next ∨ ∃ p, e = .go u ∧ t.caller? u = some ⟨u, k, p⟩) := by
  have move := move_step t e
  generalize t.step e = t' at move received
  cases move with
  | @look k v' found =>
    obtain ⟨rfl, rfl, rfl⟩ : t.next = u ∧ v' = v ∧ false = compiled := by simpa [Traffic.settle] using received
    exact .inr ⟨rfl, k, found, .inl ⟨rfl, rfl⟩⟩
  | @take m k p v' actor ready free found =>
    obtain ⟨rfl, rfl, rfl⟩ : m = u ∧ v' = v ∧ false = compiled := by simpa [Traffic.settle] using received
    exact .inr ⟨rfl, k, found, .inr ⟨p, rfl, actor⟩⟩
  | @finish m k ticket v' actor =>
    obtain ⟨rfl, rfl, rfl⟩ : m = u ∧ v' = v ∧ true = compiled := by simpa [Traffic.settle] using received
    exact .inl ⟨rfl, rfl, ticket, ticket?_eq_some_iff.mpr ⟨_, actor, rfl⟩⟩
  | ask _ => simp [Traffic.enter] at received
  | wait _ _ => simp [Traffic.enter] at received
  | begin _ _ _ _ => simp [Traffic.enter] at received
  | fail _ _ => simp [Traffic.settle] at received
  | drop _ _ => simp [Traffic.settle] at received
  | giveUp _ _ => simp [Traffic.settle] at received
  | still _ => simp at received
  | idle _ _ => simp at received
  | gone _ => simp at received
  | invalidate _ => simp at received
  | invalidateDependents _ => simp at received
  | change _ => simp at received
  | clear => simp at received

/-- A caller stays, with its key, or gets an outcome for a reason. -/
theorem Sound.caller?_or_outcome? (h : t.Sound) (there : t.caller? n = some c) :
    (∃ d, (t.step e).caller? n = some d ∧ d.key = c.key) ∨
      ∃ o, (t.step e).outcome? n = some o ∧
        (e = .cancel n ∨ (∃ v, t.cache.lookup? c.key = some v ∧ o = .value v false) ∨
          ∃ ticket, t.ticket? n = some ticket ∧
            ((∃ v, e = .finish n (.ok v) ∧ o = .value v true) ∨ ∃ x, e = .finish n (.error x) ∧ o = .failed x)) := by
  have got {o : Outcome ε α} (more : (t.step e).outcomes = t.outcomes ++ [(n, o)]) :
      (t.step e).outcome? n = some o := by
    rw [outcome?_append more, h.outcome?_of_caller? there]
    simp
  by_cases goes : e = .go n
  · subst goes
    have move := move_step t (.go n)
    generalize t.step (.go n) = t' at move got
    cases move with
    | @wait _ k actor _ =>
      obtain rfl : _ = c := Option.some.inj (actor.symm.trans there)
      exact .inl ⟨⟨n, k, .waiting⟩, by simp, rfl⟩
    | @take _ k p v actor _ _ found =>
      obtain rfl : _ = c := Option.some.inj (actor.symm.trans there)
      exact .inr ⟨_, got outcomes_passOn, .inr (.inl ⟨v, found, rfl⟩)⟩
    | @begin _ k p actor _ _ _ =>
      obtain rfl : _ = c := Option.some.inj (actor.symm.trans there)
      refine .inl ⟨⟨n, k, .compiling (t.cache.begin k).1⟩, ?_, rfl⟩
      change (t.enter _).caller? n = _
      simp
    | still _ => exact .inl ⟨c, there, rfl⟩
  by_cases ends : ∃ r, e = .finish n r
  · obtain ⟨r, rfl⟩ := ends
    have move := move_step t (.finish n r)
    generalize t.step (.finish n r) = t' at move got
    cases move with
    | @finish _ k ticket v actor =>
      have compiles : t.ticket? n = some ticket := ticket?_eq_some_iff.mpr ⟨_, actor, rfl⟩
      exact .inr ⟨_, got outcomes_passOn, .inr (.inr ⟨ticket, compiles, .inl ⟨v, rfl, rfl⟩⟩)⟩
    | @fail _ k ticket x actor =>
      have compiles : t.ticket? n = some ticket := ticket?_eq_some_iff.mpr ⟨_, actor, rfl⟩
      exact .inr ⟨_, got outcomes_passOn, .inr (.inr ⟨ticket, compiles, .inr ⟨x, rfl, rfl⟩⟩)⟩
    | idle _ _ => exact .inl ⟨c, there, rfl⟩
  by_cases cancels : e = .cancel n
  · subst cancels
    have move := move_step t (.cancel n)
    generalize t.step (.cancel n) = t' at move got
    cases move with
    | drop actor _ => exact .inr ⟨_, got outcomes_passOn, .inl rfl⟩
    | giveUp actor _ => exact .inr ⟨_, got rfl, .inl rfl⟩
    | gone absent =>
      rw [there] at absent
      cases absent
  · rcases h.caller?_step there goes (fun r same => ends ⟨r, same⟩) cancels with same | ⟨-, woken⟩
    · exact .inl ⟨c, same, rfl⟩
    · exact .inl ⟨_, woken, rfl⟩

/-! ## Values -/

/-- A value that is there after an event was just stored, or nothing concerned it. -/
theorem Sound.mem_of_step {x : Entry α} (h : t.Sound) (hx : x ∈ (t.step e).cache.entries) :
    (∃ n ticket, e = .finish n (.ok x.value) ∧ t.ticket? n = some ticket ∧ ticket.key = x.key ∧
        t.cache.isCurrent ticket x.value = true) ∨
      x ∈ t.cache.entries ∧ x.key ∉ e.invalidates t.cache ∧ e ≠ .clear ∧
        ∀ d, e = .change d → dependsOn x.value d = false := by
  have move := move_step t e
  generalize t.step e = t' at move hx
  cases move with
  | @finish n k ticket v actor =>
    have missed : t.cache.lookup? ticket.key = none := by
      obtain ⟨ha, -⟩ := mem_of_caller? actor
      obtain ⟨key, missed⟩ := h.compiling _ ha ticket rfl
      rw [key, missed]
    rcases (h.cache.mem_finish missed).mp hx with ⟨current, rfl⟩ | older
    · exact .inl ⟨n, ticket, rfl, ticket?_eq_some_iff.mpr ⟨_, actor, rfl⟩, rfl, current⟩
    · exact .inr ⟨older, List.not_mem_nil, nofun, nofun⟩
  | invalidate k =>
    obtain ⟨older, other⟩ := mem_invalidate.mp hx
    exact .inr ⟨older, by simpa [Event.invalidates] using other, nofun, nofun⟩
  | invalidateDependents k =>
    obtain ⟨older, kept⟩ := (mem_foldl_invalidate _).mp hx
    exact .inr ⟨older, kept, nofun, nofun⟩
  | change k =>
    obtain ⟨older, other, independent⟩ := h.cache.mem_change.mp hx
    obtain ⟨-, kept⟩ := (mem_foldl_invalidate _).mp hx
    refine .inr ⟨older, fun listed => (List.mem_cons.mp listed).elim other kept, nofun, ?_⟩
    rintro d ⟨⟩
    exact independent
  | clear => exact absurd hx List.not_mem_nil
  | look _ => exact .inr ⟨hx, List.not_mem_nil, nofun, nofun⟩
  | ask _ => exact .inr ⟨hx, List.not_mem_nil, nofun, nofun⟩
  | wait _ _ => exact .inr ⟨hx, List.not_mem_nil, nofun, nofun⟩
  | take _ _ _ _ => exact .inr ⟨hx, List.not_mem_nil, nofun, nofun⟩
  | begin _ _ _ _ => exact .inr ⟨hx, List.not_mem_nil, nofun, nofun⟩
  | fail _ _ =>
    rw [cache_passOn] at hx
    exact .inr ⟨hx, List.not_mem_nil, nofun, nofun⟩
  | drop _ _ =>
    rw [cache_passOn] at hx
    exact .inr ⟨hx, List.not_mem_nil, nofun, nofun⟩
  | giveUp _ _ => exact .inr ⟨hx, List.not_mem_nil, nofun, nofun⟩
  | still _ => exact .inr ⟨hx, List.not_mem_nil, nofun, nofun⟩
  | idle _ _ => exact .inr ⟨hx, List.not_mem_nil, nofun, nofun⟩
  | gone _ => exact .inr ⟨hx, List.not_mem_nil, nofun, nofun⟩

theorem Sound.mem_step {x : Entry α} (h : t.Sound) (hx : x ∈ t.cache.entries) :
    x ∈ (t.step e).cache.entries ∨ e.Removes x.key x.value := by
  have move := move_step t e
  generalize t.step e = t' at move
  cases move with
  | @finish n k ticket v actor =>
    have missed : t.cache.lookup? ticket.key = none := by
      obtain ⟨ha, -⟩ := mem_of_caller? actor
      obtain ⟨key, missed⟩ := h.compiling _ ha ticket rfl
      rw [key, missed]
    exact .inl ((h.cache.mem_finish missed).mpr (.inr hx))
  | invalidate k =>
    by_cases same : x.key = k
    · exact .inr (.inr (.inl (by rw [same])))
    · exact .inl (mem_invalidate.mpr ⟨hx, same⟩)
  | invalidateDependents k =>
    cases depends : dependsOn x.value k with
    | true => exact .inr (.inr (.inr (.inr ⟨k, depends, .inl rfl⟩)))
    | false => exact .inl (h.cache.mem_invalidateDependents.mpr ⟨hx, depends⟩)
  | change k =>
    by_cases same : x.key = k
    · exact .inr (.inr (.inr (.inl (by rw [same]))))
    · cases depends : dependsOn x.value k with
      | true => exact .inr (.inr (.inr (.inr ⟨k, depends, .inr rfl⟩)))
      | false => exact .inl (h.cache.mem_change.mpr ⟨hx, same, depends⟩)
  | clear => exact .inr (.inl rfl)
  | look _ => exact .inl hx
  | ask _ => exact .inl hx
  | wait _ _ => exact .inl hx
  | take _ _ _ _ => exact .inl hx
  | begin _ _ _ _ => exact .inl hx
  | fail _ _ =>
    rw [cache_passOn]
    exact .inl hx
  | drop _ _ =>
    rw [cache_passOn]
    exact .inl hx
  | giveUp _ _ => exact .inl hx
  | still _ => exact .inl hx
  | idle _ _ => exact .inl hx
  | gone _ => exact .inl hx

end Traffic
end Pageweave.Cache
