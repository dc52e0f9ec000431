import Pageweave.Proofs.Cache.Storing
/-!
# How old a value may be

Every value in the cache comes from a compile that began after anything happened that concerns it. So whoever gets a
value gets one from after the last invalidation, apart from those that compiled it themselves, who get one from after
their call.
-/
namespace Pageweave.Cache.Schedule

variable {ε α : Type} [Dependent α] {s : Schedule ε α} {c n i j u w : Nat} {k : Key} {v : α} {compiled : Bool}
  {x : Entry α}

/-- Does what happens at a moment make a value of a key out of date? -/
def Outdates (s : Schedule ε α) (n : Nat) (k : Key) (v : α) : Prop :=
  k ∈ s.invalidated n ∨ s.Clears n ∨ ∃ d, dependsOn v d = true ∧ s.event n = some (.change d)

/-- A value in the cache, the compile that stored it, and that nothing has outdated it since that began. -/
structure Origin (s : Schedule ε α) (n : Nat) (x : Entry α) (w i j : Nat) : Prop where
  compiles : s.Compiles w x.key x.value i j
  before : j < n
  kept : ∀ m, j < m → m ≤ n → x ∈ (s.state m).cache.entries
  fresh : ∀ m, i ≤ m → m < n → ¬s.Outdates m x.key x.value

private theorem not_outdates_of_compiles (h : s.Compiles w k v i j)
    (current : (s.state j).cache.isCurrent ((s.state i).cache.begin k).1 v = true) {m : Nat} (after : i ≤ m)
    (before : m ≤ j) : ¬s.Outdates m k v := by
  obtain ⟨own, clears, independent, -⟩ := h.isCurrent_iff.mp current
  by_cases last : m = j
  · subst last
    rintro (listed | cleared | ⟨d, -, changed⟩)
    · simp [invalidated, h.ends, Event.invalidates] at listed
    · simp [Clears, h.ends] at cleared
    · simp [h.ends] at changed
  · have earlier : m < j := by omega
    rintro (listed | cleared | ⟨d, depends, changed⟩)
    · exact own (mem_invalidations.mpr ⟨m, after, earlier, listed⟩)
    · exact clears ⟨m, after, earlier, cleared⟩
    · have listed : d ∈ s.invalidated m := by simp [invalidated, changed, Event.invalidates]
      have free := independent d (mem_invalidations.mpr ⟨m, after, earlier, listed⟩)
      rw [depends] at free
      cases free

/-- Whatever is in the cache was stored by a compile, and nothing has outdated it since the compile began. -/
theorem origin_of_mem (hx : x ∈ (s.state n).cache.entries) : ∃ w i j, s.Origin n x w i j := by
  induction n with
  | zero => cases hx
  | succ n ih =>
    have extend (older : x ∈ (s.state n).cache.entries) (quiet : ¬s.Outdates n x.key x.value) :
        ∃ w i j, s.Origin (n + 1) x w i j := by
      obtain ⟨w, i, j, origin⟩ := ih older
      refine ⟨w, i, j, origin.compiles, Nat.lt_succ_of_lt origin.before, ?_, ?_⟩
      · intro m after upTo
        by_cases last : m = n + 1
        · exact last ▸ hx
        · exact origin.kept m after (by omega)
      · intro m after upTo
        by_cases last : m = n
        · exact last ▸ quiet
        · exact origin.fresh m after (by omega)
    cases e : s.event n with
    | none =>
      refine extend (by rwa [state_succ_of_none e] at hx) ?_
      simp [Outdates, invalidated, Clears, e]
    | some a =>
      have stepped := hx
      rw [state_succ_of_some e] at stepped
      rcases (s.sound n).mem_of_step stepped with
        ⟨w, ticket, rfl, compiles, key, current⟩ | ⟨older, own, clears, independent⟩
      · obtain ⟨i, earlier, begins, same⟩ := begins_of_ticket? compiles
        rw [key] at begins same
        have done : s.Compiles w x.key x.value i n := ⟨begins, earlier, by rw [compiles]; rfl, e⟩
        refine ⟨w, i, n, done, Nat.lt_succ_self n, ?_, ?_⟩
        · intro m after upTo
          obtain rfl : m = n + 1 := by omega
          exact hx
        · intro m after upTo
          rw [same] at current
          exact not_outdates_of_compiles done current after (by omega)
      · refine extend older ?_
        rintro (listed | cleared | ⟨d, depends, changed⟩)
        · simp only [invalidated, e] at listed
          exact own listed
        · rw [Clears, e] at cleared
          exact clears (Option.some.inj cleared)
        · rw [e] at changed
          have free := independent d (Option.some.inj changed)
          rw [depends] at free
          cases free

private theorem compiles_of_received (calls : s.Calls c u k) (ends : s.event n = some (.finish u (.ok v)))
    {ticket : Ticket} (compiles : (s.state n).ticket? u = some ticket) : ∃ i, c < i ∧ s.Compiles u k v i n := by
  obtain ⟨i, earlier, begins, -⟩ := begins_of_ticket? compiles
  obtain ⟨m, before, called⟩ := called_of_begins begins
  obtain ⟨rfl, same⟩ := calls_unique calls called
  rw [← same] at begins
  exact ⟨i, before, begins, earlier, by rw [compiles]; rfl, ends⟩

private theorem key_of_received {q : Key} (calls : s.Calls c u k)
    (by_call_or_turn : s.event n = some (.call q) ∧ u = (s.state n).next ∨
      ∃ p, s.event n = some (.go u) ∧ (s.state n).caller? u = some ⟨u, q, p⟩) : c ≤ n ∧ q = k := by
  rcases by_call_or_turn with ⟨called, number⟩ | ⟨p, -, there⟩
  · obtain ⟨rfl, same⟩ := calls_unique calls ⟨called, number.symm⟩
    exact ⟨Nat.le_refl _, same.symm⟩
  · obtain ⟨m, earlier, called⟩ := called_of_caller? there
    obtain ⟨rfl, same⟩ := calls_unique calls called
    exact ⟨Nat.le_of_lt earlier, same.symm⟩

/-- Every value that a caller gets was compiled for its key. If the caller compiled it, it began to after its call. If
it comes from the cache, it has been there ever since the compile ended, and the compile began after everything that
could have outdated the value by then. In either case it began after all of that which came before the call. -/
theorem received_value_is_fresh (calls : s.Calls c u k) (receives : s.Receives n u (.value v compiled)) :
    ∃ w i j, s.Compiles w k v i j ∧
      (compiled = true → w = u ∧ j = n ∧ c < i) ∧
      (compiled = false → j < n ∧ (∀ m, j < m → m ≤ n → (s.state m).cache.lookup? k = some v) ∧
        ∀ m < n, s.Outdates m k v → m < i) ∧
      ∀ m < c, s.Outdates m k v → m < i := by
  obtain ⟨before, after⟩ := receives
  cases e : s.event n with
  | none =>
    rw [state_succ_of_none e, before] at after
    cases after
  | some a =>
    rw [state_succ_of_some e] at after
    rcases Traffic.value_of_step (Traffic.outcomes_of_received before after) with
      ⟨rfl, rfl, ticket, compiles⟩ | ⟨rfl, q, found, by_call_or_turn⟩
    · obtain ⟨i, later, done⟩ := compiles_of_received calls e compiles
      exact ⟨u, i, n, done, fun _ => ⟨rfl, rfl, later⟩, nofun, fun m earlier _ => by omega⟩
    · obtain ⟨upTo, rfl⟩ : c ≤ n ∧ q = k := key_of_received calls (by
        rcases by_call_or_turn with ⟨rfl, number⟩ | ⟨p, rfl, there⟩
        · exact .inl ⟨e, number⟩
        · exact .inr ⟨p, e, there⟩)
      obtain ⟨w, i, j, origin⟩ := origin_of_mem ((s.sound n).cache.mem_of_lookup? found)
      have fresh : ∀ m < n, s.Outdates m q v → m < i := by
        intro m earlier outdates
        by_contra late
        exact origin.fresh m (by omega) earlier outdates
      refine ⟨w, i, j, origin.compiles, nofun, fun _ => ⟨origin.before, ?_, fresh⟩, ?_⟩
      · intro m after upTo
        exact (s.sound m).cache.lookup?_of_mem (origin.kept m after upTo)
      · exact fun m earlier => fresh m (by omega)

theorem reload_serves_second_compile :
    reload.Calls 8 2 ⟨"page"⟩ ∧ reload.Receives 8 2 (.value [⟨"part"⟩] false) ∧
      ∃ w i j, reload.Compiles w ⟨"page"⟩ [⟨"part"⟩] i j ∧ 2 < i ∧ j < 8 := by
  have calls : reload.Calls 8 2 ⟨"page"⟩ := ⟨rfl, rfl⟩
  have receives : reload.Receives 8 2 (.value [⟨"part"⟩] false) := ⟨rfl, rfl⟩
  obtain ⟨w, i, j, compiles, -, cached, -⟩ := received_value_is_fresh calls receives
  obtain ⟨before, -, fresh⟩ := cached rfl
  have changed : reload.Outdates 2 ⟨"page"⟩ [⟨"part"⟩] := .inr (.inr ⟨⟨"part"⟩, rfl, rfl⟩)
  exact ⟨calls, receives, w, i, j, compiles, fresh 2 (by decide) changed, before⟩

end Pageweave.Cache.Schedule
