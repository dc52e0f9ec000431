import Pageweave.Cache.Traffic
/-!
# What an event does to the callers

Every event is one of a few moves: a caller gets an outcome, begins to ask, to wait or to compile, and a turn that ends
is passed on. A move says what was the case before it and gives the state after it.
-/
namespace Pageweave.Cache.Traffic

variable {ε α : Type} {t : Traffic ε α} {k : Key} {m n : Nat} {v : α} {c : Caller} {o : Outcome ε α}

theorem mem_of_caller? (h : t.caller? n = some c) : c ∈ t.callers ∧ c.number = n :=
  ⟨List.mem_of_find?_eq_some h, by simpa using List.find?_some h⟩

theorem mem_leave : c ∈ (t.leave n).callers ↔ c ∈ t.callers ∧ c.number ≠ n := by
  simp [leave]

theorem mem_enter {d : Caller} : c ∈ (t.enter d).callers ↔ c = d ∨ c ∈ t.callers ∧ c.number ≠ d.number := by
  simp only [enter, List.mem_append, List.mem_singleton, mem_leave]
  exact or_comm

theorem mem_settle : c ∈ (t.settle n o).callers ↔ c ∈ t.callers ∧ c.number ≠ n := mem_leave

@[simp] theorem caller?_leave : (t.leave m).caller? n = if n = m then none else t.caller? n := by
  unfold caller? leave
  rw [List.find?_filter]
  split
  · rename_i same
    subst same
    simp
  · rename_i other
    congr 1
    funext c
    by_cases there : c.number = n
    · simp [there, other]
    · simp [there]

@[simp] theorem caller?_enter : (t.enter c).caller? n = if n = c.number then some c else t.caller? n := by
  have left : (t.leave c.number).callers.find? (fun d => d.number == n) =
      if n = c.number then none else t.caller? n := caller?_leave
  simp only [caller?, enter, List.find?_append, left]
  split
  · rename_i same
    simp [same]
  · rename_i other
    simp [Ne.symm other]

@[simp] theorem caller?_settle : (t.settle m o).caller? n = if n = m then none else t.caller? n := caller?_leave

theorem mem_of_longestWaiting? (h : t.longestWaiting? k = some c) :
    c ∈ t.callers ∧ c.key = k ∧ c.phase = .waiting := by
  unfold longestWaiting? at h
  have here := List.find?_some h
  rw [Bool.and_eq_true, beq_iff_eq, beq_iff_eq] at here
  exact ⟨List.mem_of_find?_eq_some h, here⟩

theorem longestWaiting?_eq_none_iff :
    t.longestWaiting? k = none ↔ ∀ c ∈ t.callers, c.key = k → c.phase ≠ .waiting := by
  simp [longestWaiting?, List.find?_eq_none]

theorem isBusy_iff : t.isBusy k = true ↔ ∃ c ∈ t.callers, c.key = k ∧ c.phase.hasTurn = true := by
  simp [isBusy, List.any_eq_true]

theorem ticket?_eq_some_iff {ticket : Ticket} :
    t.ticket? n = some ticket ↔ ∃ c, t.caller? n = some c ∧ c.phase = .compiling ticket := by
  unfold ticket? phase?
  cases t.caller? n with
  | none => simp
  | some c => cases phase : c.phase <;> simp [Phase.ticket?, phase]

theorem isWaiting_iff : t.isWaiting n = true ↔ ∃ c, t.caller? n = some c ∧ c.phase = .waiting := by
  unfold isWaiting phase?
  cases t.caller? n with
  | none => simp
  | some c => simp

theorem passOn_eq : ∃ callers, t.passOn k = { t with callers } := by
  unfold passOn
  split
  · exact ⟨_, rfl⟩
  · exact ⟨_, rfl⟩

@[simp] theorem cache_passOn : (t.passOn k).cache = t.cache := by
  obtain ⟨callers, same⟩ := passOn_eq (t := t) (k := k)
  rw [same]

@[simp] theorem outcomes_passOn : (t.passOn k).outcomes = t.outcomes := by
  obtain ⟨callers, same⟩ := passOn_eq (t := t) (k := k)
  rw [same]

@[simp] theorem next_passOn : (t.passOn k).next = t.next := by
  obtain ⟨callers, same⟩ := passOn_eq (t := t) (k := k)
  rw [same]

theorem passOn_withCache (cache : Cache α) : Traffic.passOn { t with cache } k = { t.passOn k with cache } := by
  have same : longestWaiting? { t with cache } k = t.longestWaiting? k := rfl
  unfold passOn
  rw [same]
  cases t.longestWaiting? k with
  | none => rfl
  | some c => rfl

theorem settle_passOn_withCache (cache : Cache α) :
    (Traffic.settle { t with cache } n o).passOn k = { (t.settle n o).passOn k with cache } :=
  passOn_withCache (t := t.settle n o) cache

theorem mem_passOn (h : c ∈ (t.passOn k).callers) :
    c ∈ t.callers ∨ ∃ d, t.longestWaiting? k = some d ∧ c = { d with phase := .woken } := by
  unfold passOn at h
  split at h
  · rename_i d longest
    rcases mem_enter.mp h with rfl | ⟨older, -⟩
    · exact .inr ⟨d, longest, rfl⟩
    · exact .inl older
  · exact .inl h

variable [Dependent α]

/-- From `t` an event leads to the state at the end, in one of these ways. -/
inductive Move (t : Traffic ε α) : Event ε α → Traffic ε α → Prop where
  | look {k : Key} {v : α} (found : t.cache.lookup? k = some v) :
    Move t (.call k) { t.settle t.next (.value v false) with cache := t.cache.countHit, next := t.next + 1 }
  | ask {k : Key} (missed : t.cache.lookup? k = none) :
    Move t (.call k) { t.enter ⟨t.next, k, .asking⟩ with next := t.next + 1 }
  | wait {n : Nat} {k : Key} (there : t.caller? n = some ⟨n, k, .asking⟩) (busy : t.isBusy k = true) :
    Move t (.go n) (t.enter ⟨n, k, .waiting⟩)
  | take {n : Nat} {k : Key} {p : Phase} {v : α} (there : t.caller? n = some ⟨n, k, p⟩) (ready : p.isReady = true)
      (free : p = .asking → t.isBusy k = false) (found : t.cache.lookup? k = some v) :
    Move t (.go n) { (t.settle n (.value v false)).passOn k with cache := t.cache.countHit }
  | begin {n : Nat} {k : Key} {p : Phase} (there : t.caller? n = some ⟨n, k, p⟩) (ready : p.isReady = true)
      (free : p = .asking → t.isBusy k = false) (missed : t.cache.lookup? k = none) :
    Move t (.go n) { t.enter ⟨n, k, .compiling (t.cache.begin k).1⟩ with cache := (t.cache.begin k).2 }
  | finish {n : Nat} {k : Key} {ticket : Ticket} (v : α) (there : t.caller? n = some ⟨n, k, .compiling ticket⟩) :
    Move t (.finish n (.ok v))
      { (t.settle n (.value v true)).passOn ticket.key with cache := t.cache.finish ticket v }
  | fail {n : Nat} {k : Key} {ticket : Ticket} (e : ε) (there : t.caller? n = some ⟨n, k, .compiling ticket⟩) :
    Move t (.finish n (.error e)) ((t.settle n (.failed e)).passOn ticket.key)
  | drop {c : Caller} (there : t.caller? c.number = some c) (turn : c.phase.hasTurn = true) :
    Move t (.cancel c.number) ((t.settle c.number .cancelled).passOn c.key)
  | giveUp {c : Caller} (there : t.caller? c.number = some c) (turn : c.phase.hasTurn = false) :
    Move t (.cancel c.number) (t.settle c.number .cancelled)
  | still {n : Nat} (stuck : ∀ c, t.caller? n = some c → c.phase.isReady = false) : Move t (.go n) t
  | idle {n : Nat} (result : Except ε α) (idles : t.ticket? n = none) : Move t (.finish n result) t
  | gone {n : Nat} (absent : t.caller? n = none) : Move t (.cancel n) t
  | invalidate (k : Key) : Move t (.invalidate k) { t with cache := t.cache.invalidate k }
  | invalidateDependents (k : Key) :
    Move t (.invalidateDependents k) { t with cache := t.cache.invalidateDependents k }
  | change (k : Key) : Move t (.change k) { t with cache := t.cache.change k }
  | clear : Move t .clear { t with cache := t.cache.clear }

private theorem move_call (t : Traffic ε α) (k : Key) : Move t (.call k) (t.call k) := by
  unfold call
  split
  · rename_i found
    exact .look found
  · rename_i missed
    exact .ask missed

private theorem move_serve {p : Phase} (there : t.caller? n = some ⟨n, k, p⟩) (ready : p.isReady = true)
    (free : p = .asking → t.isBusy k = false) : Move t (.go n) (t.serve n k) := by
  unfold serve
  split
  · rename_i found
    rw [hit, settle_passOn_withCache]
    exact .take there ready free found
  · rename_i missed
    exact .begin there ready free missed

private theorem move_go (t : Traffic ε α) (n : Nat) : Move t (.go n) (t.go n) := by
  unfold go
  split
  · rename_i m k there
    obtain rfl : m = n := (mem_of_caller? there).2
    split
    · rename_i busy
      exact .wait there busy
    · rename_i free
      exact move_serve there rfl fun _ => by simpa using free
  · rename_i m k there
    obtain rfl : m = n := (mem_of_caller? there).2
    exact move_serve there rfl fun asks => by cases asks
  · rename_i not_asking not_woken
    refine .still ?_
    rintro ⟨m, k, p⟩ there
    cases p with
    | asking => exact absurd there (not_asking m k)
    | woken => exact absurd there (not_woken m k)
    | waiting => rfl
    | compiling _ => rfl

private theorem move_finish (t : Traffic ε α) (n : Nat) (result : Except ε α) :
    Move t (.finish n result) (t.finish n result) := by
  unfold finish
  split
  · rename_i idles
    exact .idle result idles
  · rename_i ticket compiles
    obtain ⟨⟨m, k, p⟩, there, rfl⟩ := ticket?_eq_some_iff.mp compiles
    obtain rfl : m = n := (mem_of_caller? there).2
    cases result with
    | ok v =>
      simp only [settle_passOn_withCache]
      exact .finish v there
    | error e => exact .fail e there

private theorem move_cancel (t : Traffic ε α) (n : Nat) : Move t (.cancel n) (t.cancel n) := by
  unfold cancel
  split
  · rename_i absent
    exact .gone absent
  · rename_i c there
    obtain rfl : c.number = n := (mem_of_caller? there).2
    split
    · rename_i turn
      exact .drop there turn
    · rename_i turn
      exact .giveUp there (by simpa using turn)

theorem move_step (t : Traffic ε α) (e : Event ε α) : Move t e (t.step e) := by
  cases e with
  | call k => exact move_call t k
  | go n => exact move_go t n
  | finish n result => exact move_finish t n result
  | cancel n => exact move_cancel t n
  | invalidate k => exact .invalidate k
  | invalidateDependents k => exact .invalidateDependents k
  | change k => exact .change k
  | clear => exact .clear

end Pageweave.Cache.Traffic
