import Pageweave.Proofs.Cache.Queue
import Pageweave.Proofs.Cache.Storing
/-!
# One compile for many callers

Of the callers of a key one compiles at a time. Whoever waits is given the turn in the order of waiting, and gets the
value that is there by then or compiles in its turn. So as long as a stored value is not taken out again there is no
second compile, and everybody who came before the end of the first gets its value.
-/
namespace Pageweave.Cache.Schedule

variable {ε α : Type} [Dependent α] {s : Schedule ε α} {m n i j u w x : Nat} {k : Key} {v : α} {c d : Caller}
  {o : Outcome ε α} {ticket : Ticket}

private theorem exists_last {P : Nat → Prop} (h : i ≤ j) (first : P i) (last : ¬P j) :
    ∃ m, i ≤ m ∧ m < j ∧ P m ∧ ¬P (m + 1) := by
  induction h with
  | refl => exact absurd first last
  | @step j h ih =>
    by_cases here : P j
    · exact ⟨j, h, Nat.lt_succ_self j, here, last⟩
    · obtain ⟨m, after, before, holds, ends⟩ := ih here
      exact ⟨m, after, by omega, holds, ends⟩

theorem eq_of_ticket? {ticket' : Ticket} (h : (s.state n).ticket? u = some ticket)
    (h' : (s.state n).ticket? w = some ticket') (key : ticket.key = ticket'.key) : u = w := by
  obtain ⟨c, thereC, compilesC⟩ := Traffic.ticket?_eq_some_iff.mp h
  obtain ⟨d, thereD, compilesD⟩ := Traffic.ticket?_eq_some_iff.mp h'
  obtain ⟨hc, rfl⟩ := Traffic.mem_of_caller? thereC
  obtain ⟨hd, rfl⟩ := Traffic.mem_of_caller? thereD
  have same := (s.sound n).turn c hc d hd (by
    rw [← ((s.sound n).compiling c hc _ compilesC).1, key, ((s.sound n).compiling d hd _ compilesD).1])
    (by rw [compilesC]; rfl) (by rw [compilesD]; rfl)
  rw [same]

theorem lookup?_of_le (found : (s.state m).cache.lookup? k = some v) (h : m ≤ n)
    (kept : ∀ l, m ≤ l → l < n → ∀ e, s.event l = some e → ¬e.Removes k v) :
    (s.state n).cache.lookup? k = some v := by
  induction h with
  | refl => exact found
  | @step n after ih =>
    have here := ih fun l from_m before => kept l from_m (by omega)
    cases e : s.event n with
    | none => rwa [state_succ_of_none e]
    | some a =>
      have stored := (s.sound n).cache.mem_of_lookup? here
      rcases (s.sound n).mem_step (e := a) stored with still | removed
      · have later := (s.sound (n + 1)).cache.lookup?_of_mem (by rw [state_succ_of_some e]; exact still)
        exact later
      · exact absurd removed (kept n after (Nat.lt_succ_self n) a e)

theorem there_or_outcome? (calls : s.Calls m u k) (h : m < n) :
    (∃ c, (s.state n).caller? u = some c ∧ c.key = k) ∨ ∃ o, (s.state n).outcome? u = some o := by
  induction h with
  | refl =>
    obtain ⟨called, rfl⟩ := calls
    rw [state_succ_of_some called]
    cases found : (s.state m).cache.lookup? k with
    | none => exact .inl ⟨_, Traffic.caller?_call found, rfl⟩
    | some v => exact .inr ⟨_, (s.sound m).outcome?_call found⟩
  | @step n _ ih =>
    cases e : s.event n with
    | none => rwa [state_succ_of_none e]
    | some _ =>
      rw [state_succ_of_some e]
      rcases ih with ⟨c, there, rfl⟩ | ⟨o, got⟩
      · rcases (s.sound n).caller?_or_outcome? there with ⟨d, still, key⟩ | ⟨o, got, -⟩
        · exact .inl ⟨d, still, key⟩
        · exact .inr ⟨o, got⟩
      · exact .inr ⟨o, Traffic.outcome?_step got⟩

private theorem not_waiting_of_asking (asks : (s.state n).caller? u = some ⟨u, k, .asking⟩) (h : m ≤ n) :
    (s.state m).isWaiting u ≠ true := by
  induction n with
  | zero => cases asks
  | succ n ih =>
    intro waits
    by_cases last : m = n + 1
    · subst last
      obtain ⟨c, there, phase⟩ := Traffic.isWaiting_iff.mp waits
      rw [asks] at there
      cases there
      cases phase
    have upTo : m ≤ n := by omega
    cases e : s.event n with
    | none =>
      rw [state_succ_of_none e] at asks
      exact ih asks upTo waits
    | some _ =>
      rw [state_succ_of_some e] at asks
      rcases (s.sound n).caller?_of_step asks with ⟨-, number, -⟩ | ⟨d, before, advance⟩
      · obtain ⟨c, there, -⟩ := Traffic.isWaiting_iff.mp waits
        have known := (s.sound m).lt_next there
        have grown := s.next_mono upTo
        omega
      · generalize asking : (⟨u, k, .asking⟩ : Caller) = c at advance
        cases advance with
        | stay =>
          subst asking
          exact ih before upTo waits
        | wake _ _ => cases asking
        | wait _ _ _ => cases asking
        | begin _ _ _ _ _ _ => cases asking

private theorem isWaiting_of_precedes (ahead : (s.state n).Precedes d c) (waitsD : d.phase = .waiting)
    (waitsC : c.phase = .waiting) (h : m ≤ n) (waited : (s.state m).isWaiting c.number = true) :
    (s.state m).isWaiting d.number = true := by
  induction n with
  | zero => cases ahead
  | succ n ih =>
    by_cases last : m = n + 1
    · subst last
      have hd : d ∈ (s.state (n + 1)).callers := ahead.subset (by simp)
      exact Traffic.isWaiting_iff.mpr ⟨d, (s.sound (n + 1)).caller?_of_mem hd, waitsD⟩
    have upTo : m ≤ n := by omega
    cases e : s.event n with
    | none =>
      rw [state_succ_of_none e] at ahead
      exact ih ahead upTo
    | some _ =>
      rw [state_succ_of_some e] at ahead
      rcases Traffic.precedes_of_step ahead waitsC with before | asks
      · exact ih before upTo
      · exact absurd waited (not_waiting_of_asking asks upTo)

/-- Who was woken for a key: it alone has the turn, and when it goes on it gets the value that is there or compiles. -/
structure Woken (s : Schedule ε α) (n u : Nat) (k : Key) : Prop where
  there : (s.state n).caller? u = some ⟨u, k, .woken⟩
  alone : ∀ w p, (s.state n).caller? w = some ⟨w, k, p⟩ → p.hasTurn = true → w = u
  hit : ∀ v, s.event n = some (.go u) → (s.state n).cache.lookup? k = some v → s.Receives n u (.value v false)
  miss : s.event n = some (.go u) → (s.state n).cache.lookup? k = none → s.Begins n u k

private theorem woken_of_there (there : (s.state n).caller? u = some ⟨u, k, .woken⟩) : s.Woken n u k where
  there := there
  alone w p holder turn := by
    obtain ⟨hu, -⟩ := Traffic.mem_of_caller? there
    obtain ⟨hw, -⟩ := Traffic.mem_of_caller? holder
    exact congrArg Caller.number ((s.sound n).turn _ hw _ hu rfl turn rfl)
  hit v goes found := by
    have before := (s.sound n).outcome?_of_caller? there
    refine ⟨before, ?_⟩
    rw [state_succ_of_some goes]
    have more : ((s.state n).step (.go u)).outcomes = (s.state n).outcomes ++ [(u, .value v false)] := by
      simp only [Traffic.step, Traffic.go, there, Traffic.serve, found, Traffic.outcomes_passOn]
      rfl
    rw [Traffic.outcome?_append more, before]
    simp
  miss goes missed := by
    refine ⟨by simp [Traffic.ticket?, Traffic.phase?, there, Phase.ticket?], ((s.state n).cache.begin k).1, ?_, rfl⟩
    rw [state_succ_of_some goes]
    refine Traffic.ticket?_eq_some_iff.mpr ⟨⟨u, k, .compiling ((s.state n).cache.begin k).1⟩, ?_, rfl⟩
    simp only [Traffic.step, Traffic.go, there, Traffic.serve, missed]
    change ((s.state n).enter _).caller? u = _
    simp

private theorem there_of_woken (there : (s.state m).caller? u = some ⟨u, k, .woken⟩) (h : m ≤ n)
    (quiet : ∀ l, m ≤ l → l < n → s.event l ≠ some (.go u) ∧ s.event l ≠ some (.cancel u)) :
    (s.state n).caller? u = some ⟨u, k, .woken⟩ := by
  induction h with
  | refl => exact there
  | @step n after ih =>
    have here := ih fun l from_m before => quiet l from_m (by omega)
    obtain ⟨goes, cancels⟩ := quiet n after (Nat.lt_succ_self n)
    cases e : s.event n with
    | none => rwa [state_succ_of_none e]
    | some a =>
      rw [state_succ_of_some e]
      refine (s.sound n).woken_step here rfl ?_ ?_
      · rintro rfl
        exact goes e
      · rintro rfl
        exact cancels e

/-- A second compile of a key begins only after the first ended, and only if its value was not stored or not kept. -/
private theorem gone_between_begins (first : s.Begins i w k) (second : s.Begins j x k) (order : i < j) :
    ∃ n, i < n ∧ n < j ∧ ((∃ e, s.event n = some (.finish w (.error e))) ∨ s.event n = some (.cancel w) ∨
      ∃ v, s.Compiles w k v i n ∧ ((s.state (n + 1)).cache.lookup? k ≠ some v ∨
        ∃ m e, n < m ∧ m < j ∧ s.event m = some e ∧ e.Removes k v ∧ (s.state m).cache.lookup? k = some v)) := by
  obtain ⟨begun, -, -⟩ := ticket?_of_begins first
  obtain ⟨begunX, missed, goes⟩ := ticket?_of_begins second
  have gone : (s.state j).ticket? w ≠ some ((s.state i).cache.begin k).1 := by
    intro compiles
    rcases (s.sound j).ticket?_step (e := .go x) compiles with
      still | ⟨-, o, -, ⟨v, ends, -⟩ | ⟨e, ends, -⟩ | ⟨ends, -⟩⟩
    · rw [← state_succ_of_some goes] at still
      obtain rfl := eq_of_ticket? still begunX rfl
      rw [second.1] at compiles
      cases compiles
    · cases ends
    · cases ends
    · cases ends
  obtain ⟨n, after, before, compiles, ended⟩ := exists_last
    (P := fun n => (s.state n).ticket? w = some ((s.state i).cache.begin k).1) order begun gone
  refine ⟨n, after, before, ?_⟩
  cases e : s.event n with
  | none =>
    rw [state_succ_of_none e] at ended
    exact absurd compiles ended
  | some a =>
    rw [state_succ_of_some e] at ended
    rcases (s.sound n).ticket?_step (e := a) compiles with still | ⟨-, o, -, ⟨v, rfl, -⟩ | ⟨x, rfl, -⟩ | ⟨rfl, -⟩⟩
    · exact absurd still ended
    · refine .inr (.inr ⟨v, ⟨first, after, by rw [compiles]; rfl, e⟩, ?_⟩)
      by_cases stored : (s.state (n + 1)).cache.lookup? k = some v
      · right
        obtain ⟨m, from_end, earlier, found, lost⟩ := exists_last
          (P := fun m => (s.state m).cache.lookup? k = some v) before stored (by simp [missed])
        cases happens : s.event m with
        | none =>
          rw [state_succ_of_none happens] at lost
          exact absurd found lost
        | some b =>
          refine ⟨m, b, from_end, earlier, happens, ?_, found⟩
          by_contra stays
          refine lost (lookup?_of_le found (Nat.le_succ m) fun l from_m upTo c same => ?_)
          obtain rfl : l = m := by omega
          rw [happens] at same
          cases same
          exact stays
      · exact .inl stored
    · exact .inl ⟨x, rfl⟩
    · exact .inr (.inl rfl)

/-- A compile for `k` whose value is stored and not taken out before `n`. -/
structure Lasting (s : Schedule ε α) (w : Nat) (k : Key) (v : α) (i j n : Nat) : Prop where
  compiles : s.Compiles w k v i j
  stored : (s.state (j + 1)).cache.lookup? k = some v
  before : j < n
  kept : ∀ m, j < m → m < n → ∀ e, s.event m = some e → ¬e.Removes k v

private theorem Lasting.lookup? (h : s.Lasting w k v i j n) (after : j < m) (upTo : m ≤ n) :
    (s.state m).cache.lookup? k = some v :=
  lookup?_of_le h.stored after fun l from_j earlier => h.kept l from_j (by omega)

private theorem Lasting.eq_of_ticket? (h : s.Lasting w k v i j n) (after : i < m) (upTo : m ≤ n)
    (compiles : (s.state m).ticket? x = some ticket) (key : ticket.key = k) : x = w := by
  by_cases during : m ≤ j
  · exact Schedule.eq_of_ticket? compiles (h.compiles.ticket?_of_le after during) key
  · have missed := lookup?_of_ticket? compiles
    rw [key, h.lookup? (by omega) upTo] at missed
    cases missed

private theorem Lasting.not_begins (h : s.Lasting w k v i j n) (after : i < m) (earlier : m < n) :
    ¬s.Begins m x k := by
  intro begins
  obtain ⟨begun, missed, -⟩ := ticket?_of_begins begins
  obtain rfl := h.eq_of_ticket? (Nat.lt_succ_of_lt after) earlier begun rfl
  by_cases during : m ≤ j
  · have compiles := h.compiles.ticket?_of_le after during
    rw [begins.1] at compiles
    cases compiles
  · rw [h.lookup? (by omega) (Nat.le_of_lt earlier)] at missed
    cases missed

private theorem Lasting.there (h : s.Lasting w k v i j n) (calls : s.Calls m u k) (came : m < j)
    (unserved : (s.state (i + 1)).outcome? u = none) :
    ∃ l, i < l ∧ l ≤ j ∧ ∃ c, (s.state l).caller? u = some c ∧ c.key = k := by
  by_cases earlier : m ≤ i
  · rcases there_or_outcome? calls (Nat.lt_succ_of_le earlier) with there | ⟨o, got⟩
    · exact ⟨i + 1, Nat.lt_succ_self i, h.compiles.before, there⟩
    · rw [unserved] at got
      cases got
  · have during : i < m := by omega
    have missed := lookup?_of_ticket? (h.compiles.ticket?_of_le during (Nat.le_of_lt came))
    obtain ⟨called, rfl⟩ := calls
    refine ⟨m + 1, Nat.lt_succ_of_lt during, came, ⟨(s.state m).next, k, .asking⟩, ?_, rfl⟩
    rw [state_succ_of_some called]
    exact Traffic.caller?_call missed

private theorem Lasting.there_or_outcome? {l q : Nat} (h : s.Lasting w k v i j n) (after : i < l)
    (there : ∃ c, (s.state l).caller? u = some c ∧ c.key = k) (other : u ≠ w)
    (stays : ∀ m < n, s.event m ≠ some (.cancel u)) (from_l : l ≤ q) (upTo : q ≤ n) :
    (∃ c, (s.state q).caller? u = some c ∧ c.key = k) ∨ (s.state q).outcome? u = some (.value v false) := by
  induction from_l with
  | refl => exact .inl there
  | @step q from_l ih =>
    have here := ih (by omega)
    have later : i < q := Nat.lt_of_lt_of_le after from_l
    cases e : s.event q with
    | none => rwa [state_succ_of_none e]
    | some a =>
      rw [state_succ_of_some e]
      rcases here with ⟨c, present, rfl⟩ | got
      · rcases (s.sound q).caller?_or_outcome? (e := a) present with
          ⟨d, still, key⟩ | ⟨o, got, rfl | ⟨v', found, rfl⟩ | ⟨ticket, compiles, -⟩⟩
        · exact .inl ⟨d, still, key⟩
        · exact absurd e (stays q (by omega))
        · right
          by_cases during : q ≤ j
          · have missed := lookup?_of_ticket? (h.compiles.ticket?_of_le (by omega) during)
            change (s.state q).cache.lookup? c.key = none at missed
            rw [missed] at found
            cases found
          · rw [h.lookup? (by omega) (by omega)] at found
            cases found
            exact got
        · obtain ⟨d, actor, phase⟩ := Traffic.ticket?_eq_some_iff.mp compiles
          obtain rfl : d = c := Option.some.inj (actor.symm.trans present)
          have key := ((s.sound q).compiling d (Traffic.mem_of_caller? present).1 ticket phase).1
          exact absurd (h.eq_of_ticket? (by omega) (by omega) compiles key) other
      · exact .inr (Traffic.outcome?_step got)

private theorem Lasting.outcome? (h : s.Lasting w k v i j n) (calls : s.Calls m u k) (came : m < j)
    (unserved : (s.state (i + 1)).outcome? u = none) (stays : ∀ m < n, s.event m ≠ some (.cancel u))
    (resting : (s.state n).ready? = none) : (s.state n).outcome? u = some (.value v (decide (u = w))) := by
  by_cases own : u = w
  · subst own
    rw [decide_eq_true rfl]
    exact outcome?_mono h.compiles.receives.2 h.before
  · rw [decide_eq_false own]
    obtain ⟨l, after, upTo, there⟩ := h.there calls came unserved
    have before := h.before
    have found := h.lookup? before (Nat.le_refl n)
    rcases h.there_or_outcome? after there own stays (by omega) (Nat.le_refl n) with ⟨⟨x, _, p⟩, present, rfl⟩ | got
    · obtain ⟨hx, rfl⟩ : _ ∧ x = u := Traffic.mem_of_caller? present
      have stuck := Traffic.ready?_eq_none_iff.mp resting _ hx
      cases p with
      | asking => cases stuck
      | woken => cases stuck
      | waiting =>
        obtain ⟨y, ticket, -, compiles, rfl⟩ := (s.sound n).compiles_of_waiting resting present
        rw [lookup?_of_ticket? compiles] at found
        cases found
      | compiling ticket =>
        have missed := ((s.sound n).compiling _ hx ticket rfl).2
        rw [found] at missed
        cases missed
    · exact got

/-- What the callers of a schedule can rely on. -/
structure CompilesOnce (s : Schedule ε α) : Prop where
  /-- Two callers that compile for one key are the same. -/
  alone : ∀ n u w a b, (s.state n).ticket? u = some a → (s.state n).ticket? w = some b → a.key = b.key → u = w
  /-- Callers who go on as long as they can come to rest. Then whoever waits for a key waits for one who compiles it. -/
  rests : ∀ n, ∃ goes : List Nat, (s.state n).rest = (s.state n).run (goes.map .go) ∧
    (s.state n).rest.ready? = none ∧
    ∀ u k, (s.state n).rest.caller? u = some ⟨u, k, .waiting⟩ →
      ∃ w ticket, w ≠ u ∧ (s.state n).rest.ticket? w = some ticket ∧ ticket.key = k
  /-- At any moment whoever waits for a key waits for somebody who has the turn of this key, and for somebody who
  compiles it if nobody can go on. -/
  waits : ∀ n u k, (s.state n).caller? u = some ⟨u, k, .waiting⟩ →
    (∃ w p, w ≠ u ∧ (s.state n).caller? w = some ⟨w, k, p⟩ ∧ p.hasTurn = true) ∧
    ((s.state n).ready? = none → ∃ w ticket, w ≠ u ∧ (s.state n).ticket? w = some ticket ∧ ticket.key = k)
  /-- When whoever has a turn gets an outcome, of any kind, while somebody waits for the turn, the one who has waited
  longest is woken, and stays so until it goes on or is cancelled. -/
  next : ∀ n w c o u, (s.state n).caller? w = some c → c.phase.hasTurn = true → s.Receives n w o →
    (s.state n).caller? u = some ⟨u, c.key, .waiting⟩ →
    ∃ d, (s.state n).caller? d = some ⟨d, c.key, .waiting⟩ ∧
      (∀ x, (s.state n).caller? x = some ⟨x, c.key, .waiting⟩ →
        ∀ m ≤ n, (s.state m).isWaiting x = true → (s.state m).isWaiting d = true) ∧
      ∀ m, n < m → (∀ l, n < l → l < m → s.event l ≠ some (.go d) ∧ s.event l ≠ some (.cancel d)) →
        s.Woken m d c.key
  /-- A second compile of a key begins only after the first failed, was cancelled, or ended with a value that was not
  stored or was taken out again. -/
  again : ∀ i j w x k, s.Begins i w k → s.Begins j x k → i < j →
    ∃ n, i < n ∧ n < j ∧ ((∃ e, s.event n = some (.finish w (.error e))) ∨ s.event n = some (.cancel w) ∨
      ∃ v, s.Compiles w k v i n ∧ ((s.state (n + 1)).cache.lookup? k ≠ some v ∨
        ∃ m e, n < m ∧ m < j ∧ s.event m = some e ∧ e.Removes k v ∧ (s.state m).cache.lookup? k = some v))
  /-- While a stored value lasts there is no other compile. All who called before the end of its compile, were not
  served before it began and were not cancelled get this value, at the latest when nobody can go on. -/
  shared : ∀ w k v i j n, s.Lasting w k v i j n →
    (∀ m x, i < m → m < n → ¬s.Begins m x k) ∧
    ∀ m u, s.Calls m u k → m < j → (s.state (i + 1)).outcome? u = none → (∀ l < n, s.event l ≠ some (.cancel u)) →
      (s.state n).ready? = none → (s.state n).outcome? u = some (.value v (decide (u = w)))

private theorem somebody_has_turn (waits : (s.state n).caller? u = some ⟨u, k, .waiting⟩) :
    ∃ w p, w ≠ u ∧ (s.state n).caller? w = some ⟨w, k, p⟩ ∧ p.hasTurn = true := by
  obtain ⟨hu, -⟩ := Traffic.mem_of_caller? waits
  obtain ⟨⟨w, _, p⟩, hd, rfl, turn⟩ := Traffic.isBusy_iff.mp ((s.sound n).attended k _ hu rfl rfl)
  have there := (s.sound n).caller?_of_mem hd
  refine ⟨w, p, ?_, there, turn⟩
  rintro rfl
  rw [there] at waits
  cases waits
  cases turn

private theorem woken_after_turn (there : (s.state n).caller? w = some c) (turn : c.phase.hasTurn = true)
    (ends : s.Receives n w o) (waits : (s.state n).caller? u = some ⟨u, c.key, .waiting⟩) :
    ∃ d, (s.state n).caller? d = some ⟨d, c.key, .waiting⟩ ∧
      (∀ x, (s.state n).caller? x = some ⟨x, c.key, .waiting⟩ →
        ∀ m ≤ n, (s.state m).isWaiting x = true → (s.state m).isWaiting d = true) ∧
      ∀ m, n < m → (∀ l, n < l → l < m → s.event l ≠ some (.go d) ∧ s.event l ≠ some (.cancel d)) →
        s.Woken m d c.key := by
  obtain ⟨hu, -⟩ := Traffic.mem_of_caller? waits
  obtain ⟨d, longest⟩ : ∃ d, (s.state n).longestWaiting? c.key = some d := by
    cases nobody : (s.state n).longestWaiting? c.key with
    | none => exact absurd rfl (Traffic.longestWaiting?_eq_none_iff.mp nobody _ hu rfl)
    | some d => exact ⟨d, rfl⟩
  obtain ⟨hd, key, phase⟩ := Traffic.mem_of_longestWaiting? longest
  have same : d = ⟨d.number, c.key, .waiting⟩ := by rw [← key, ← phase]
  have thereD := (s.sound n).caller?_of_mem hd
  refine ⟨d.number, by rw [thereD, ← same], ?_, ?_⟩
  · intro x waitsX m upTo waited
    by_cases own : x = d.number
    · rwa [← own]
    obtain ⟨hx, -⟩ := Traffic.mem_of_caller? waitsX
    have ahead := Traffic.precedes_of_longestWaiting? longest hx rfl rfl (fun h => own (congrArg Caller.number h))
    exact isWaiting_of_precedes ahead phase rfl upTo waited
  · intro m after quiet
    have gone : (s.state (n + 1)).caller? w = none := by
      rw [Option.eq_none_iff_forall_ne_some]
      intro c' still
      have unserved := (s.sound (n + 1)).outcome?_of_caller? still
      rw [ends.2] at unserved
      cases unserved
    have woken : (s.state (n + 1)).caller? d.number = some ⟨d.number, c.key, .woken⟩ := by
      cases e : s.event n with
      | none =>
        rw [state_succ_of_none e, there] at gone
        cases gone
      | some a =>
        rw [state_succ_of_some e] at gone ⊢
        rw [(s.sound n).woken_of_turn there turn gone longest, same]
    exact woken_of_there (there_of_woken woken after fun l from_n before => quiet l from_n before)

/-- Of all callers of a key one compiles at a time, those who wait are served in order and nobody is left waiting, and a
key is compiled again only if its value was lost. -/
theorem compiles_once (s : Schedule ε α) : s.CompilesOnce where
  alone _ _ _ _ _ := eq_of_ticket?
  rests n := by
    obtain ⟨goes, same⟩ := (s.state n).rest_eq_run
    have sound : (s.state n).rest.Sound := same ▸ (s.sound n).run _
    have resting := (s.sound n).ready?_rest
    exact ⟨goes, same, resting, fun u k waits => sound.compiles_of_waiting resting waits⟩
  waits n u k waits := ⟨somebody_has_turn waits, fun resting => (s.sound n).compiles_of_waiting resting waits⟩
  next _ _ _ _ _ := woken_after_turn
  again _ _ _ _ _ := gone_between_begins
  shared w k v i j n lasting :=
    ⟨fun _ _ => lasting.not_begins, fun _ _ calls came unserved stays => lasting.outcome? calls came unserved stays⟩

end Pageweave.Cache.Schedule
