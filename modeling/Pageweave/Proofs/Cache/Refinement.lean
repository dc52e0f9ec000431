import Mathlib.Data.Finset.Dedup
import Pageweave.Proofs.Cache.PlainMap
import Pageweave.Proofs.Cache.Step
/-!
# The cache refines a plain map

Seen without tickets, every event does to the callers what it does to those around a plain map, and what can be looked
up is what the map has. What happened since a ticket was issued is what the map notes about the compile, so a value is
stored exactly if it is set.
-/
namespace Pageweave.Cache

variable {ε α : Type}

def Phase.stage : Phase → Stage
  | .asking => .asking
  | .waiting => .waiting
  | .woken => .woken
  | .compiling _ => .compiling

def Caller.plain (c : Caller) : PlainCaller := ⟨c.number, c.key, c.phase.stage⟩

/-- The callers without their tickets, around a map. -/
def Traffic.plain (t : Traffic ε α) (map : PlainMap α) (since : Nat → Meanwhile) : PlainTraffic ε α :=
  ⟨map, t.callers.map Caller.plain, since, t.outcomes, t.next, t.cache.stats⟩

theorem Phase.hasTurn_stage (p : Phase) : p.stage.hasTurn = p.hasTurn := by
  cases p <;> rfl

theorem Phase.stage_eq_waiting_iff (p : Phase) : p.stage = .waiting ↔ p = .waiting := by
  cases p <;> simp [Phase.stage]

namespace Traffic

variable {t : Traffic ε α} {map : PlainMap α} {since : Nat → Meanwhile} {n : Nat} {k : Key} {v : α} {o : Outcome ε α}

theorem caller?_plain : (t.plain map since).caller? n = (t.caller? n).map Caller.plain := by
  change (t.callers.map Caller.plain).find? _ = _
  rw [List.find?_map]
  rfl

theorem isBusy_plain : (t.plain map since).isBusy k = t.isBusy k := by
  change (t.callers.map Caller.plain).any _ = _
  rw [List.any_map]
  congr 1
  funext c
  simp [Caller.plain, Phase.hasTurn_stage]

theorem leave_plain (t : Traffic ε α) (map : PlainMap α) (since : Nat → Meanwhile) (n : Nat) :
    (t.plain map since).leave n = (t.leave n).plain map since := by
  have callers : (t.callers.map Caller.plain).filter (fun c => !(c.number == n)) =
      (t.callers.filter fun c => !(c.number == n)).map Caller.plain := by
    rw [List.filter_map]
    rfl
  simp [PlainTraffic.leave, leave, plain, callers]

theorem enter_plain (c : Caller) : (t.plain map since).enter c.plain = (t.enter c).plain map since := by
  have left : ((t.plain map since).leave c.number).callers = (t.leave c.number).callers.map Caller.plain := by
    rw [leave_plain]
    rfl
  unfold PlainTraffic.enter enter
  change { t.plain map since with callers := ((t.plain map since).leave c.number).callers ++ [c.plain] } = _
  rw [left]
  simp [plain]

theorem settle_plain : (t.plain map since).settle n o = (t.settle n o).plain map since := by
  unfold PlainTraffic.settle settle
  rw [leave_plain]
  rfl

theorem passOn_plain : (t.plain map since).passOn k = (t.passOn k).plain map since := by
  have longest : (t.plain map since).callers.find? (fun c => c.key == k && c.stage == .waiting) =
      (t.longestWaiting? k).map Caller.plain := by
    change (t.callers.map Caller.plain).find? _ = _
    rw [List.find?_map]
    congr 2
    funext c
    rw [Bool.eq_iff_iff]
    simp [Caller.plain, Phase.stage_eq_waiting_iff]
  unfold PlainTraffic.passOn passOn
  rw [longest]
  cases t.longestWaiting? k with
  | none => rfl
  | some c => exact enter_plain { c with phase := .woken }

theorem settle_passOn_plain :
    ((t.plain map since).settle n o).passOn k = ((t.settle n o).passOn k).plain map since := by
  rw [settle_plain, passOn_plain]

theorem go_plain {q : Phase} (there : t.caller? n = some ⟨n, k, q⟩) (ready : q.isReady = true)
    (free : q = .asking → t.isBusy k = false) : (t.plain map since).go n = (t.plain map since).serve n k := by
  unfold PlainTraffic.go
  rw [caller?_plain, there]
  cases q with
  | asking => simp [Caller.plain, Phase.stage, isBusy_plain, free rfl]
  | woken => rfl
  | waiting => cases ready
  | compiling _ => cases ready

/-! ## What the map and the notes stand for -/

/-- What happened to a cache since a ticket was issued. -/
def Since (c : Cache α) (ticket : Ticket) (m : Meanwhile) : Prop :=
  ∃ (before : Cache α) (k : Key) (ks : List Key), before.Sound ∧ ticket = (before.begin k).1 ∧
    Elapsed (before.begin k).2 c ks (m.cleared = true) ∧ (ks : Multiset Key) = m.forgotten

theorem Since.issued {c : Cache α} (sound : c.Sound) (k : Key) : Since (c.begin k).2 (c.begin k).1 {} :=
  ⟨c, k, [], sound, rfl, (elapsed_of_eq rfl rfl rfl).congr (by simp), rfl⟩

theorem Since.later {c d : Cache α} {ticket : Ticket} {m m' : Meanwhile} {ks : List Key} {cleared : Prop}
    (h : Since c ticket m) (elapsed : Elapsed c d ks cleared) (forgotten : m'.forgotten = m.forgotten + ks)
    (all : m'.cleared = true ↔ m.cleared = true ∨ cleared) : Since d ticket m' := by
  obtain ⟨before, k, old, sound, issued, then_on, same⟩ := h
  refine ⟨before, k, old ++ ks, sound, issued, (then_on.trans elapsed).congr all.symm, ?_⟩
  rw [forgotten, ← same, Multiset.coe_add]

/-- The criterion of the cache is that of the map. -/
theorem Since.isCurrent_iff [Dependent α] {c : Cache α} {ticket : Ticket} {m : Meanwhile} (h : Since c ticket m)
    (v : α) : c.isCurrent ticket v = true ↔ m.Spares ticket.key v := by
  obtain ⟨before, k, ks, sound, rfl, elapsed, same⟩ := h
  have key : (before.begin k).1.key = k := rfl
  rw [elapsed.isCurrent_iff sound, Meanwhile.Spares, ← same, key]
  simp [Log.capacity]

/-- The map has what can be looked up, and takes note of what every compile may have missed. -/
structure Matches (t : Traffic ε α) (map : PlainMap α) (since : Nat → Meanwhile) : Prop where
  sound : t.Sound
  lookup : ∀ k, t.cache.lookup? k = map.get? k
  since : ∀ n ticket, t.ticket? n = some ticket → Since t.cache ticket (since n)

theorem matches_empty : Matches ({} : Traffic ε α) .empty fun _ => {} where
  sound := sound_empty
  lookup _ := rfl
  since n ticket compiles := by cases compiles

theorem ticket?_enter (t : Traffic ε α) (c : Caller) (n : Nat) :
    (t.enter c).ticket? n = if n = c.number then c.phase.ticket? else t.ticket? n := by
  unfold ticket? phase?
  rw [caller?_enter]
  split
  · rfl
  · rfl

theorem ticket?_of_enter {c : Caller} {ticket : Ticket} (none_yet : c.phase.ticket? = none)
    (compiles : (t.enter c).ticket? n = some ticket) : t.ticket? n = some ticket := by
  rw [ticket?_enter] at compiles
  split at compiles
  · rw [none_yet] at compiles
    cases compiles
  · exact compiles

theorem ticket?_of_settle {m : Nat} {ticket : Ticket} (compiles : (t.settle m o).ticket? n = some ticket) :
    t.ticket? n = some ticket := by
  unfold ticket? phase? at compiles
  rw [caller?_settle] at compiles
  split at compiles
  · cases compiles
  · exact compiles

theorem ticket?_of_passOn {ticket : Ticket} (compiles : (t.passOn k).ticket? n = some ticket) :
    t.ticket? n = some ticket := by
  unfold passOn at compiles
  split at compiles
  · exact ticket?_of_enter (by rfl) compiles
  · exact compiles

/-! ## What is kept -/

theorem Matches.quiet {t' : Traffic ε α} (h : Matches t map since) (sound : t'.Sound)
    (elapsed : Elapsed t.cache t'.cache [] False) (lookup : ∀ k, t'.cache.lookup? k = t.cache.lookup? k)
    (tickets : ∀ n ticket, t'.ticket? n = some ticket → t.ticket? n = some ticket) : Matches t' map since where
  sound := sound
  lookup k := (lookup k).trans (h.lookup k)
  since n ticket compiles := (h.since n ticket (tickets n ticket compiles)).later elapsed (by simp) (by simp)

theorem Matches.passed (h : Matches t map since) (sound : ((t.settle n o).passOn k).Sound) :
    Matches ((t.settle n o).passOn k) map since := by
  have cache : ((t.settle n o).passOn k).cache = t.cache := cache_passOn
  apply h.quiet sound
  · rw [cache]
    exact elapsed_of_eq rfl rfl rfl
  · intro q
    rw [cache]
  · intro m ticket compiles
    exact ticket?_of_settle (ticket?_of_passOn compiles)

theorem lookup?_foldl_invalidate {c : Cache α} (sound : c.Sound) (ks : List Key) (q : Key) :
    (ks.foldl invalidate c).lookup? q = if q ∈ ks then none else c.lookup? q := by
  have after := sound_foldl_invalidate sound ks
  have epoch : (ks.foldl invalidate c).epoch = c.epoch := (elapsed_foldl_invalidate c ks).epoch.mpr not_false
  ext v
  rw [after.lookup?_eq_some_iff, mem_foldl_invalidate, epoch]
  by_cases gone : q ∈ ks
  · simp [gone]
  · simp [gone, sound.lookup?_eq_some_iff]

theorem Matches.forget (h : Matches t map since) {ks : List Key} (once : ks.Nodup) :
    (t.plain map since).forget ks.toFinset =
        Traffic.plain { t with cache := ks.foldl invalidate t.cache } (map.without ks.toFinset)
          (fun n => (since n).add ks.toFinset) ∧
      Matches { t with cache := ks.foldl invalidate t.cache } (map.without ks.toFinset)
        fun n => (since n).add ks.toFinset := by
  constructor
  · simp [PlainTraffic.forget, plain, stats_foldl_invalidate]
  · constructor
    · exact h.sound.withFewer (sound_foldl_invalidate h.sound.cache ks) fun e he => (mem_foldl_invalidate ks |>.mp he).1
    · intro q
      rw [lookup?_foldl_invalidate h.sound.cache, h.lookup, PlainMap.get?_without]
      simp
    · intro n ticket compiles
      have noted := h.since n ticket compiles
      apply noted.later (elapsed_foldl_invalidate t.cache ks)
      · simp [Meanwhile.add, List.toFinset_val, once.dedup]
      · simp [Meanwhile.add]

theorem Matches.invalidate (h : Matches t map since) (k : Key) :
    ∃ map' since', (t.plain map since).forget {k} =
        Traffic.plain { t with cache := t.cache.invalidate k } map' since' ∧
      Matches { t with cache := t.cache.invalidate k } map' since' :=
  ⟨_, _, h.forget (List.nodup_singleton k)⟩

theorem Matches.size (h : Matches t map since) : t.cache.size = map.keys.card := by
  have keys : (t.cache.entries.map Entry.key).toFinset = map.keys := by
    ext q
    rw [List.mem_toFinset, map.mem_keys, ← h.lookup, Option.isSome_iff_ne_none, ne_eq, h.sound.cache.lookup?_eq_none_iff]
    simp
  rw [← keys, List.toFinset_card_of_nodup h.sound.cache.keys, List.length_map]
  rfl

section Depending

variable [Dependent α]

theorem nodup_dependents {c : Cache α} (sound : c.Sound) (k : Key) : (c.dependents k).Nodup :=
  sound.keys.sublist (List.filter_sublist.map _)

theorem Matches.dependents (h : Matches t map since) (k : Key) :
    (t.cache.dependents k).toFinset = map.dependents k := by
  ext q
  simp only [List.mem_toFinset, mem_dependents, PlainMap.mem_dependents, ← h.lookup]
  constructor
  · rintro ⟨e, there, rfl, depends⟩
    exact ⟨e.value, h.sound.cache.lookup?_of_mem there, depends⟩
  · rintro ⟨v, found, depends⟩
    exact ⟨_, h.sound.cache.mem_of_lookup? found, rfl, depends⟩

theorem Matches.invalidateDependents (h : Matches t map since) (k : Key) :
    ∃ map' since', (t.plain map since).invalidateDependents k =
        Traffic.plain { t with cache := t.cache.invalidateDependents k } map' since' ∧
      Matches { t with cache := t.cache.invalidateDependents k } map' since' := by
  have forgotten := h.forget (nodup_dependents h.sound.cache k)
  rw [h.dependents k] at forgotten
  exact ⟨_, _, forgotten⟩

theorem lookup?_finish {c : Cache α} {ticket : Ticket} (sound : c.Sound) (missed : c.lookup? ticket.key = none) (q : Key) :
    (c.finish ticket v).lookup? q =
      if c.isCurrent ticket v = true ∧ q = ticket.key then some v else c.lookup? q := by
  have after := sound_finish sound missed v
  have epoch : (c.finish ticket v).epoch = c.epoch := (elapsed_finish c ticket v).epoch.mpr not_false
  ext w
  rw [after.lookup?_eq_some_iff, sound.mem_finish missed, epoch, ← sound.lookup?_eq_some_iff]
  by_cases stored : c.isCurrent ticket v = true ∧ q = ticket.key
  · obtain ⟨current, rfl⟩ := stored
    simp [current, missed, eq_comm]
  · rw [if_neg stored]
    constructor
    · rintro (⟨current, same⟩ | older)
      · exact absurd ⟨current, (Entry.mk.inj same).1⟩ stored
      · exact older
    · exact .inr

/-- A compile that ends well sets the value in the map exactly if it is stored. -/
theorem Matches.finish (h : Matches t map since) {ticket : Ticket}
    (there : t.caller? n = some ⟨n, k, .compiling ticket⟩) (v : α)
    (sound : Traffic.Sound { (t.settle n (.value v true)).passOn ticket.key with cache := t.cache.finish ticket v }) :
    ∃ map' since', (t.plain map since).finish n (.ok v) =
        Traffic.plain { (t.settle n (.value v true)).passOn ticket.key with cache := t.cache.finish ticket v } map' since' ∧
      Matches { (t.settle n (.value v true)).passOn ticket.key with cache := t.cache.finish ticket v } map' since' := by
  obtain ⟨held, -⟩ := mem_of_caller? there
  obtain ⟨rfl, missed⟩ : ticket.key = k ∧ t.cache.lookup? k = none := h.sound.compiling _ held ticket rfl
  have compiles : t.ticket? n = some ticket := ticket?_eq_some_iff.mpr ⟨_, there, rfl⟩
  have current := (h.since n ticket compiles).isCurrent_iff v
  let map' := if (since n).Spares ticket.key v then map.set ticket.key v else map
  refine ⟨map', since, ?_, sound, ?_, ?_⟩
  · have start : { t.plain map since with
          map := map', stats := { t.cache.stats with compiles := t.cache.stats.compiles + 1 } } =
        Traffic.plain { t with cache := t.cache.finish ticket v } map' since := by
      simp [plain, finish_eq]
    rw [← settle_passOn_withCache, ← settle_passOn_plain, ← start]
    unfold PlainTraffic.finish
    rw [caller?_plain, there]
    rfl
  · intro q
    change (t.cache.finish ticket v).lookup? q = map'.get? q
    rw [lookup?_finish h.sound.cache missed]
    by_cases spared : (since n).Spares ticket.key v
    · simp [map', spared, current.mpr spared, PlainMap.get?_set, h.lookup]
    · have stale : t.cache.isCurrent ticket v = false := by simpa using mt current.mp spared
      simp [map', spared, stale, h.lookup]
  · intro m other kept
    have before := ticket?_of_settle (ticket?_of_passOn kept)
    exact (h.since m other before).later (elapsed_finish t.cache ticket v) (by simp) (by simp)

/-- Whatever happens, it happens to the map as well. -/
theorem Matches.step (h : Matches t map since) (e : Event ε α) :
    ∃ map' since', (t.plain map since).step e = (t.step e).plain map' since' ∧ Matches (t.step e) map' since' := by
  have sound := h.sound.step e
  have move := move_step t e
  generalize t.step e = t' at move sound
  cases move with
  | @look k v found =>
    have there : (t.plain map since).map.get? k = some v := (h.lookup k).symm.trans found
    refine ⟨map, since, ?_, h.quiet sound (elapsed_of_eq rfl rfl rfl) (fun _ => rfl) ?_⟩
    · simp only [PlainTraffic.step, PlainTraffic.call, there]
      exact settle_plain (t := { t with cache := t.cache.countHit, next := t.next + 1 })
    · intro n ticket compiles
      exact ticket?_of_settle (o := .value v false) compiles
  | @ask k missed =>
    have absent : (t.plain map since).map.get? k = none := (h.lookup k).symm.trans missed
    refine ⟨map, since, ?_, h.quiet sound (elapsed_of_eq rfl rfl rfl) (fun _ => rfl) ?_⟩
    · simp only [PlainTraffic.step, PlainTraffic.call, absent]
      exact enter_plain (t := { t with next := t.next + 1 }) ⟨t.next, k, .asking⟩
    · intro n ticket compiles
      exact ticket?_of_enter (c := ⟨t.next, k, .asking⟩) rfl compiles
  | @wait n k there busy =>
    refine ⟨map, since, ?_, h.quiet sound (elapsed_of_eq rfl rfl rfl) (fun _ => rfl) ?_⟩
    · simp only [PlainTraffic.step, PlainTraffic.go, caller?_plain, there]
      simp only [Option.map_some, Caller.plain, Phase.stage, isBusy_plain, busy, if_true]
      exact enter_plain ⟨n, k, .waiting⟩
    · intro m ticket compiles
      exact ticket?_of_enter (c := ⟨n, k, .waiting⟩) rfl compiles
  | @take n k p v there ready free found =>
    have held : (t.plain map since).map.get? k = some v := (h.lookup k).symm.trans found
    refine ⟨map, since, ?_, h.quiet sound (elapsed_of_eq rfl rfl rfl) (fun _ => rfl) ?_⟩
    · change (t.plain map since).go n = _
      rw [go_plain there ready free, PlainTraffic.serve, held, ← settle_passOn_withCache]
      exact settle_passOn_plain (t := { t with cache := t.cache.countHit })
    · intro m ticket compiles
      exact ticket?_of_settle (o := .value v false) (ticket?_of_passOn (k := k) compiles)
  | @begin n k p there ready free missed =>
    have absent : (t.plain map since).map.get? k = none := (h.lookup k).symm.trans missed
    refine ⟨map, Function.update since n {}, ?_, sound, h.lookup, ?_⟩
    · change (t.plain map since).go n = _
      rw [go_plain there ready free, PlainTraffic.serve, absent]
      exact enter_plain (t := { t with cache := (t.cache.begin k).2 }) ⟨n, k, .compiling (t.cache.begin k).1⟩
    · intro m ticket compiles
      change (t.enter ⟨n, k, .compiling (t.cache.begin k).1⟩).ticket? m = some ticket at compiles
      rw [ticket?_enter] at compiles
      by_cases same : m = n
      · subst same
        obtain rfl : (t.cache.begin k).1 = ticket := by simpa [Phase.ticket?] using compiles
        rw [Function.update_self]
        exact Since.issued h.sound.cache k
      · rw [if_neg same] at compiles
        rw [Function.update_of_ne same]
        exact (h.since m ticket compiles).later (elapsed_begin t.cache k) (by simp) (by simp)
  | @finish n k ticket v there => exact h.finish there v sound
  | @fail n k ticket e there =>
    obtain ⟨held, -⟩ := mem_of_caller? there
    obtain ⟨rfl, -⟩ : ticket.key = k ∧ t.cache.lookup? k = none := h.sound.compiling _ held ticket rfl
    refine ⟨map, since, ?_, h.passed sound⟩
    simp only [PlainTraffic.step, PlainTraffic.finish, caller?_plain, there]
    exact settle_passOn_plain
  | @drop c there turn =>
    refine ⟨map, since, ?_, h.passed sound⟩
    simp only [PlainTraffic.step, PlainTraffic.cancel, caller?_plain, there, Option.map_some]
    simp only [Caller.plain, Phase.hasTurn_stage, turn, if_true]
    exact settle_passOn_plain
  | @giveUp c there turn =>
    refine ⟨map, since, ?_, h.quiet sound (elapsed_of_eq rfl rfl rfl) (fun _ => rfl) fun _ _ => ticket?_of_settle⟩
    simp only [PlainTraffic.step, PlainTraffic.cancel, caller?_plain, there, Option.map_some]
    simp only [Caller.plain, Phase.hasTurn_stage, turn, Bool.false_eq_true, if_false]
    exact settle_plain
  | @still n stuck =>
    refine ⟨map, since, ?_, h⟩
    simp only [PlainTraffic.step, PlainTraffic.go, caller?_plain]
    cases there : t.caller? n with
    | none => rfl
    | some c =>
      obtain ⟨m, k, phase⟩ := c
      have idles := stuck _ there
      cases phase with
      | asking => cases idles
      | woken => cases idles
      | waiting => rfl
      | compiling _ => rfl
  | @idle n result idles =>
    refine ⟨map, since, ?_, h⟩
    simp only [PlainTraffic.step, PlainTraffic.finish, caller?_plain]
    cases there : t.caller? n with
    | none => rfl
    | some c =>
      obtain ⟨m, k, phase⟩ := c
      cases phase with
      | asking => rfl
      | woken => rfl
      | waiting => rfl
      | compiling ticket =>
        have compiles : t.ticket? n = some ticket := ticket?_eq_some_iff.mpr ⟨_, there, rfl⟩
        rw [compiles] at idles
        cases idles
  | @gone n absent =>
    refine ⟨map, since, ?_, h⟩
    simp only [PlainTraffic.step, PlainTraffic.cancel, caller?_plain, absent, Option.map_none]
  | invalidate k => exact h.invalidate k
  | invalidateDependents k => exact h.invalidateDependents k
  | change k =>
    obtain ⟨map', since', same, after⟩ := h.invalidate k
    have rest := after.invalidateDependents k
    rw [← same] at rest
    exact rest
  | clear =>
    refine ⟨.empty, fun n => (since n).clear, rfl, sound, fun _ => rfl, ?_⟩
    intro n ticket compiles
    apply (h.since n ticket compiles).later (elapsed_clear t.cache)
    · simp [Meanwhile.clear]
    · simp [Meanwhile.clear]

/-! ## Whole runs -/

theorem Matches.run (h : Matches t map since) (events : List (Event ε α)) :
    ∃ map' since', (t.plain map since).run events = (t.run events).plain map' since' ∧
      Matches (t.run events) map' since' := by
  induction events generalizing t map since with
  | nil => exact ⟨map, since, rfl, h⟩
  | cons e events ih =>
    obtain ⟨map', since', same, after⟩ := h.step e
    obtain ⟨map'', since'', rest, at_end⟩ := ih after
    refine ⟨map'', since'', ?_, at_end⟩
    change ((t.plain map since).step e).run events = ((t.step e).run events).plain map'' since''
    rw [same, rest]

/-- Any run of events does to the cache what it does to a plain map: callers stand at the same stages and get the same
outcomes, the same is found, and the same depends on a key. No entry is left over from before the cache was cleared. -/
theorem run_refines_plain (events : List (Event ε α)) :
    let t : Traffic ε α := Traffic.run {} events
    let p : PlainTraffic ε α := PlainTraffic.run {} events
    t.outcomes = p.outcomes ∧ t.callers.map Caller.plain = p.callers ∧ t.next = p.next ∧ t.cache.stats = p.stats ∧
      (∀ k, t.cache.lookup? k = p.map.get? k) ∧ (∀ k, t.cache.contains k = true ↔ k ∈ p.map.keys) ∧
      (∀ e ∈ t.cache.entries, e.epoch = t.cache.epoch) ∧
      t.cache.size = p.map.keys.card ∧ (t.cache.size = 0 ↔ ∀ k, t.cache.contains k = false) ∧
      ∀ k, (t.cache.dependents k).Nodup ∧ (t.cache.dependents k).toFinset = p.map.dependents k := by
  intro t p
  obtain ⟨map, since, same, h⟩ := (matches_empty (ε := ε) (α := α)).run events
  have plain : p = t.plain map since := same
  have contains (k : Key) : t.cache.contains k = true ↔ k ∈ map.keys := by
    rw [map.mem_keys, ← h.lookup]
    rfl
  have empty : t.cache.size = 0 ↔ ∀ k, t.cache.contains k = false := by
    rw [h.size, Finset.card_eq_zero, Finset.eq_empty_iff_forall_notMem]
    simp only [← contains, Bool.not_eq_true]
  rw [plain]
  exact ⟨rfl, rfl, rfl, rfl, h.lookup, contains, h.sound.cache.epoch, h.size, empty,
    fun k => ⟨nodup_dependents h.sound.cache k, h.dependents k⟩⟩

end Depending
end Traffic
end Pageweave.Cache
