import Mathlib.Data.Nat.Count
import Pageweave.Proofs.Cache.Schedule
/-!
# What the statistics count

Every call is in one place: it got a value that was there, it compiled one, its compile failed, it was cancelled, it
compiles or it waits. The counters are the sizes of such groups at any moment. An event adds to both sides of each
balance the same; only cancellations leave no group behind and are counted as they happen.
-/
namespace Pageweave.Cache

variable {ε α : Type}

namespace Outcome

/-- A value that was there already. -/
def isCached : Outcome ε α → Bool
  | .value _ compiled => !compiled
  | .failed _ | .cancelled => false

/-- A value that the caller compiled, stored or not. -/
def isCompiled : Outcome ε α → Bool
  | .value _ compiled => compiled
  | .failed _ | .cancelled => false

def isFailed : Outcome ε α → Bool
  | .failed _ => true
  | .value _ _ | .cancelled => false

end Outcome

theorem Phase.ticket?_of_isReady {p : Phase} (ready : p.isReady = true) : p.ticket? = none := by
  cases p with
  | asking => rfl
  | waiting => rfl
  | woken => rfl
  | compiling _ => cases ready

/-! ## Counters -/

theorem stats_finish [Dependent α] (c : Cache α) (ticket : Ticket) (v : α) :
    (c.finish ticket v).stats = { c.stats with compiles := c.stats.compiles + 1 } := by
  rw [finish_eq]

namespace Traffic

variable {t : Traffic ε α} {e : Event ε α} {k : Key} {n : Nat} {c d : Caller} {o : Outcome ε α} {v : α}

/-- How many compile. -/
def running (t : Traffic ε α) : Nat := t.callers.countP fun c => c.phase.ticket?.isSome

/-- How many have neither an outcome nor begun to compile. -/
def queued (t : Traffic ε α) : Nat := t.callers.countP fun c => c.phase.ticket?.isNone

/-- How many ended in a way. -/
def ended (t : Traffic ε α) (way : Outcome ε α → Bool) : Nat := t.outcomes.countP fun x => way x.2

/-- Does an event make somebody begin to compile? -/
def begins [Dependent α] (t : Traffic ε α) : Event ε α → Bool
  | .go w => (t.ticket? w).isNone && ((t.step (.go w)).ticket? w).isSome
  | _ => false

/-- Does an event cancel somebody who compiles? -/
def abandons (t : Traffic ε α) : Event ε α → Bool
  | .cancel w => (t.ticket? w).isSome
  | _ => false

/-- Does an event cancel somebody who has not begun to compile? -/
def givesUp (t : Traffic ε α) : Event ε α → Bool
  | .cancel w => (t.caller? w).isSome && (t.ticket? w).isNone
  | _ => false

def calls (_ : Traffic ε α) : Event ε α → Bool
  | .call _ => true
  | _ => false

theorem Consistent.perm_leave (h : t.Consistent) (there : t.caller? n = some c) :
    t.callers.Perm (c :: (t.leave n).callers) := by
  obtain ⟨hc, rfl⟩ := mem_of_caller? there
  have alone : t.callers.filter (fun d => d.number == c.number) = [c] := by
    have distinct : (t.callers.filter fun d => d.number == c.number).Nodup := h.numbers.of_map.filter _
    refine List.perm_singleton.mp ((List.perm_ext_iff_of_nodup distinct (List.nodup_singleton c)).mpr fun d => ?_)
    rw [List.mem_filter, beq_iff_eq, List.mem_singleton]
    constructor
    · exact fun ⟨hd, same⟩ => List.inj_on_of_nodup_map h.numbers hd hc same
    · rintro rfl
      exact ⟨hc, rfl⟩
  have parts := (List.filter_append_perm (fun d => d.number == c.number) t.callers).symm
  rwa [alone] at parts

theorem leave_of_absent (absent : t.caller? n = none) : (t.leave n).callers = t.callers := by
  refine List.filter_eq_self.mpr fun d hd => ?_
  simpa using List.find?_eq_none.mp absent d hd

theorem perm_enter : (t.enter c).callers.Perm (c :: (t.leave c.number).callers) := List.perm_append_singleton c _

section Parts

variable (p : Caller → Bool)

theorem Consistent.countP_leave (h : t.Consistent) (there : t.caller? n = some c) :
    (t.leave n).callers.countP p + (p c).toNat = t.callers.countP p := by
  rw [(h.perm_leave there).countP_eq, List.countP_cons]
  cases p c <;> rfl

theorem countP_enter : (t.enter c).callers.countP p = (t.leave c.number).callers.countP p + (p c).toNat := by
  rw [perm_enter.countP_eq, List.countP_cons]
  cases p c <;> rfl

theorem Consistent.countP_entered (h : t.Consistent) (there : t.caller? d.number = some c) :
    (t.enter d).callers.countP p + (p c).toNat = t.callers.countP p + (p d).toNat := by
  rw [countP_enter, ← h.countP_leave p there, Nat.add_right_comm]

variable {p} in
theorem Consistent.countP_passOn (h : t.Consistent)
    (same : ∀ d : Caller, p { d with phase := .woken } = p { d with phase := .waiting }) :
    (t.passOn k).callers.countP p = t.callers.countP p := by
  unfold Traffic.passOn
  split
  · rename_i d longest
    obtain ⟨hd, -, waits⟩ := mem_of_longestWaiting? longest
    have woken : p { d with phase := .woken } = p d := by rw [same, ← waits]
    rw [countP_enter, woken]
    exact h.countP_leave p (h.caller?_of_mem hd)
  · rfl

variable {p} in
theorem Consistent.countP_settled (h : t.Consistent) (there : t.caller? n = some c)
    (same : ∀ d : Caller, p { d with phase := .woken } = p { d with phase := .waiting }) :
    ((t.settle n o).passOn k).callers.countP p + (p c).toNat = t.callers.countP p := by
  have ended := h.settle (h.lt_next there) (h.unsettled there) o
  rw [ended.countP_passOn same]
  exact h.countP_leave p there

end Parts

theorem Consistent.running_settled (h : t.Consistent) (there : t.caller? n = some c) :
    ((t.settle n o).passOn k).running + c.phase.ticket?.isSome.toNat = t.running :=
  h.countP_settled there fun _ => rfl

theorem Consistent.queued_settled (h : t.Consistent) (there : t.caller? n = some c) :
    ((t.settle n o).passOn k).queued + c.phase.ticket?.isNone.toNat = t.queued :=
  h.countP_settled there fun _ => rfl

/-- At rest, who has not begun to compile waits for a turn. -/
theorem queued_of_rest (rest : t.ready? = none) :
    t.queued = t.callers.countP fun c => c.phase == .waiting := by
  refine List.countP_congr fun c hc => ?_
  have stuck := List.find?_eq_none.mp rest c hc
  cases phase : c.phase with
  | asking => simp [phase, Phase.isReady] at stuck
  | waiting => simp [Phase.ticket?]
  | woken => simp [phase, Phase.isReady] at stuck
  | compiling ticket => simp [Phase.ticket?]

/-! ## What an event adds -/

/-- Both sides of each balance move alike, apart from cancellations and new calls. -/
structure Posts (t : Traffic ε α) (abandoned givenUp called : Nat) (t' : Traffic ε α) : Prop where
  hits : t'.cache.stats.hits + t.ended Outcome.isCached = t.cache.stats.hits + t'.ended Outcome.isCached
  compiles :
    t'.cache.stats.compiles + t.ended Outcome.isCompiled = t.cache.stats.compiles + t'.ended Outcome.isCompiled
  misses : t'.cache.stats.misses + (t.ended Outcome.isCompiled + t.ended Outcome.isFailed + t.running) =
    t.cache.stats.misses + (t'.ended Outcome.isCompiled + t'.ended Outcome.isFailed + t'.running) + abandoned
  calls : t'.next + (t.cache.stats.hits + t.cache.stats.misses + t.queued) =
    t.next + (t'.cache.stats.hits + t'.cache.stats.misses + t'.queued) + givenUp
  made : t'.next = t.next + called

variable {t' : Traffic ε α} {abandoned givenUp : Nat}

theorem posts_of_stayed (came began : Nat) (outcomes : t'.outcomes = t.outcomes)
    (running : t'.running = t.running + began) (queued : t'.queued + began = t.queued + came)
    (stats : t'.cache.stats = ⟨t.cache.stats.hits, t.cache.stats.misses + began, t.cache.stats.compiles⟩)
    (next : t'.next = t.next + came) : t.Posts 0 0 came t' := by
  have ended (way : Outcome ε α → Bool) : t'.ended way = t.ended way := congrArg (List.countP _) outcomes
  constructor
  · rw [stats, ended]
  · rw [stats, ended]
  · rw [stats, ended, ended, running]
    dsimp only
    omega
  · rw [stats, next]
    dsimp only
    omega
  · exact next

theorem ended_append (outcomes : t'.outcomes = t.outcomes ++ [(n, o)]) (way : Outcome ε α → Bool) :
    t'.ended way = t.ended way + (way o).toNat := by
  rw [Traffic.ended, outcomes, List.countP_append, List.countP_singleton]
  cases way o <;> rfl

theorem posts_of_settled (outcomes : t'.outcomes = t.outcomes ++ [(n, o)])
    (running : t'.running + c.phase.ticket?.isSome.toNat = t.running)
    (queued : t'.queued + c.phase.ticket?.isNone.toNat = t.queued)
    (stats : t'.cache.stats =
      ⟨t.cache.stats.hits + o.isCached.toNat, t.cache.stats.misses, t.cache.stats.compiles + o.isCompiled.toNat⟩)
    (next : t'.next = t.next)
    (began : c.phase.ticket?.isSome.toNat = o.isCompiled.toNat + o.isFailed.toNat + abandoned)
    (waited : c.phase.ticket?.isNone.toNat = o.isCached.toNat + givenUp) : t.Posts abandoned givenUp 0 t' := by
  have ended := ended_append outcomes
  constructor
  · rw [stats, ended]
    dsimp only
    omega
  · rw [stats, ended]
    dsimp only
    omega
  · rw [stats, ended, ended]
    dsimp only
    omega
  · rw [stats, next]
    dsimp only
    omega
  · rw [next, Nat.add_zero]

theorem Sound.caller?_next (h : t.Sound) : t.caller? t.next = none := by
  cases there : t.caller? t.next with
  | none => rfl
  | some c => exact absurd (h.lt_next there) (Nat.lt_irrefl _)

theorem posts_of_looked (outcomes : t'.outcomes = t.outcomes ++ [(n, .value v false)])
    (callers : t'.callers = t.callers) (stats : t'.cache.stats = t.cache.countHit.stats) (next : t'.next = t.next + 1) :
    t.Posts 0 0 1 t' := by
  have ended := ended_append outcomes
  have running : t'.running = t.running := congrArg (List.countP _) callers
  have queued : t'.queued = t.queued := congrArg (List.countP _) callers
  constructor
  · rw [stats, ended, Cache.countHit]
    exact Nat.add_right_comm _ _ _
  · rw [stats, ended]
    rfl
  · rw [stats, ended, ended, running]
    rfl
  · rw [stats, next, queued, Cache.countHit]
    dsimp only
    omega
  · exact next

variable [Dependent α]

theorem Sound.posts_step (h : t.Sound) (e : Event ε α) :
    t.Posts (t.abandons e).toNat (t.givesUp e).toNat (t.calls e).toNat (t.step e) := by
  have move := move_step t e
  generalize t.step e = t' at move
  cases move with
  | look _ => exact posts_of_looked rfl (leave_of_absent h.caller?_next) rfl rfl
  | @ask k _ =>
    have came (p : Caller → Bool) :
        (t.enter ⟨t.next, k, .asking⟩).callers.countP p = t.callers.countP p + (p ⟨t.next, k, .asking⟩).toNat := by
      rw [countP_enter, leave_of_absent h.caller?_next]
    exact posts_of_stayed 1 0 rfl (came _) (came _) rfl rfl
  | @wait n k there _ =>
    have waits (q : Caller → Bool) := h.countP_entered (d := ⟨n, k, .waiting⟩) q there
    have running := waits fun c => c.phase.ticket?.isSome
    have queued := waits fun c => c.phase.ticket?.isNone
    exact posts_of_stayed 0 0 rfl running (Nat.succ.inj queued) rfl rfl
  | take there ready _ _ =>
    have idle := Phase.ticket?_of_isReady ready
    refine posts_of_settled outcomes_passOn (h.running_settled there) (h.queued_settled there) rfl next_passOn ?_ ?_
    · rw [idle]
      rfl
    · rw [idle]
      rfl
  | @begin n k p there ready _ _ =>
    have idle := Phase.ticket?_of_isReady ready
    have began (q : Caller → Bool) := h.countP_entered (d := ⟨n, k, .compiling (t.cache.begin k).1⟩) q there
    have running := began fun c => c.phase.ticket?.isSome
    have queued := began fun c => c.phase.ticket?.isNone
    rw [idle] at running queued
    exact posts_of_stayed 0 1 rfl running queued rfl rfl
  | finish v there =>
    exact posts_of_settled outcomes_passOn (h.running_settled there) (h.queued_settled there) (stats_finish t.cache _ v)
      next_passOn rfl rfl
  | fail x there =>
    exact posts_of_settled outcomes_passOn (h.running_settled there) (h.queued_settled there)
      (congrArg Cache.stats cache_passOn) next_passOn rfl rfl
  | @drop c there turn =>
    -- a caller that was woken has the turn but had not begun to compile, so both kinds of cancellation occur
    refine posts_of_settled outcomes_passOn (h.running_settled there) (h.queued_settled there)
      (congrArg Cache.stats cache_passOn) next_passOn ?_ ?_
    · simp [Outcome.isCompiled, Outcome.isFailed, abandons, ticket?, phase?, there]
    · simp [Outcome.isCached, givesUp, ticket?, phase?, there]
  | @giveUp c there turn =>
    refine posts_of_settled rfl (h.countP_leave _ there) (h.countP_leave _ there) rfl rfl ?_ ?_
    · simp [Outcome.isCompiled, Outcome.isFailed, abandons, ticket?, phase?, there]
    · simp [Outcome.isCached, givesUp, ticket?, phase?, there]
  | still _ => exact posts_of_stayed 0 0 rfl rfl rfl rfl rfl
  | idle _ _ => exact posts_of_stayed 0 0 rfl rfl rfl rfl rfl
  | gone absent =>
    simp only [abandons, givesUp, ticket?, phase?, absent]
    exact posts_of_stayed 0 0 rfl rfl rfl rfl rfl
  | invalidate k => exact posts_of_stayed 0 0 rfl rfl rfl rfl rfl
  | invalidateDependents k => exact posts_of_stayed 0 0 rfl rfl rfl (stats_foldl_invalidate _ _) rfl
  | change k => exact posts_of_stayed 0 0 rfl rfl rfl (stats_foldl_invalidate _ _) rfl
  | clear => exact posts_of_stayed 0 0 rfl rfl rfl rfl rfl

theorem Sound.misses_step (h : t.Sound) (e : Event ε α) :
    (t.step e).cache.stats.misses = t.cache.stats.misses + (t.begins e).toNat := by
  -- if somebody begins, the cache after the event is known; otherwise the one move that counts a miss is ruled out
  by_cases begins : t.begins e = true
  · rw [begins]
    cases e with
    | go w =>
      rw [Traffic.begins, Bool.and_eq_true, Option.isNone_iff_eq_none, Option.isSome_iff_exists] at begins
      obtain ⟨idle, ticket, compiles⟩ := begins
      rw [h.cache_of_step idle compiles]
      rfl
    | _ => cases begins
  · rw [Bool.not_eq_true] at begins
    rw [begins]
    have move := move_step t e
    generalize moved : t.step e = t' at move
    cases move with
    | @begin n k p there ready _ _ =>
      have idle : t.ticket? n = none := by
        simp [ticket?, phase?, there, Phase.ticket?_of_isReady ready]
      have compiles : (t.step (.go n)).ticket? n = some (t.cache.begin k).1 := by
        rw [moved]
        refine ticket?_eq_some_iff.mpr ⟨⟨n, k, .compiling (t.cache.begin k).1⟩, ?_, rfl⟩
        change (t.enter _).caller? n = _
        rw [caller?_enter, if_pos rfl]
      rw [Traffic.begins, idle, compiles] at begins
      cases begins
    | look _ => rfl
    | ask _ => rfl
    | wait _ _ => rfl
    | take _ _ _ _ => rfl
    | @finish n k ticket v _ =>
      have same := congrArg CacheStats.misses (stats_finish t.cache ticket v)
      exact same
    | fail _ _ => exact congrArg (fun c : Cache α => c.stats.misses) cache_passOn
    | drop _ _ => exact congrArg (fun c : Cache α => c.stats.misses) cache_passOn
    | giveUp _ _ => rfl
    | still _ => rfl
    | idle _ _ => rfl
    | gone _ => rfl
    | invalidate _ => rfl
    | invalidateDependents k => exact congrArg CacheStats.misses (stats_foldl_invalidate _ _)
    | change k => exact congrArg CacheStats.misses (stats_foldl_invalidate _ _)
    | clear => rfl

end Traffic

namespace Schedule

variable [Dependent α] {s : Schedule ε α} {n : Nat}

/-- How many events of a kind happen before a moment. -/
def times (s : Schedule ε α) (kind : Traffic ε α → Event ε α → Bool) (n : Nat) : Nat :=
  Nat.count (fun m => (s.event m).any (kind (s.state m)) = true) n

theorem times_succ (s : Schedule ε α) (kind : Traffic ε α → Event ε α → Bool) (n : Nat) :
    s.times kind (n + 1) = s.times kind n + ((s.event n).any (kind (s.state n))).toNat := by
  rw [times, Nat.count_succ, ← times]
  cases (s.event n).any (kind (s.state n)) <;> rfl

/-- What grows by one with each event of a kind, apart from what it shares with something else, counts these events. -/
theorem eq_add_times (f g : Traffic ε α → Nat) (kind : Traffic ε α → Event ε α → Bool) (start : f {} = g {})
    (step : ∀ t e, t.Sound → f (t.step e) + g t = f t + g (t.step e) + (kind t e).toNat) (s : Schedule ε α) (n : Nat) :
    f (s.state n) = g (s.state n) + s.times kind n := by
  induction n with
  | zero => exact start
  | succ n ih =>
    rw [times_succ]
    cases happens : s.event n with
    | none =>
      rw [state_succ_of_none happens, ih]
      rfl
    | some e =>
      have more := step (s.state n) e (s.sound n)
      rw [state_succ_of_some happens]
      change _ = _ + (_ + (kind (s.state n) e).toNat)
      omega

theorem happens_begins_iff :
    (s.event n).any (s.state n).begins = true ↔ ∃ w k, s.Begins n w k := by
  constructor
  · intro happens
    rw [Option.any_eq_true] at happens
    obtain ⟨e, goes, begins⟩ := happens
    cases e with
    | go w =>
      rw [Traffic.begins, Bool.and_eq_true, Option.isNone_iff_eq_none, Option.isSome_iff_exists] at begins
      obtain ⟨idle, ticket, compiles⟩ := begins
      exact ⟨w, ticket.key, idle, ticket, (state_succ_of_some goes).symm ▸ compiles, rfl⟩
    | _ => cases begins
  · rintro ⟨w, k, begins⟩
    obtain ⟨compiles, -, goes⟩ := ticket?_of_begins begins
    rw [state_succ_of_some goes] at compiles
    rw [goes, Option.any_some, Traffic.begins, begins.1, compiles]
    rfl

theorem begins_unique {w x : Nat} {k q : Key} (h : s.Begins n w k) (h' : s.Begins n x q) : w = x := by
  have same := (ticket?_of_begins h).2.2.symm.trans (ticket?_of_begins h').2.2
  cases same
  rfl

theorem times_never (s : Schedule ε α) (n : Nat) : s.times (fun _ _ => false) n = 0 := by
  induction n with
  | zero => rfl
  | succ n ih =>
    rw [times_succ, ih]
    cases s.event n <;> rfl

/-- The statistics of a cache against what happened until now and who is there. -/
structure Balanced (s : Schedule ε α) (n : Nat) (now : Traffic ε α) : Prop where
  /-- Every call ends once. -/
  once : (now.outcomes.map Prod.fst).Nodup
  calls : now.cache.stats.hits + now.cache.stats.misses + now.queued + s.times Traffic.givesUp n =
    s.times Traffic.calls n
  hits : now.cache.stats.hits = now.ended Outcome.isCached
  begun : now.cache.stats.misses = s.times Traffic.begins n
  misses : now.cache.stats.misses =
    now.ended Outcome.isCompiled + now.ended Outcome.isFailed + s.times Traffic.abandons n + now.running
  compiles : now.cache.stats.compiles = now.ended Outcome.isCompiled
  compiles_le : now.cache.stats.compiles ≤ now.cache.stats.misses
  /-- When nobody can go on, who has not begun to compile waits for a turn. -/
  waiting : now.ready? = none → now.queued = now.callers.countP fun c => c.phase == .waiting

theorem balanced (s : Schedule ε α) (n : Nat) : s.Balanced n (s.state n) := by
  have hits := eq_add_times (fun t => t.cache.stats.hits) (fun t => t.ended Outcome.isCached) (fun _ _ => false) rfl
    (fun t e sound => (sound.posts_step e).hits) s n
  have compiles := eq_add_times (fun t => t.cache.stats.compiles) (fun t => t.ended Outcome.isCompiled)
    (fun _ _ => false) rfl (fun t e sound => (sound.posts_step e).compiles) s n
  have misses := eq_add_times (fun t => t.cache.stats.misses)
    (fun t => t.ended Outcome.isCompiled + t.ended Outcome.isFailed + t.running) Traffic.abandons rfl
    (fun t e sound => (sound.posts_step e).misses) s n
  have begun := eq_add_times (fun t => t.cache.stats.misses) (fun _ => 0) Traffic.begins rfl
    (fun t e sound => sound.misses_step e) s n
  have calls := eq_add_times (fun t => t.next) (fun t => t.cache.stats.hits + t.cache.stats.misses + t.queued)
    Traffic.givesUp rfl (fun t e sound => (sound.posts_step e).calls) s n
  have made := eq_add_times (fun t => t.next) (fun _ => 0) Traffic.calls rfl
    (fun t e sound => (sound.posts_step e).made) s n
  rw [times_never] at hits compiles
  constructor
  · exact (s.sound n).once
  · omega
  · exact hits
  · omega
  · omega
  · exact compiles
  · omega
  · exact Traffic.queued_of_rest

/-- Hits are the calls that returned a value that was there; misses are the compiles that ever began, each of which
ended well, failed, was cancelled or goes on; compiles are those that ended well, stored or not. With the calls that
wait and those that were cancelled before they began to compile, hits and misses make up all calls. What takes values
out of the cache leaves the counters alone; a look at what it contains only reads. -/
theorem statistics_conserved (s : Schedule ε α) (n : Nat) :
    s.Balanced n (s.state n) ∧
      (∀ m, ((s.event m).any (s.state m).begins = true ↔ ∃ w k, s.Begins m w k) ∧
        ∀ w k x q, s.Begins m w k → s.Begins m x q → w = x) ∧
      ∀ (c : Cache α) (k : Key),
        (c.invalidate k).stats = c.stats ∧ (c.invalidateDependents k).stats = c.stats ∧
          (c.change k).stats = c.stats ∧ c.clear.stats = c.stats := by
  refine ⟨s.balanced n, fun m => ⟨happens_begins_iff, fun w k x q => begins_unique⟩, fun c k => ?_⟩
  exact ⟨rfl, stats_foldl_invalidate _ _, stats_foldl_invalidate _ _, rfl⟩

end Schedule
end Pageweave.Cache
