import Pageweave.Proofs.Cache.Move
import Pageweave.Proofs.Cache.Store
/-!
# Whose turn it is

In every state that events lead to, callers are told apart by their numbers, a key has its turn with one caller at most,
nobody waits for a turn that nobody has, and a key for which somebody compiles has no value.
-/
namespace Pageweave.Cache.Traffic

variable {ε α : Type} {t : Traffic ε α} {k q : Key} {n : Nat} {v : α} {c d : Caller} {o : Outcome ε α}

/-- All that holds also in the middle of a move. -/
structure Consistent (t : Traffic ε α) : Prop where
  cache : t.cache.Sound
  numbers : (t.callers.map Caller.number).Nodup
  known : ∀ c ∈ t.callers, c.number < t.next
  settled : ∀ e ∈ t.outcomes, e.1 < t.next ∧ t.caller? e.1 = none
  once : (t.outcomes.map Prod.fst).Nodup
  turn : ∀ c ∈ t.callers, ∀ d ∈ t.callers, c.key = d.key → c.phase.hasTurn = true → d.phase.hasTurn = true → c = d
  compiling : ∀ c ∈ t.callers, ∀ ticket, c.phase = .compiling ticket → ticket.key = c.key ∧ t.cache.lookup? c.key = none

/-- Whoever waits for a key waits for somebody who has the turn. -/
def Attended (t : Traffic ε α) (k : Key) : Prop :=
  ∀ c ∈ t.callers, c.key = k → c.phase = .waiting → t.isBusy k = true

structure Sound (t : Traffic ε α) : Prop extends Consistent t where
  attended : ∀ k, t.Attended k

theorem Consistent.caller?_eq_some_iff (h : t.Consistent) : t.caller? n = some c ↔ c ∈ t.callers ∧ c.number = n := by
  constructor
  · exact mem_of_caller?
  · rintro ⟨hc, rfl⟩
    cases there : t.caller? c.number with
    | none =>
      have missing := List.find?_eq_none.mp there c hc
      simp at missing
    | some d =>
      obtain ⟨hd, same⟩ := mem_of_caller? there
      rw [List.inj_on_of_nodup_map h.numbers hd hc same]

theorem Consistent.caller?_of_mem (h : t.Consistent) (hc : c ∈ t.callers) : t.caller? c.number = some c :=
  h.caller?_eq_some_iff.mpr ⟨hc, rfl⟩

theorem Consistent.unsettled (h : t.Consistent) (there : t.caller? n = some c) : ∀ e ∈ t.outcomes, e.1 ≠ n := by
  intro e he same
  have none_there := (h.settled e he).2
  rw [same, there] at none_there
  cases none_there

theorem Consistent.lt_next (h : t.Consistent) (there : t.caller? n = some c) : n < t.next := by
  obtain ⟨hc, rfl⟩ := mem_of_caller? there
  exact h.known c hc

theorem sound_empty : Sound ({} : Traffic ε α) where
  cache := Cache.sound_empty
  numbers := List.nodup_nil
  known := by simp
  settled := by simp
  once := List.nodup_nil
  turn := by simp
  compiling := by simp
  attended := by simp [Attended]

theorem Consistent.settle (h : t.Consistent) (known : n < t.next) (unsettled : ∀ e ∈ t.outcomes, e.1 ≠ n)
    (o : Outcome ε α) : (t.settle n o).Consistent where
  cache := h.cache
  numbers := h.numbers.sublist (List.filter_sublist.map _)
  known d hd := h.known d (mem_settle.mp hd).1
  settled e he := by
    rcases List.mem_append.mp he with older | new
    · refine ⟨(h.settled e older).1, ?_⟩
      simp [(h.settled e older).2]
    · obtain rfl := List.mem_singleton.mp new
      exact ⟨known, by simp⟩
  once := by
    have apart : n ∉ t.outcomes.map Prod.fst := by
      intro listed
      obtain ⟨e, he, same⟩ := List.mem_map.mp listed
      exact unsettled e he same
    have both : (t.outcomes.map Prod.fst ++ [n]).Nodup :=
      List.nodup_append.mpr ⟨h.once, List.nodup_singleton n, fun a ha b hb same => by
        obtain rfl := List.mem_singleton.mp hb
        exact apart (same ▸ ha)⟩
    simpa [Traffic.settle] using both
  turn c hc d hd := h.turn c (mem_settle.mp hc).1 d (mem_settle.mp hd).1
  compiling c hc := h.compiling c (mem_settle.mp hc).1

theorem Consistent.enter (h : t.Consistent) (known : c.number < t.next) (unsettled : ∀ e ∈ t.outcomes, e.1 ≠ c.number)
    (alone : c.phase.hasTurn = true →
      ∀ d ∈ t.callers, d.number ≠ c.number → d.key = c.key → d.phase.hasTurn = false)
    (ticket : ∀ ticket, c.phase = .compiling ticket → ticket.key = c.key ∧ t.cache.lookup? c.key = none) :
    (t.enter c).Consistent where
  cache := h.cache
  numbers := by
    have kept : ((t.leave c.number).callers.map Caller.number).Nodup :=
      h.numbers.sublist (List.filter_sublist.map _)
    simp only [Traffic.enter, List.map_append, List.map_cons, List.map_nil]
    refine List.nodup_append.mpr ⟨kept, List.nodup_singleton _, fun a ha b hb same => ?_⟩
    obtain ⟨d, hd, rfl⟩ := List.mem_map.mp ha
    obtain rfl := List.mem_singleton.mp hb
    exact (mem_leave.mp hd).2 same
  known d hd := by
    rcases mem_enter.mp hd with rfl | ⟨older, -⟩
    · exact known
    · exact h.known d older
  settled e he := by
    refine ⟨(h.settled e he).1, ?_⟩
    rw [caller?_enter, if_neg (unsettled e he)]
    exact (h.settled e he).2
  once := h.once
  turn a ha b hb same hasA hasB := by
    rcases mem_enter.mp ha with rfl | ⟨olderA, otherA⟩
    · rcases mem_enter.mp hb with rfl | ⟨olderB, otherB⟩
      · rfl
      · exact absurd (alone hasA b olderB otherB same.symm) (by simp [hasB])
    · rcases mem_enter.mp hb with rfl | ⟨olderB, -⟩
      · exact absurd (alone hasB a olderA otherA same) (by simp [hasA])
      · exact h.turn a olderA b olderB same hasA hasB
  compiling d hd := by
    rcases mem_enter.mp hd with rfl | ⟨older, -⟩
    · exact ticket
    · exact h.compiling d older

theorem Consistent.withCache {cache : Cache α} (h : t.Consistent) (sound : cache.Sound)
    (missed : ∀ c ∈ t.callers, ∀ ticket, c.phase = .compiling ticket → cache.lookup? c.key = none) :
    Consistent { t with cache } where
  cache := sound
  numbers := h.numbers
  known := h.known
  settled := h.settled
  once := h.once
  turn := h.turn
  compiling c hc ticket compiles := ⟨(h.compiling c hc ticket compiles).1, missed c hc ticket compiles⟩

theorem Consistent.withFewer {cache : Cache α} (h : t.Consistent) (sound : cache.Sound)
    (fewer : ∀ e ∈ cache.entries, e ∈ t.cache.entries) : Consistent { t with cache } :=
  h.withCache sound fun c hc ticket compiles =>
    h.cache.lookup?_eq_none_of_subset sound fewer (h.compiling c hc ticket compiles).2

theorem Consistent.succ (h : t.Consistent) : Consistent { t with next := t.next + 1 } where
  cache := h.cache
  numbers := h.numbers
  known c hc := Nat.lt_succ_of_lt (h.known c hc)
  settled e he := ⟨Nat.lt_succ_of_lt (h.settled e he).1, (h.settled e he).2⟩
  once := h.once
  turn := h.turn
  compiling := h.compiling

theorem Consistent.isBusy_settle (h : t.Consistent) (there : t.caller? n = some c) (busy : t.isBusy q = true)
    (other : c.key = q → c.phase.hasTurn = false) : (t.settle n o).isBusy q = true := by
  obtain ⟨d, hd, rfl, turn⟩ := isBusy_iff.mp busy
  refine isBusy_iff.mpr ⟨d, mem_settle.mpr ⟨hd, ?_⟩, rfl, turn⟩
  rintro rfl
  have same : c = d := Option.some.inj (there.symm.trans (h.caller?_of_mem hd))
  subst same
  simp [turn] at other

theorem Consistent.free_settle (h : t.Consistent) (there : t.caller? n = some c) (turn : c.phase.hasTurn = true) :
    (t.settle n o).isBusy c.key = false := by
  rw [Bool.eq_false_iff]
  intro busy
  obtain ⟨d, hd, same, turnD⟩ := isBusy_iff.mp busy
  obtain ⟨older, other⟩ := mem_settle.mp hd
  obtain ⟨hc, rfl⟩ := mem_of_caller? there
  exact other (congrArg Caller.number (h.turn d older c hc same turnD turn))

theorem isBusy_enter (busy : t.isBusy q = true)
    (keeps : ∀ d ∈ t.callers, d.number = c.number → d.phase.hasTurn = true → c.key = d.key ∧ c.phase.hasTurn = true) :
    (t.enter c).isBusy q = true := by
  obtain ⟨d, hd, rfl, turn⟩ := isBusy_iff.mp busy
  by_cases same : d.number = c.number
  · obtain ⟨key, turnC⟩ := keeps d hd same turn
    exact isBusy_iff.mpr ⟨c, mem_enter.mpr (.inl rfl), key, turnC⟩
  · exact isBusy_iff.mpr ⟨d, mem_enter.mpr (.inr ⟨hd, same⟩), rfl, turn⟩

theorem Sound.enter (h : t.Sound) (consistent : (t.enter c).Consistent)
    (keeps : ∀ d ∈ t.callers, d.number = c.number → d.phase.hasTurn = true → c.key = d.key ∧ c.phase.hasTurn = true)
    (waits : c.phase = .waiting → t.isBusy c.key = true) : (t.enter c).Sound where
  toConsistent := consistent
  attended k d hd key phase := by
    rcases mem_enter.mp hd with rfl | ⟨older, -⟩
    · exact isBusy_enter (key ▸ waits phase) keeps
    · exact isBusy_enter (h.attended k d older key phase) keeps

theorem Consistent.passOn (h : t.Consistent) (free : t.isBusy k = false) : (t.passOn k).Consistent := by
  unfold Traffic.passOn
  split
  · rename_i c longest
    obtain ⟨hc, rfl, -⟩ := mem_of_longestWaiting? longest
    have there := h.caller?_of_mem hc
    refine h.enter (h.lt_next there) (h.unsettled there) ?_ (fun _ woken => by cases woken)
    intro _ d hd _ key
    rw [Bool.eq_false_iff]
    intro turn
    have busy := isBusy_iff.mpr ⟨d, hd, key, turn⟩
    rw [free] at busy
    cases busy
  · exact h

theorem caller?_passOn_of_none (absent : t.caller? n = none) : (t.passOn k).caller? n = none := by
  unfold Traffic.passOn
  split
  · rename_i d longest
    have other : n ≠ d.number := by
      rintro rfl
      have missing := List.find?_eq_none.mp absent d (mem_of_longestWaiting? longest).1
      simp at missing
    rw [caller?_enter, if_neg other, absent]
  · exact absent

theorem Consistent.caller?_passOn (h : t.Consistent) (there : t.caller? n = some c) :
    (t.passOn k).caller? n = some c ∨
      t.longestWaiting? k = some c ∧ (t.passOn k).caller? n = some { c with phase := .woken } := by
  unfold Traffic.passOn
  split
  · rename_i d longest
    rw [caller?_enter]
    split
    · rename_i same
      have hd := h.caller?_of_mem (mem_of_longestWaiting? longest).1
      obtain rfl : d = c := Option.some.inj (hd.symm.trans (same ▸ there))
      exact .inr ⟨longest, rfl⟩
    · exact .inl there
  · exact .inl there

theorem Consistent.caller?_of_passOn (h : t.Consistent) (there : (t.passOn k).caller? n = some c) :
    t.caller? n = some c ∨
      ∃ d, t.longestWaiting? k = some d ∧ t.caller? n = some d ∧ c = { d with phase := .woken } := by
  cases before : t.caller? n with
  | none =>
    rw [caller?_passOn_of_none before] at there
    cases there
  | some d =>
    rcases h.caller?_passOn (k := k) before with same | ⟨longest, woken⟩
    · left
      rw [← there, same]
    · right
      exact ⟨d, longest, rfl, Option.some.inj (there.symm.trans woken)⟩

private theorem attended_passOn_self (k : Key) : (t.passOn k).Attended k := by
  intro d hd key phase
  unfold Traffic.passOn at hd ⊢
  split at hd
  · rename_i c longest
    obtain ⟨-, keyC, -⟩ := mem_of_longestWaiting? longest
    exact isBusy_iff.mpr ⟨_, mem_enter.mpr (.inl rfl), keyC, rfl⟩
  · rename_i nobody
    exact absurd phase (longestWaiting?_eq_none_iff.mp nobody d hd key)

private theorem Consistent.attended_passOn (h : t.Consistent) (k : Key) (attended : t.Attended q) :
    (t.passOn k).Attended q := by
  intro d hd key phase
  unfold Traffic.passOn at hd ⊢
  split at hd
  · rename_i c longest
    obtain ⟨hc, -, waits⟩ := mem_of_longestWaiting? longest
    rcases mem_enter.mp hd with rfl | ⟨older, -⟩
    · cases phase
    · refine isBusy_enter (attended d older key phase) ?_
      intro e he same turn
      rw [List.inj_on_of_nodup_map h.numbers he hc same, waits] at turn
      cases turn
  · exact attended d hd key phase

theorem Sound.settle_passOn (h : t.Sound) (there : t.caller? n = some c) (turn : c.phase.hasTurn = true)
    (o : Outcome ε α) : ((t.settle n o).passOn c.key).Sound where
  toConsistent := (h.toConsistent.settle (h.lt_next there) (h.unsettled there) o).passOn (h.free_settle there turn)
  attended q := by
    by_cases same : c.key = q
    · rw [← same]
      exact attended_passOn_self c.key
    · refine (h.toConsistent.settle (h.lt_next there) (h.unsettled there) o).attended_passOn c.key ?_
      intro d hd key phase
      exact h.isBusy_settle there (h.attended q d (mem_settle.mp hd).1 key phase) fun key => absurd key same

theorem Sound.settle (h : t.Sound) (there : t.caller? n = some c) (turn : c.phase.hasTurn = false) (o : Outcome ε α) :
    (t.settle n o).Sound where
  toConsistent := h.toConsistent.settle (h.lt_next there) (h.unsettled there) o
  attended q d hd key phase :=
    h.isBusy_settle there (h.attended q d (mem_settle.mp hd).1 key phase) fun _ => turn

theorem Sound.withFewer {cache : Cache α} (h : t.Sound) (sound : cache.Sound)
    (fewer : ∀ e ∈ cache.entries, e ∈ t.cache.entries) : Sound { t with cache } :=
  ⟨h.toConsistent.withFewer sound fewer, h.attended⟩

theorem Sound.succ (h : t.Sound) : Sound { t with next := t.next + 1 } := ⟨h.toConsistent.succ, h.attended⟩

theorem Sound.countHit (h : t.Sound) : Sound { t with cache := t.cache.countHit } :=
  h.withFewer ⟨h.cache.epoch, h.cache.keys, h.cache.log⟩ fun _ he => he

private theorem Sound.look (h : t.Sound) (v : α) :
    Sound { t.settle t.next (.value v false) with cache := t.cache.countHit, next := t.next + 1 } := by
  have sound := h.succ.countHit
  have absent : (t.leave t.next).callers = t.callers := by
    simp only [leave, List.filter_eq_self, Bool.not_eq_true', beq_eq_false_iff_ne]
    exact fun c hc => Nat.ne_of_lt (h.known c hc)
  refine ⟨sound.toConsistent.settle (Nat.lt_succ_self _) ?_ _, ?_⟩
  · exact fun e he => Nat.ne_of_lt (h.settled e he).1
  · intro k c hc key phase
    change c ∈ (t.leave t.next).callers at hc
    change (t.leave t.next).callers.any _ = true
    rw [absent] at hc ⊢
    exact h.attended k c hc key phase

private theorem Sound.ask (h : t.Sound) (k : Key) :
    Sound { t.enter ⟨t.next, k, .asking⟩ with next := t.next + 1 } := by
  refine h.succ.enter ?_ ?_ (fun waits => by cases waits)
  · exact h.succ.toConsistent.enter (Nat.lt_succ_self _) (fun e he => Nat.ne_of_lt (h.settled e he).1)
      (fun turn => by cases turn) (fun _ compiles => by cases compiles)
  · exact fun d hd same => absurd same (Nat.ne_of_lt (h.known d hd))

private theorem Sound.wait (h : t.Sound) (there : t.caller? n = some ⟨n, k, .asking⟩) (busy : t.isBusy k = true) :
    (t.enter ⟨n, k, .waiting⟩).Sound := by
  refine h.enter ?_ ?_ (fun _ => busy)
  · exact h.toConsistent.enter (h.lt_next there) (h.unsettled there) (fun turn => by cases turn)
      (fun _ compiles => by cases compiles)
  · intro d hd same turn
    obtain ⟨ha, -⟩ := mem_of_caller? there
    rw [List.inj_on_of_nodup_map h.numbers hd ha same] at turn
    cases turn

/-- Whoever is ready is the only one who can have the turn of its key. -/
private theorem Sound.alone {p : Phase} (h : t.Sound) (there : t.caller? n = some ⟨n, k, p⟩)
    (ready : p.isReady = true) (free : p = .asking → t.isBusy k = false) (hd : d ∈ t.callers) (key : d.key = k)
    (turn : d.phase.hasTurn = true) : d.number = n := by
  obtain ⟨ha, -⟩ := mem_of_caller? there
  cases p with
  | asking =>
    have busy := isBusy_iff.mpr ⟨d, hd, key, turn⟩
    rw [free rfl] at busy
    cases busy
  | woken => exact congrArg Caller.number (h.turn d hd _ ha key turn rfl)
  | waiting => cases ready
  | compiling _ => cases ready

private theorem Sound.begin {p : Phase} (h : t.Sound) (there : t.caller? n = some ⟨n, k, p⟩)
    (ready : p.isReady = true) (free : p = .asking → t.isBusy k = false) (missed : t.cache.lookup? k = none) :
    Sound { t.enter ⟨n, k, .compiling (t.cache.begin k).1⟩ with cache := (t.cache.begin k).2 } := by
  have sound : Sound { t with cache := (t.cache.begin k).2 } :=
    h.withFewer ⟨h.cache.epoch, h.cache.keys, h.cache.log⟩ fun _ he => he
  refine sound.enter ?_ ?_ (fun waits => by cases waits)
  · refine sound.toConsistent.enter (h.lt_next there) (h.unsettled there) ?_ ?_
    · intro _ d hd other key
      rw [Bool.eq_false_iff]
      exact fun turn => other (h.alone there ready free hd key turn)
    · rintro _ ⟨⟩
      exact ⟨rfl, missed⟩
  · intro d hd same turn
    obtain ⟨ha, -⟩ := mem_of_caller? there
    rw [List.inj_on_of_nodup_map h.numbers hd ha same]
    exact ⟨rfl, rfl⟩

private theorem Sound.take {p : Phase} (h : t.Sound) (there : t.caller? n = some ⟨n, k, p⟩)
    (ready : p.isReady = true) (free : p = .asking → t.isBusy k = false) (v : α) :
    Sound { (t.settle n (.value v false)).passOn k with cache := t.cache.countHit } := by
  rw [← settle_passOn_withCache]
  cases p with
  | woken => exact h.countHit.settle_passOn there rfl _
  | asking =>
    -- an asking caller has no turn of its own, and nobody else has one
    have sound : (Traffic.settle { t with cache := t.cache.countHit } n (.value v false)).Sound :=
      h.countHit.settle there rfl _
    have nobody : (Traffic.settle { t with cache := t.cache.countHit } n (.value v false)).isBusy k = false := by
      rw [Bool.eq_false_iff]
      intro busy
      obtain ⟨d, hd, key, turn⟩ := isBusy_iff.mp busy
      have still := isBusy_iff.mpr ⟨d, (mem_settle.mp hd).1, key, turn⟩
      rw [show isBusy { t with cache := t.cache.countHit } k = false from free rfl] at still
      cases still
    refine ⟨sound.toConsistent.passOn nobody, fun q => ?_⟩
    exact sound.toConsistent.attended_passOn k (sound.attended q)
  | waiting => cases ready
  | compiling _ => cases ready

private theorem Sound.finish [Dependent α] {ticket : Ticket} (h : t.Sound)
    (there : t.caller? n = some ⟨n, k, .compiling ticket⟩) (v : α) :
    Sound { (t.settle n (.value v true)).passOn ticket.key with cache := t.cache.finish ticket v } := by
  obtain ⟨ha, -⟩ := mem_of_caller? there
  obtain ⟨key, missed⟩ : ticket.key = k ∧ t.cache.lookup? k = none := h.compiling _ ha ticket rfl
  subst key
  have ended := h.settle_passOn there rfl (.value v true)
  have sound := sound_finish h.cache missed v
  -- the new value comes in when nobody compiles for its key any more
  refine ⟨ended.toConsistent.withCache sound ?_, ended.attended⟩
  intro c hc other compiles
  rcases mem_passOn hc with held | ⟨d, -, rfl⟩
  · obtain ⟨older, number⟩ := mem_settle.mp held
    have turn : c.phase.hasTurn = true := by rw [compiles]; rfl
    have apart : c.key ≠ ticket.key := fun same =>
      number (congrArg Caller.number (h.turn c older _ ha same turn rfl))
    rw [sound.lookup?_eq_none_iff]
    intro e he
    rcases (h.cache.mem_finish missed).mp he with ⟨-, rfl⟩ | old
    · exact Ne.symm apart
    · exact h.cache.lookup?_eq_none_iff.mp (h.compiling c older other compiles).2 e old
  · cases compiles

theorem Sound.step [Dependent α] (h : t.Sound) (e : Event ε α) : (t.step e).Sound := by
  have move := move_step t e
  generalize t.step e = t' at move
  cases move with
  | look _ => exact h.look _
  | ask _ => exact h.ask _
  | wait there busy => exact h.wait there busy
  | take there ready free _ => exact h.take there ready free _
  | begin there ready free missed => exact h.begin there ready free missed
  | finish v there => exact h.finish there v
  | fail e there =>
    obtain ⟨ha, -⟩ := mem_of_caller? there
    have key := (h.compiling _ ha _ rfl).1
    rw [key]
    exact h.settle_passOn there rfl _
  | drop there turn => exact h.settle_passOn there turn _
  | giveUp there turn => exact h.settle there turn _
  | still _ => exact h
  | idle _ _ => exact h
  | gone _ => exact h
  | invalidate k => exact h.withFewer (sound_invalidate h.cache k) fun e he => (mem_invalidate.mp he).1
  | invalidateDependents k =>
    exact h.withFewer (sound_invalidateDependents h.cache k) fun e he =>
      (h.cache.mem_invalidateDependents.mp he).1
  | change k => exact h.withFewer (sound_change h.cache k) fun e he => (h.cache.mem_change.mp he).1
  | clear => exact h.withFewer (sound_clear h.cache) fun e he => absurd he List.not_mem_nil

theorem Sound.run [Dependent α] (h : t.Sound) (events : List (Event ε α)) : (t.run events).Sound := by
  induction events generalizing t with
  | nil => exact h
  | cons e rest ih => exact ih (h.step e)

end Pageweave.Cache.Traffic
