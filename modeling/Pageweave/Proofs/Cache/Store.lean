import Mathlib.Data.List.Nodup
import Mathlib.Tactic.Tauto
import Pageweave.Cache.Store
import Pageweave.Proofs.Cache.Log
/-!
# What the cache keeps

A sound cache holds each key at most once and nothing from before it was last cleared. Each operation is described by
the entries that remain. What happens to a cache between two moments is the list of invalidated keys and the number of
times it was cleared; a ticket from the first moment is still good at the second exactly if these do not concern it.
-/
namespace Pageweave.Cache

variable {α : Type} {c d : Cache α} {k q : Key} {v : α} {e : Entry α}

structure Sound (c : Cache α) : Prop where
  epoch : ∀ e ∈ c.entries, e.epoch = c.epoch
  keys : (c.entries.map Entry.key).Nodup
  log : ∃ ks, c.log.Records ks

theorem sound_empty : Sound ({} : Cache α) :=
  ⟨fun _ none_there => absurd none_there List.not_mem_nil, List.nodup_nil, [], Log.records_nil⟩

theorem Sound.unique (h : c.Sound) {f : Entry α} (he : e ∈ c.entries) (hf : f ∈ c.entries) (same : e.key = f.key) :
    e = f :=
  List.inj_on_of_nodup_map h.keys he hf same

theorem Sound.mem_of_lookup? (h : c.Sound) (found : c.lookup? k = some v) : ⟨k, v, c.epoch⟩ ∈ c.entries := by
  unfold lookup? at found
  obtain ⟨e, current, rfl⟩ := Option.map_eq_some_iff.mp found
  obtain ⟨there, -⟩ := Option.filter_eq_some_iff.mp current
  have held := List.mem_of_find?_eq_some there
  have key : e.key = k := by simpa using List.find?_some there
  rw [← key, ← h.epoch e held]
  exact held

theorem Sound.lookup?_of_mem (h : c.Sound) (he : e ∈ c.entries) : c.lookup? e.key = some e.value := by
  cases there : c.entries.find? fun f => f.key == e.key with
  | none =>
    have missing := List.find?_eq_none.mp there e he
    simp at missing
  | some f =>
    have same : f.key = e.key := by simpa using List.find?_some there
    have one := h.unique (List.mem_of_find?_eq_some there) he same
    simp [lookup?, there, one, h.epoch e he]

theorem Sound.lookup?_eq_some_iff (h : c.Sound) : c.lookup? k = some v ↔ ⟨k, v, c.epoch⟩ ∈ c.entries :=
  ⟨h.mem_of_lookup?, h.lookup?_of_mem⟩

theorem Sound.lookup?_eq_none_iff (h : c.Sound) : c.lookup? k = none ↔ ∀ e ∈ c.entries, e.key ≠ k := by
  constructor
  · intro missing e he same
    rw [← same, h.lookup?_of_mem he] at missing
    simp at missing
  · intro missing
    rw [Option.eq_none_iff_forall_ne_some]
    intro v found
    exact missing _ (h.mem_of_lookup? found) rfl

theorem mem_place {es : List (Entry α)} {f : Entry α} (absent : ∀ g ∈ es, g.key ≠ e.key) :
    f ∈ place e es ↔ f = e ∨ f ∈ es := by
  induction es with
  | nil => simp [place]
  | cons g rest ih =>
    have other : e.key ≠ g.key := fun same => absent g List.mem_cons_self same.symm
    have later : f ∈ place e rest ↔ f = e ∨ f ∈ rest := ih fun g' hg' => absent g' (List.mem_cons_of_mem _ hg')
    unfold place
    rw [if_neg other]
    split
    · simp
    · simp only [List.mem_cons, later]
      tauto

theorem nodup_place {es : List (Entry α)} (absent : ∀ g ∈ es, g.key ≠ e.key) (h : (es.map Entry.key).Nodup) :
    ((place e es).map Entry.key).Nodup := by
  induction es with
  | nil => simp [place]
  | cons g rest ih =>
    have other : e.key ≠ g.key := fun same => absent g List.mem_cons_self same.symm
    have apart : ∀ g' ∈ rest, g'.key ≠ e.key := fun g' hg' => absent g' (List.mem_cons_of_mem _ hg')
    obtain ⟨first, distinct⟩ := List.nodup_cons.mp h
    unfold place
    rw [if_neg other]
    split
    · simp only [List.map_cons, List.nodup_cons, List.mem_cons, not_or]
      refine ⟨⟨other, ?_⟩, first, distinct⟩
      intro listed
      obtain ⟨g', hg', same⟩ := List.mem_map.mp listed
      exact apart g' hg' same
    · simp only [List.map_cons, List.nodup_cons]
      refine ⟨?_, ih apart distinct⟩
      intro listed
      obtain ⟨g', hg', same⟩ := List.mem_map.mp listed
      rcases (mem_place apart).mp hg' with rfl | older
      · exact other same
      · exact first (List.mem_map.mpr ⟨g', older, same⟩)

theorem mem_invalidate : e ∈ (c.invalidate k).entries ↔ e ∈ c.entries ∧ e.key ≠ k := by
  simp [invalidate]

theorem mem_foldl_invalidate (ks : List Key) :
    e ∈ (ks.foldl invalidate c).entries ↔ e ∈ c.entries ∧ e.key ∉ ks := by
  induction ks generalizing c with
  | nil => simp
  | cons k ks ih =>
    rw [List.foldl_cons, ih, mem_invalidate, List.mem_cons, not_or, and_assoc]

theorem stats_foldl_invalidate (c : Cache α) (ks : List Key) : (ks.foldl invalidate c).stats = c.stats := by
  induction ks generalizing c with
  | nil => rfl
  | cons k ks ih => exact ih (c.invalidate k)

theorem sound_invalidate (h : c.Sound) (k : Key) : (c.invalidate k).Sound := by
  obtain ⟨ks, recorded⟩ := h.log
  refine ⟨?_, ?_, ks ++ [k], Log.records_record recorded k⟩
  · intro e he
    exact h.epoch e (mem_invalidate.mp he).1
  · exact h.keys.sublist (List.filter_sublist.map _)

theorem sound_foldl_invalidate (h : c.Sound) (ks : List Key) : (ks.foldl invalidate c).Sound := by
  induction ks generalizing c with
  | nil => exact h
  | cons k ks ih => exact ih (sound_invalidate h k)

theorem sound_clear (h : c.Sound) : c.clear.Sound :=
  ⟨fun _ none_there => absurd none_there List.not_mem_nil, List.nodup_nil, h.log⟩

theorem Sound.lookup?_eq_none_of_subset (hc : c.Sound) (hd : d.Sound) (less : ∀ e ∈ d.entries, e ∈ c.entries)
    (missed : c.lookup? k = none) : d.lookup? k = none :=
  hd.lookup?_eq_none_iff.mpr fun e he => hc.lookup?_eq_none_iff.mp missed e (less e he)

/-- From one state of a cache to a later one these keys were invalidated, in this order, and it was cleared or not. -/
structure Elapsed (c d : Cache α) (ks : List Key) (cleared : Prop) : Prop where
  log : ∀ old, c.log.Records old → d.log.Records (old ++ ks)
  generation : ∀ k g, c.generation? k = some g → d.generation? k = some (g + ks.count k)
  epoch_le : c.epoch ≤ d.epoch
  epoch : d.epoch = c.epoch ↔ ¬cleared

theorem elapsed_of_eq (log : d.log = c.log) (generations : d.generations = c.generations)
    (epoch : d.epoch = c.epoch) : Elapsed c d [] False :=
  ⟨fun old h => by simpa [log] using h, fun k g h => by simpa [generation?, generations] using h,
    Nat.le_of_eq epoch.symm, by simp [epoch]⟩

theorem Elapsed.trans {b : Cache α} {ks ls : List Key} {p q : Prop} (h : Elapsed b c ks p) (h' : Elapsed c d ls q) :
    Elapsed b d (ks ++ ls) (p ∨ q) := by
  refine ⟨?_, ?_, Nat.le_trans h.epoch_le h'.epoch_le, ?_⟩
  · intro old recorded
    rw [← List.append_assoc]
    exact h'.log _ (h.log old recorded)
  · intro k g counted
    rw [h'.generation k _ (h.generation k g counted), List.count_append, Nat.add_assoc]
  · have first := h.epoch_le
    have second := h'.epoch_le
    rw [not_or, ← h.epoch, ← h'.epoch]
    omega

theorem Elapsed.congr {ks : List Key} {p q : Prop} (h : Elapsed c d ks p) (same : p ↔ q) : Elapsed c d ks q :=
  ⟨h.log, h.generation, h.epoch_le, h.epoch.trans (not_congr same)⟩

private theorem generations_begin (c : Cache α) (k : Key) : (c.begin k).2.generations =
    if (c.generation? k).isSome then c.generations else c.generations ++ [(k, 0)] := rfl

private theorem generation?_begin {g : Nat} (counted : c.generation? q = some g) :
    (c.begin k).2.generation? q = some g := by
  obtain ⟨e, found, rfl⟩ := Option.map_eq_some_iff.mp counted
  rw [generation?, generations_begin]
  split
  · simp [found]
  · simp [found]

private theorem generation?_begin_self (c : Cache α) (k : Key) :
    (c.begin k).2.generation? k = some (c.generation k) := by
  cases counted : c.generation? k with
  | some g => simp [generation?_begin counted, generation, counted]
  | none =>
    have missing : (c.generations.find? fun e => e.1 == k) = none := Option.map_eq_none_iff.mp counted
    rw [generation?, generations_begin]
    simp [generation, counted, missing]

theorem elapsed_begin (c : Cache α) (k : Key) : Elapsed c (c.begin k).2 [] False :=
  ⟨fun old h => by simpa [begin] using h, fun _ _ => generation?_begin, Nat.le_refl _, by simp [begin]⟩

private theorem generation?_invalidate (c : Cache α) (k q : Key) :
    (c.invalidate k).generation? q = (c.generation? q).map (· + [k].count q) := by
  have keys : (fun e : Key × Nat => (if e.1 = k then (e.1, e.2 + 1) else e).1 == q) = fun e => e.1 == q := by
    funext e
    split
    · rfl
    · rfl
  unfold invalidate generation? bump
  rw [List.find?_map, Function.comp_def, keys]
  cases found : c.generations.find? fun e => e.1 == q with
  | none => rfl
  | some e =>
    have here : e.1 = q := by simpa using List.find?_some found
    by_cases same : k = q
    · simp [here, same]
    · simp [here, same, Ne.symm same]

theorem elapsed_invalidate (c : Cache α) (k : Key) : Elapsed c (c.invalidate k) [k] False := by
  refine ⟨fun _ h => Log.records_record h k, ?_, Nat.le_refl _, by simp [invalidate]⟩
  intro q g counted
  rw [generation?_invalidate, counted]
  rfl

theorem elapsed_foldl_invalidate (c : Cache α) (ks : List Key) : Elapsed c (ks.foldl invalidate c) ks False := by
  induction ks generalizing c with
  | nil => exact elapsed_of_eq rfl rfl rfl
  | cons k ks ih => exact ((elapsed_invalidate c k).trans (ih (c.invalidate k))).congr (by simp)

theorem elapsed_clear (c : Cache α) : Elapsed c c.clear [] True :=
  ⟨fun old h => by simpa [clear] using h, fun _ _ counted => counted, Nat.le_succ _, by simp [clear]⟩

section Depending

variable [Dependent α]

theorem mem_dependents : q ∈ c.dependents k ↔ ∃ e ∈ c.entries, e.key = q ∧ dependsOn e.value k = true := by
  simp only [dependents, List.mem_map, List.mem_filter]
  tauto

theorem Sound.mem_invalidateDependents (h : c.Sound) :
    e ∈ (c.invalidateDependents k).entries ↔ e ∈ c.entries ∧ dependsOn e.value k = false := by
  rw [invalidateDependents, mem_foldl_invalidate, mem_dependents]
  constructor
  · rintro ⟨he, kept⟩
    refine ⟨he, ?_⟩
    rw [Bool.eq_false_iff]
    exact fun depends => kept ⟨e, he, rfl, depends⟩
  · rintro ⟨he, independent⟩
    refine ⟨he, ?_⟩
    rintro ⟨f, hf, same, depends⟩
    rw [h.unique hf he same, independent] at depends
    exact Bool.noConfusion depends

theorem finish_eq (c : Cache α) (t : Ticket) (v : α) : c.finish t v =
    { c with
      stats := { c.stats with compiles := c.stats.compiles + 1 },
      entries := if c.isCurrent t v then place ⟨t.key, v, c.epoch⟩ c.entries else c.entries } := by
  change (if c.isCurrent t v = true then _ else _) = _
  split
  · rfl
  · rfl

theorem Sound.mem_finish {t : Ticket} (h : c.Sound) (missed : c.lookup? t.key = none) :
    e ∈ (c.finish t v).entries ↔ c.isCurrent t v = true ∧ e = ⟨t.key, v, c.epoch⟩ ∨ e ∈ c.entries := by
  have absent : ∀ g ∈ c.entries, g.key ≠ (⟨t.key, v, c.epoch⟩ : Entry α).key := h.lookup?_eq_none_iff.mp missed
  cases current : c.isCurrent t v with
  | false => simp [finish_eq, current]
  | true => simp [finish_eq, current, mem_place absent]

theorem elapsed_finish (c : Cache α) (t : Ticket) (v : α) : Elapsed c (c.finish t v) [] False := by
  rw [finish_eq]
  exact elapsed_of_eq rfl rfl rfl

theorem sound_finish {t : Ticket} (h : c.Sound) (missed : c.lookup? t.key = none) (v : α) :
    (c.finish t v).Sound := by
  obtain ⟨ks, recorded⟩ := h.log
  have same := elapsed_finish c t v
  refine ⟨?_, ?_, ks ++ [], same.log ks recorded⟩
  · intro e he
    rw [same.epoch.mpr not_false]
    rcases (h.mem_finish missed).mp he with ⟨-, rfl⟩ | older
    · rfl
    · exact h.epoch e older
  · rw [finish_eq]
    cases c.isCurrent t v with
    | false => exact h.keys
    | true => exact nodup_place (h.lookup?_eq_none_iff.mp missed) h.keys

theorem sound_invalidateDependents (h : c.Sound) (k : Key) : (c.invalidateDependents k).Sound :=
  sound_foldl_invalidate h (c.dependents k)

theorem sound_change (h : c.Sound) (k : Key) : (c.change k).Sound :=
  sound_invalidateDependents (sound_invalidate h k) k

theorem Sound.mem_change (h : c.Sound) :
    e ∈ (c.change k).entries ↔ e ∈ c.entries ∧ e.key ≠ k ∧ dependsOn e.value k = false := by
  rw [change, (sound_invalidate h k).mem_invalidateDependents, mem_invalidate, and_assoc]

end Depending

/-- A ticket is still good exactly if neither its key nor anything the value depends on was invalidated, the cache was
not cleared, and no more invalidations came in than the log can hold. -/
theorem Elapsed.isCurrent_iff [Dependent α] {ks : List Key} {cleared : Prop} (h : Elapsed (c.begin k).2 d ks cleared)
    (sound : c.Sound) :
    d.isCurrent (c.begin k).1 v = true ↔
      k ∉ ks ∧ ¬cleared ∧ (∀ q ∈ ks, dependsOn v q = false) ∧ ks.length ≤ Log.capacity := by
  obtain ⟨old, recorded⟩ := sound.log
  have since := Log.since?_of_records (h.log old recorded) old.length
  rw [List.length_append, Nat.add_sub_cancel_left, List.drop_left] at since
  have own : (d.generation k == c.generation k) = true ↔ k ∉ ks := by
    have counted : d.generation? k = some (c.generation k + ks.count k) :=
      h.generation k _ (generation?_begin_self c k)
    rw [Cache.generation, counted, Option.getD_some, beq_iff_eq, ← List.count_eq_zero]
    omega
  have all : (d.epoch == c.epoch) = true ↔ ¬cleared := beq_iff_eq.trans h.epoch
  unfold isCurrent begin
  rw [Bool.and_eq_true, Bool.and_eq_true, own, all, recorded.next, since, and_assoc]
  refine and_congr_right fun _ => and_congr_right fun _ => ?_
  by_cases fits : ks.length ≤ Log.capacity
  · simp [fits]
  · simp [fits]

end Pageweave.Cache
