import Pageweave.Proofs.Cache.Schedule
/-!
# Which compiles are stored

A compile that ends well is stored exactly if nothing happened since it began that concerns its value. Whoever compiled
gets the value in any case.
-/
namespace Pageweave.Cache.Schedule

variable {ε α : Type} [Dependent α] {s : Schedule ε α} {i j w : Nat} {k : Key} {v : α}

theorem Compiles.cache_succ (h : s.Compiles w k v i j) :
    (s.state (j + 1)).cache = (s.state j).cache.finish ((s.state i).cache.begin k).1 v := by
  rw [state_succ_of_some h.ends]
  simp only [Traffic.step, Traffic.finish, h.ticket?, Traffic.cache_passOn]
  rfl

theorem Compiles.missed (h : s.Compiles w k v i j) : (s.state j).cache.lookup? k = none := lookup?_of_ticket? h.ticket?

theorem Compiles.receives (h : s.Compiles w k v i j) : s.Receives j w (.value v true) := by
  have before := outcome?_of_ticket? h.ticket?
  refine ⟨before, ?_⟩
  rw [state_succ_of_some h.ends]
  simp only [Traffic.step, Traffic.finish, h.ticket?]
  have more : (((s.state j).settle w (.value v true)).passOn k).outcomes =
      (s.state j).outcomes ++ [(w, .value v true)] := Traffic.outcomes_passOn
  rw [Traffic.settle_passOn_withCache]
  refine (Traffic.outcome?_append (t := s.state j) more).trans ?_
  simp [before]

theorem Compiles.isCurrent_iff (h : s.Compiles w k v i j) :
    (s.state j).cache.isCurrent ((s.state i).cache.begin k).1 v = true ↔
      k ∉ s.invalidations i j ∧ (¬∃ m, i ≤ m ∧ m < j ∧ s.Clears m) ∧
        (∀ q ∈ s.invalidations i j, dependsOn v q = false) ∧ (s.invalidations i j).length ≤ Log.capacity :=
  (elapsed_of_begins h.begins h.before).isCurrent_iff (s.sound i).cache

theorem Compiles.stored_iff_isCurrent (h : s.Compiles w k v i j) :
    (s.state (j + 1)).cache.lookup? k = some v ↔
      (s.state j).cache.isCurrent ((s.state i).cache.begin k).1 v = true := by
  have before := (s.sound j).cache
  have nothing := before.lookup?_eq_none_iff.mp h.missed
  have epoch : ((s.state j).cache.finish ((s.state i).cache.begin k).1 v).epoch = (s.state j).cache.epoch :=
    (elapsed_finish _ _ v).epoch.mpr not_false
  rw [(s.sound (j + 1)).cache.lookup?_eq_some_iff, h.cache_succ, before.mem_finish h.missed, epoch]
  constructor
  · rintro (⟨current, -⟩ | older)
    · exact current
    · exact absurd rfl (nothing _ older)
  · exact fun current => .inl ⟨current, rfl⟩

/-- A value that a compile ends with is stored exactly if since the beginning its key was not invalidated, the cache not
cleared, nothing the value depends on invalidated, and no more than 1024 keys invalidated in all. Otherwise the entries
stay as they are. The caller gets the value either way. -/
theorem stored_iff_untouched (compiles : s.Compiles w k v i j) :
    ((s.state (j + 1)).cache.lookup? k = some v ↔
      k ∉ s.invalidations i j ∧ (¬∃ m, i ≤ m ∧ m < j ∧ s.Clears m) ∧
        (∀ q ∈ s.invalidations i j, dependsOn v q = false) ∧ (s.invalidations i j).length ≤ 1024) ∧
    ((s.state (j + 1)).cache.lookup? k ≠ some v →
      (s.state (j + 1)).cache.entries = (s.state j).cache.entries) ∧
    s.Receives j w (.value v true) := by
  refine ⟨compiles.stored_iff_isCurrent.trans compiles.isCurrent_iff, ?_, compiles.receives⟩
  intro notStored
  have outdated : ¬(s.state j).cache.isCurrent ((s.state i).cache.begin k).1 v = true :=
    fun current => notStored (compiles.stored_iff_isCurrent.mpr current)
  rw [compiles.cache_succ, finish_eq, if_neg outdated]

/-- A value that is no more than the keys it depends on. -/
instance : Dependent (List Key) := ⟨fun keys k => keys.contains k⟩

/-- A page is compiled twice: what it depends on changes during the first compile, something else during the second. -/
def reload : Schedule String (List Key) :=
  ofList [.call ⟨"page"⟩, .go 0, .change ⟨"part"⟩, .finish 0 (.ok [⟨"part"⟩]), .call ⟨"page"⟩, .go 1,
    .change ⟨"other"⟩, .finish 1 (.ok [⟨"part"⟩]), .call ⟨"page"⟩]

theorem reload_stores_second_compile :
    reload.Compiles 0 ⟨"page"⟩ [⟨"part"⟩] 1 3 ∧ (reload.state 4).cache.entries = (reload.state 3).cache.entries ∧
      reload.Compiles 1 ⟨"page"⟩ [⟨"part"⟩] 5 7 ∧ (reload.state 8).cache.lookup? ⟨"page"⟩ = some [⟨"part"⟩] := by
  have first : reload.Compiles 0 ⟨"page"⟩ [⟨"part"⟩] 1 3 := ⟨⟨rfl, _, rfl, rfl⟩, by decide, rfl, rfl⟩
  have second : reload.Compiles 1 ⟨"page"⟩ [⟨"part"⟩] 5 7 := ⟨⟨rfl, _, rfl, rfl⟩, by decide, rfl, rfl⟩
  refine ⟨first, (stored_iff_untouched first).2.1 (by decide), second, (stored_iff_untouched second).1.mpr ?_⟩
  refine ⟨by decide, ?_, by decide, by decide⟩
  rintro ⟨m, after, before, clears⟩
  obtain rfl | rfl : m = 5 ∨ m = 6 := by omega
  · cases clears
  · cases clears

end Pageweave.Cache.Schedule
