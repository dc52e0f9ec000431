import Mathlib.Data.Finset.Card
import Pageweave.Proofs.Cache.Storing
/-!
# Flushes

A flush reports changed keys one after the other. A report takes out the entries that it concerns and no others, also
where entries depend on each other, so what is left after a flush is what none of its keys concerns, whatever their order.
A compile that was under way before the flush is not stored if one of the keys concerns it.
-/
namespace Pageweave.Cache

variable {ε α : Type} [Dependent α]

/-- An entry that none of the keys concerns: neither its own key nor one that its value depends on is among them. -/
def Entry.IsSpared (e : Entry α) (K : Finset Key) : Prop := e.key ∉ K ∧ ∀ q ∈ K, dependsOn e.value q = false

instance (e : Entry α) (K : Finset Key) : Decidable (e.IsSpared K) := inferInstanceAs (Decidable (_ ∧ _))

/-- Reports keys one after the other. -/
def Traffic.flush (t : Traffic ε α) (ks : List Key) : Traffic ε α := t.run (ks.map .change)

variable {c : Cache α} {k : Key} {v : α} {ks : List Key} {K : Finset Key}

omit [Dependent α] in
theorem entries_foldl_invalidate (c : Cache α) (ks : List Key) :
    (ks.foldl invalidate c).entries = c.entries.filter fun e => decide (e.key ∉ ks) := by
  induction ks generalizing c with
  | nil => simp
  | cons k ks ih =>
    rw [List.foldl_cons, ih, invalidate, List.filter_filter]
    apply List.filter_congr
    intro e _
    simp [Bool.and_comm, beq_eq_decide]

theorem Sound.entries_change (h : c.Sound) (k : Key) :
    (c.change k).entries = c.entries.filter fun e => decide (e.IsSpared {k}) := by
  rw [change, invalidateDependents, entries_foldl_invalidate, invalidate, List.filter_filter]
  apply List.filter_congr
  intro e there
  by_cases own : e.key = k
  · simp [Entry.IsSpared, own]
  · have still : e ∈ (c.invalidate k).entries := mem_invalidate.mpr ⟨there, own⟩
    have kept : e.key ∉ (c.invalidate k).dependents k ↔ dependsOn e.value k = false := by
      have remains := (sound_invalidate h k).mem_invalidateDependents (k := k) (e := e)
      rw [invalidateDependents, mem_foldl_invalidate] at remains
      simpa [still] using remains
    rw [invalidate] at kept
    simp [Entry.IsSpared, own, ← kept]

theorem sound_foldl_change (h : c.Sound) (ks : List Key) : (ks.foldl change c).Sound := by
  induction ks generalizing c with
  | nil => exact h
  | cons k ks ih => exact ih (sound_change h k)

/-- Only which keys are reported counts, not how often nor in which order. -/
theorem Sound.entries_foldl_change (h : c.Sound) (ks : List Key) :
    (ks.foldl change c).entries = c.entries.filter fun e => decide (e.IsSpared ks.toFinset) := by
  induction ks generalizing c with
  | nil => simp [Entry.IsSpared]
  | cons k ks ih =>
    rw [List.foldl_cons, ih (sound_change h k), h.entries_change, List.filter_filter]
    apply List.filter_congr
    intro e _
    rw [Bool.eq_iff_iff]
    simp [Entry.IsSpared]
    tauto

theorem epoch_foldl_change (c : Cache α) (ks : List Key) : (ks.foldl change c).epoch = c.epoch := by
  induction ks generalizing c with
  | nil => rfl
  | cons k ks ih =>
    have once : (c.change k).epoch = c.epoch :=
      ((elapsed_invalidate c k).trans (elapsed_foldl_invalidate _ _)).epoch.mpr (by simp)
    rw [List.foldl_cons, ih, once]

theorem Sound.lookup?_foldl_change (h : c.Sound) (ks : List Key) :
    (ks.foldl change c).lookup? k = some v ↔
      c.lookup? k = some v ∧ k ∉ ks.toFinset ∧ ∀ q ∈ ks.toFinset, dependsOn v q = false := by
  rw [(sound_foldl_change h ks).lookup?_eq_some_iff, h.lookup?_eq_some_iff, h.entries_foldl_change, epoch_foldl_change]
  simp [Entry.IsSpared]

namespace Traffic

variable {t : Traffic ε α} {w : Nat} {ticket : Ticket}

theorem cache_flush (t : Traffic ε α) (ks : List Key) : (t.flush ks).cache = ks.foldl change t.cache := by
  unfold flush
  induction ks generalizing t with
  | nil => rfl
  | cons k ks ih => exact ih (t.step (.change k))

end Traffic

namespace Schedule

variable {s : Schedule ε α} {events : List (Event ε α)} {i j w : Nat} {ticket : Ticket}

/-- A compile is not stored if a key that concerns it was reported while it was under way. -/
theorem Compiles.entries_of_changed {q : Key} (h : s.Compiles w k v i j)
    (changed : ∃ m, i ≤ m ∧ m < j ∧ s.event m = some (.change q)) (concerned : q = k ∨ dependsOn v q = true) :
    (s.state (j + 1)).cache.entries = (s.state j).cache.entries := by
  obtain ⟨m, after, before, reported⟩ := changed
  have invalidated : q ∈ s.invalidations i j := by
    refine mem_invalidations.mpr ⟨m, after, before, ?_⟩
    simp [Schedule.invalidated, reported, Event.invalidates]
  have outdated : ¬(s.state j).cache.isCurrent ((s.state i).cache.begin k).1 v = true := by
    intro current
    obtain ⟨own, -, independent, -⟩ := h.isCurrent_iff.mp current
    rcases concerned with rfl | depends
    · exact own invalidated
    · rw [independent q invalidated] at depends
      cases depends
  rw [h.cache_succ, finish_eq, if_neg outdated]

theorem entries_of_flushed {q : Key} (compiles : (Traffic.run {} events).ticket? w = some ticket) (reported : q ∈ ks)
    (concerned : q = ticket.key ∨ dependsOn v q = true) (later : List (Event ε α)) :
    ((((Traffic.run {} events).flush ks).run later).step (.finish w (.ok v))).cache.entries =
      (((Traffic.run {} events).flush ks).run later).cache.entries := by
  let before := events ++ (ks.map .change ++ later)
  let s : Schedule ε α := ofList (before ++ [.finish w (.ok v)])
  have first : s.state events.length = Traffic.run {} events := by
    have whole : before ++ [.finish w (.ok v)] = events ++ (ks.map .change ++ later ++ [.finish w (.ok v)]) :=
      List.append_assoc _ _ _
    change (ofList (before ++ [.finish w (.ok v)])).state events.length = _
    rw [whole, state_ofList_append]
  have last : s.state before.length = ((Traffic.run {} events).flush ks).run later := by
    rw [state_ofList_append]
    simp [before, Traffic.run, Traffic.flush]
  have ends : s.event before.length = some (.finish w (.ok v)) := by simp [s, ofList]
  rw [← last, ← state_succ_of_some ends]
  rw [← first] at compiles
  have order : events.length ≤ before.length := by simp [before]
  rcases ticket?_or_outcome? compiles order with still | ⟨o, got⟩
  · obtain ⟨i, earlier, begins, -⟩ := begins_of_ticket? compiles
    have done : s.Compiles w ticket.key v i before.length :=
      ⟨begins, Nat.lt_of_lt_of_le earlier order, by rw [still]; rfl, ends⟩
    obtain ⟨n, place, rfl⟩ := List.getElem_of_mem reported
    refine done.entries_of_changed ⟨events.length + n, by omega, ?_, ?_⟩ concerned
    · simp [before]
      omega
    · have inside : n < (ks.map (Event.change (ε := ε) (α := α))).length := by simpa using place
      simp [s, ofList, before, List.getElem?_append_right, List.getElem?_append_left, place]
  · have gone : (s.state before.length).ticket? w = none := by
      cases still : (s.state before.length).ticket? w with
      | none => rfl
      | some ticket' =>
        rw [outcome?_of_ticket? still] at got
        cases got
    rw [state_succ_of_some ends]
    simp only [Traffic.step, Traffic.finish, gone]

/-- A flush leaves exactly the entries that none of its keys concerns, each as it was, whatever the order of the keys and
whether they are reported at once or in two parts. No compile that was under way before the flush is stored afterwards
if its key is one of them or its value depends on one. -/
theorem flush_removes_affected (events : List (Event ε α)) (K : Finset Key) :
    let t := Traffic.run {} events
    (∀ ks : List Key, ks.toFinset = K →
      (t.flush ks).cache.entries = t.cache.entries.filter (fun e => decide (e.IsSpared K)) ∧
      (∀ k v, (t.flush ks).cache.lookup? k = some v ↔
        t.cache.lookup? k = some v ∧ k ∉ K ∧ ∀ q ∈ K, dependsOn v q = false) ∧
      ∀ w ticket v, t.ticket? w = some ticket → (ticket.key ∈ K ∨ ∃ q ∈ K, dependsOn v q = true) →
        ∀ later, (((t.flush ks).run later).step (.finish w (.ok v))).cache.entries =
          ((t.flush ks).run later).cache.entries) ∧
    ∀ ks ls : List Key, ks.toFinset ∪ ls.toFinset = K →
      ((t.flush ks).flush ls).cache.entries = t.cache.entries.filter fun e => decide (e.IsSpared K) := by
  intro t
  have sound : t.cache.Sound := (Traffic.sound_empty.run events).cache
  constructor
  · rintro ks rfl
    rw [Traffic.cache_flush]
    refine ⟨sound.entries_foldl_change ks, fun k v => sound.lookup?_foldl_change ks, ?_⟩
    rintro w ticket v compiles (own | ⟨q, reported, depends⟩) later
    · exact entries_of_flushed compiles (List.mem_toFinset.mp own) (.inl rfl) later
    · exact entries_of_flushed compiles (List.mem_toFinset.mp reported) (.inr depends) later
  · rintro ks ls rfl
    rw [Traffic.cache_flush, Traffic.cache_flush, ← List.foldl_append, ← List.toFinset_append]
    exact sound.entries_foldl_change (ks ++ ls)

/-- Three pages are cached, one of them built from another, and a fourth is being compiled. -/
def shelf : List (Event String (List Key)) :=
  [.call ⟨"page"⟩, .go 0, .finish 0 (.ok [⟨"part"⟩]), .call ⟨"part"⟩, .go 1, .finish 1 (.ok []),
    .call ⟨"plain"⟩, .go 2, .finish 2 (.ok []), .call ⟨"index"⟩, .go 3]

theorem shelf_flush_removes_affected :
    ((Traffic.run {} shelf).flush [⟨"page"⟩, ⟨"part"⟩]).cache.entries = [⟨⟨"plain"⟩, [], 0⟩] ∧
      (((Traffic.run {} shelf).flush [⟨"part"⟩]).flush [⟨"page"⟩]).cache.entries = [⟨⟨"plain"⟩, [], 0⟩] ∧
      (Traffic.run {} shelf).ticket? 3 = some ⟨⟨"index"⟩, 0, 0, 0⟩ ∧
      ((((Traffic.run {} shelf).flush [⟨"page"⟩, ⟨"part"⟩]).run []).step (.finish 3 (.ok [⟨"page"⟩]))).cache.entries =
        [⟨⟨"plain"⟩, [], 0⟩] := by
  obtain ⟨once, parts⟩ := flush_removes_affected shelf {⟨"page"⟩, ⟨"part"⟩}
  obtain ⟨left, -, compiling⟩ := once [⟨"page"⟩, ⟨"part"⟩] (by decide)
  have spared : ((Traffic.run {} shelf).cache.entries.filter fun e => decide (e.IsSpared {⟨"page"⟩, ⟨"part"⟩})) =
      [⟨⟨"plain"⟩, [], 0⟩] := rfl
  have compiles : (Traffic.run {} shelf).ticket? 3 = some ⟨⟨"index"⟩, 0, 0, 0⟩ := by decide
  refine ⟨left.trans spared, (parts [⟨"part"⟩] [⟨"page"⟩] (by decide)).trans spared, compiles, ?_⟩
  exact (compiling 3 _ [⟨"page"⟩] compiles (.inr ⟨⟨"page"⟩, by decide, by decide⟩) []).trans (left.trans spared)

end Schedule
end Pageweave.Cache
