import Mathlib.Algebra.Order.BigOperators.Group.List
import Mathlib.Algebra.Order.Ring.Nat
import Pageweave.Proofs.Cache.Step
/-!
# The order of the waiting

Callers move to the end of the line only when they begin to wait, so those in front have waited longer. Callers who can
go on without anybody else do so a bounded number of times until each of those who are left waits for a compile.
-/
namespace Pageweave.Cache

/-- How often a caller may still go on by itself. -/
def Phase.work : Phase → Nat
  | .asking => 2
  | .waiting | .woken => 1
  | .compiling _ => 0

theorem Phase.work_le (p : Phase) : p.work ≤ 2 := by
  cases p <;> simp [Phase.work]

theorem Phase.work_pos {p : Phase} (ready : p.isReady = true) : 0 < p.work := by
  cases p with
  | asking => decide
  | woken => decide
  | waiting => cases ready
  | compiling _ => cases ready

namespace Traffic

variable {ε α : Type} {t : Traffic ε α} {e : Event ε α} {k : Key} {n : Nat} {c d u : Caller} {o : Outcome ε α}

/-- Does one caller stand in front of another? -/
def Precedes (t : Traffic ε α) (d u : Caller) : Prop := List.Sublist [d, u] t.callers

theorem precedes_of_longestWaiting? (longest : t.longestWaiting? k = some d) (there : u ∈ t.callers) (key : u.key = k)
    (waits : u.phase = .waiting) (other : u ≠ d) : t.Precedes d u := by
  obtain ⟨-, front, back, line, none_before⟩ := List.find?_eq_some_iff_append.mp longest
  rw [line] at there
  rcases List.mem_append.mp there with before | after
  · have missing := none_before u before
    simp [key, waits] at missing
  · have behind : u ∈ back := (List.mem_cons.mp after).resolve_left other
    unfold Precedes
    rw [line]
    exact (List.Sublist.cons_cons d (List.singleton_sublist.mpr behind)).trans (List.sublist_append_right _ _)

/-- Some callers stay in their order, and at most one new one comes behind them. -/
structure Lines (t t' : Traffic ε α) (kept new : List Caller) : Prop where
  callers : t'.callers = kept ++ new
  kept : kept.Sublist t.callers
  short : new.length ≤ 1

private theorem lines_leave (t : Traffic ε α) (n : Nat) : Lines t (t.leave n) (t.leave n).callers [] :=
  ⟨(List.append_nil _).symm, List.filter_sublist, Nat.zero_le _⟩

private theorem lines_enter (t : Traffic ε α) (c : Caller) : Lines t (t.enter c) (t.leave c.number).callers [c] :=
  ⟨rfl, List.filter_sublist, Nat.le_refl _⟩

private theorem lines_passOn (t : Traffic ε α) (k : Key) :
    ∃ kept new, Lines t (t.passOn k) kept new ∧ ∀ c ∈ new, c.phase ≠ .waiting := by
  unfold passOn
  split
  · rename_i d longest
    exact ⟨_, _, lines_enter t _, by simp⟩
  · exact ⟨t.callers, [], ⟨(List.append_nil _).symm, List.Sublist.refl _, Nat.zero_le _⟩, by simp⟩

theorem lines_step [Dependent α] (t : Traffic ε α) (e : Event ε α) :
    ∃ kept new, Lines t (t.step e) kept new ∧
      ∀ c ∈ new, c.phase = .waiting → t.caller? c.number = some { c with phase := .asking } := by
  have move := move_step t e
  generalize t.step e = t' at move
  have same {t' : Traffic ε α} (h : t'.callers = t.callers) : ∃ kept new, Lines t t' kept new ∧
      ∀ c ∈ new, c.phase = .waiting → t.caller? c.number = some { c with phase := .asking } :=
    ⟨t.callers, [], ⟨h.trans (List.append_nil _).symm, List.Sublist.refl _, Nat.zero_le _⟩, by simp⟩
  have left {t' : Traffic ε α} {n : Nat} (h : t'.callers = (t.leave n).callers) : ∃ kept new, Lines t t' kept new ∧
      ∀ c ∈ new, c.phase = .waiting → t.caller? c.number = some { c with phase := .asking } :=
    ⟨_, [], ⟨h.trans (lines_leave t n).callers, (lines_leave t n).kept, Nat.zero_le _⟩, by simp⟩
  have passed {t' : Traffic ε α} {n : Nat} {o : Outcome ε α} {k : Key}
      (h : t'.callers = ((t.settle n o).passOn k).callers) : ∃ kept new, Lines t t' kept new ∧
      ∀ c ∈ new, c.phase = .waiting → t.caller? c.number = some { c with phase := .asking } := by
    obtain ⟨kept, new, lines, idle⟩ := lines_passOn (t.settle n o) k
    exact ⟨kept, new, ⟨h.trans lines.callers, lines.kept.trans List.filter_sublist, lines.short⟩,
      fun c hc waits => absurd waits (idle c hc)⟩
  have entered {t' : Traffic ε α} {c : Caller} (h : t'.callers = (t.enter c).callers) (idle : c.phase ≠ .waiting) :
      ∃ kept new, Lines t t' kept new ∧
        ∀ c ∈ new, c.phase = .waiting → t.caller? c.number = some { c with phase := .asking } := by
    refine ⟨_, _, ⟨h.trans (lines_enter t c).callers, (lines_enter t c).kept, Nat.le_refl _⟩, ?_⟩
    intro d hd waits
    obtain rfl := List.mem_singleton.mp hd
    exact absurd waits idle
  cases move with
  | look _ => exact left rfl
  | ask _ => exact entered (c := ⟨t.next, _, .asking⟩) rfl nofun
  | @wait n k actor busy =>
    refine ⟨_, _, lines_enter t ⟨n, k, .waiting⟩, ?_⟩
    intro d hd _
    obtain rfl := List.mem_singleton.mp hd
    exact actor
  | take _ _ _ _ => exact passed rfl
  | begin _ _ _ _ => exact entered (c := ⟨_, _, .compiling _⟩) rfl nofun
  | finish _ _ => exact passed rfl
  | fail _ _ => exact passed rfl
  | drop _ _ => exact passed rfl
  | giveUp _ _ => exact left rfl
  | still _ => exact same rfl
  | idle _ _ => exact same rfl
  | gone _ => exact same rfl
  | invalidate _ => exact same rfl
  | invalidateDependents _ => exact same rfl
  | change _ => exact same rfl
  | clear => exact same rfl

theorem precedes_of_step [Dependent α] (ahead : (t.step e).Precedes d u) (waits : u.phase = .waiting) :
    t.Precedes d u ∨ t.caller? u.number = some { u with phase := .asking } := by
  obtain ⟨kept, new, lines, asked⟩ := lines_step t e
  unfold Precedes at ahead
  rw [lines.callers] at ahead
  obtain ⟨front, back, pair, front_kept, back_new⟩ := List.sublist_append_iff.mp ahead
  match front, back, pair with
  | [], [_, _], rfl =>
    have two := back_new.length_le
    have one := lines.short
    simp at two
    omega
  | [_], [_], rfl => exact .inr (asked u (List.singleton_sublist.mp back_new) waits)
  | [_, _], [], rfl => exact .inl (front_kept.trans lines.kept)

private theorem longestWaiting?_settle (longest : t.longestWaiting? k = some d) (other : d.number ≠ n) :
    (t.settle n o).longestWaiting? k = some d := by
  obtain ⟨here, front, back, line, none_before⟩ := List.find?_eq_some_iff_append.mp longest
  have left : (t.settle n o).callers =
      front.filter (fun c => !(c.number == n)) ++ d :: back.filter fun c => !(c.number == n) := by
    change t.callers.filter _ = _
    rw [line, List.filter_append, List.filter_cons_of_pos (by simpa using other)]
  exact List.find?_eq_some_iff_append.mpr ⟨here, _, _, left, fun c hc => none_before c (List.mem_of_mem_filter hc)⟩

theorem Sound.callers_step_of_turn [Dependent α] (h : t.Sound) (there : t.caller? n = some c)
    (turn : c.phase.hasTurn = true) (gone : (t.step e).caller? n = none) :
    ∃ o, (t.step e).callers = ((t.settle n o).passOn c.key).callers := by
  by_cases goes : e = .go n
  · subst goes
    have move := move_step t (.go n)
    generalize t.step (.go n) = t' at move gone
    cases move with
    | wait actor _ =>
      obtain rfl : _ = c := Option.some.inj (actor.symm.trans there)
      cases turn
    | take actor _ _ _ =>
      obtain rfl : _ = c := Option.some.inj (actor.symm.trans there)
      exact ⟨_, rfl⟩
    | begin _ _ _ _ =>
      change (t.enter _).caller? n = none at gone
      simp at gone
    | still _ =>
      rw [there] at gone
      cases gone
  by_cases ends : ∃ r, e = .finish n r
  · obtain ⟨r, rfl⟩ := ends
    have move := move_step t (.finish n r)
    generalize t.step (.finish n r) = t' at move gone
    cases move with
    | finish v actor =>
      obtain rfl : _ = c := Option.some.inj (actor.symm.trans there)
      have key := (h.compiling _ (mem_of_caller? there).1 _ rfl).1
      rw [← key]
      exact ⟨_, rfl⟩
    | fail x actor =>
      obtain rfl : _ = c := Option.some.inj (actor.symm.trans there)
      have key := (h.compiling _ (mem_of_caller? there).1 _ rfl).1
      rw [← key]
      exact ⟨_, rfl⟩
    | idle _ _ =>
      rw [there] at gone
      cases gone
  by_cases cancels : e = .cancel n
  · subst cancels
    have move := move_step t (.cancel n)
    generalize t.step (.cancel n) = t' at move gone
    cases move with
    | drop actor _ =>
      obtain rfl : _ = c := Option.some.inj (actor.symm.trans there)
      exact ⟨_, rfl⟩
    | giveUp actor idle =>
      obtain rfl : _ = c := Option.some.inj (actor.symm.trans there)
      rw [turn] at idle
      cases idle
    | gone absent =>
      rw [there] at absent
      cases absent
  · rcases h.caller?_step there goes (fun r same => ends ⟨r, same⟩) cancels with same | ⟨-, woken⟩
    · rw [same] at gone
      cases gone
    · rw [woken] at gone
      cases gone

/-- When a turn ends, whoever has waited longest for the key is woken. -/
theorem Sound.woken_of_turn [Dependent α] (h : t.Sound) (there : t.caller? n = some c) (turn : c.phase.hasTurn = true)
    (gone : (t.step e).caller? n = none) (longest : t.longestWaiting? c.key = some d) :
    (t.step e).caller? d.number = some { d with phase := .woken } := by
  obtain ⟨o, same⟩ := h.callers_step_of_turn there turn gone
  obtain ⟨hd, -, waits⟩ := mem_of_longestWaiting? longest
  have other : d.number ≠ n := by
    intro number
    have actor := h.caller?_of_mem hd
    rw [number, there] at actor
    rw [Option.some.inj actor, waits] at turn
    cases turn
  have passed : ((t.settle n o).passOn c.key).caller? d.number = some { d with phase := .woken } := by
    unfold passOn
    rw [longestWaiting?_settle longest other]
    simp
  unfold caller? at passed ⊢
  rw [same, passed]

theorem Sound.woken_step [Dependent α] (h : t.Sound) (there : t.caller? n = some c) (woken : c.phase = .woken)
    (goes : e ≠ .go n) (cancels : e ≠ .cancel n) : (t.step e).caller? n = some c := by
  by_cases ends : ∃ r, e = .finish n r
  · obtain ⟨r, rfl⟩ := ends
    have idles : t.ticket? n = none := by simp [ticket?, phase?, there, woken, Phase.ticket?]
    have still : t.step (.finish n r) = t := by simp [Traffic.step, Traffic.finish, idles]
    rw [still, there]
  · rcases h.caller?_step there goes (fun r same => ends ⟨r, same⟩) cancels with same | ⟨waits, -⟩
    · exact same
    · rw [woken] at waits
      cases waits

def work (t : Traffic ε α) : Nat := (t.callers.map fun c => c.phase.work).sum

private theorem sum_filter_add_le {β : Type} (f : β → Nat) {keep : β → Bool} {line : List β} {x : β} (there : x ∈ line)
    (leaves : keep x = false) : ((line.filter keep).map f).sum + f x ≤ (line.map f).sum := by
  induction line with
  | nil => cases there
  | cons y rest ih =>
    have fewer : ((rest.filter keep).map f).sum ≤ (rest.map f).sum :=
      (List.filter_sublist.map f).sum_le_sum fun _ _ => Nat.zero_le _
    rw [List.filter_cons, List.map_cons, List.sum_cons]
    rcases List.mem_cons.mp there with rfl | later
    · rw [if_neg (by simp [leaves])]
      omega
    · have less := ih later
      split
      · rw [List.map_cons, List.sum_cons]
        omega
      · omega

private theorem work_leave_le (there : c ∈ t.callers) : (t.leave c.number).work + c.phase.work ≤ t.work :=
  sum_filter_add_le (fun d => d.phase.work) there (by simp)

private theorem work_enter (t : Traffic ε α) (c : Caller) :
    (t.enter c).work = (t.leave c.number).work + c.phase.work := by
  simp [work, enter]

private theorem work_passOn_le (t : Traffic ε α) (k : Key) : (t.passOn k).work ≤ t.work := by
  unfold passOn
  split
  · rename_i d longest
    obtain ⟨there, -, waits⟩ := mem_of_longestWaiting? longest
    have less := work_leave_le there
    rw [work_enter]
    rw [waits] at less
    exact less
  · exact Nat.le_refl _

theorem work_go_lt [Dependent α] (there : t.caller? n = some c) (ready : c.phase.isReady = true) :
    (t.step (.go n)).work < t.work := by
  obtain ⟨hc, rfl⟩ := mem_of_caller? there
  have less := work_leave_le hc
  have some_left : 0 < c.phase.work := c.phase.work_pos ready
  have move := move_step t (.go c.number)
  generalize t.step (.go c.number) = t' at move
  cases move with
  | @wait _ k actor _ =>
    have asks : c = ⟨c.number, k, .asking⟩ := Option.some.inj (there.symm.trans actor)
    have before : c.phase.work = 2 := by rw [asks]; rfl
    rw [work_enter]
    change (t.leave c.number).work + 1 < _
    omega
  | @take _ k _ v _ _ _ _ =>
    have passed := work_passOn_le (t.settle c.number (.value v false)) k
    change ((t.settle c.number (.value v false)).passOn k).work < _
    change _ ≤ (t.leave c.number).work at passed
    omega
  | begin _ _ _ _ =>
    change (t.enter ⟨c.number, _, .compiling _⟩).work < _
    rw [work_enter]
    change (t.leave c.number).work + 0 < _
    omega
  | still stuck =>
    rw [stuck c there] at ready
    cases ready

theorem work_le (t : Traffic ε α) : t.work ≤ 2 * t.callers.length := by
  unfold work
  induction t.callers with
  | nil => exact Nat.le_refl _
  | cons c rest ih =>
    have here := c.phase.work_le
    simp only [List.map_cons, List.sum_cons, List.length_cons]
    omega

theorem mem_of_ready? (h : t.ready? = some c) : c ∈ t.callers ∧ c.phase.isReady = true := by
  unfold ready? at h
  exact ⟨List.mem_of_find?_eq_some h, List.find?_some (p := fun c : Caller => c.phase.isReady) h⟩

theorem ready?_eq_none_iff : t.ready? = none ↔ ∀ c ∈ t.callers, c.phase.isReady = false := by
  simp [ready?, List.find?_eq_none]

private theorem Sound.ready?_restFuel [Dependent α] {fuel : Nat} (h : t.Sound) (enough : t.work ≤ fuel) :
    (restFuel fuel t).ready? = none := by
  induction fuel generalizing t with
  | zero =>
    cases ready : t.ready? with
    | none => exact ready
    | some c =>
      obtain ⟨hc, can⟩ := mem_of_ready? ready
      have less := work_leave_le hc
      have some_left := c.phase.work_pos can
      omega
  | succ fuel ih =>
    unfold restFuel
    split
    · rename_i c ready
      obtain ⟨hc, can⟩ := mem_of_ready? ready
      have less := work_go_lt (h.caller?_of_mem hc) can
      change (t.go c.number).work < _ at less
      exact ih (h.step (.go c.number)) (by omega)
    · rename_i nobody
      exact nobody

theorem Sound.ready?_rest [Dependent α] (h : t.Sound) : t.rest.ready? = none := h.ready?_restFuel t.work_le

private theorem restFuel_eq_run [Dependent α] (fuel : Nat) (t : Traffic ε α) :
    ∃ goes : List Nat, restFuel fuel t = t.run (goes.map .go) := by
  induction fuel generalizing t with
  | zero => exact ⟨[], rfl⟩
  | succ fuel ih =>
    unfold restFuel
    split
    · rename_i c ready
      obtain ⟨goes, same⟩ := ih (t.go c.number)
      exact ⟨c.number :: goes, same⟩
    · exact ⟨[], rfl⟩

/-- When nobody can go on, who waits for a key waits for somebody else who compiles it. -/
theorem Sound.compiles_of_waiting (h : t.Sound) (resting : t.ready? = none)
    (waits : t.caller? n = some ⟨n, k, .waiting⟩) :
    ∃ w ticket, w ≠ n ∧ t.ticket? w = some ticket ∧ ticket.key = k := by
  obtain ⟨hc, -⟩ := mem_of_caller? waits
  obtain ⟨d, hd, rfl, turn⟩ := isBusy_iff.mp (h.attended k _ hc rfl rfl)
  have stuck := ready?_eq_none_iff.mp resting d hd
  have there := h.caller?_of_mem hd
  cases phase : d.phase with
  | asking =>
    rw [phase] at turn
    cases turn
  | waiting =>
    rw [phase] at turn
    cases turn
  | woken =>
    rw [phase] at stuck
    cases stuck
  | compiling ticket =>
    refine ⟨d.number, ticket, ?_, ticket?_eq_some_iff.mpr ⟨d, there, phase⟩, (h.compiling d hd ticket phase).1⟩
    rintro rfl
    rw [there] at waits
    rw [Option.some.inj waits] at phase
    cases phase

theorem rest_eq_run [Dependent α] (t : Traffic ε α) : ∃ goes : List Nat, t.rest = t.run (goes.map .go) :=
  restFuel_eq_run _ t

end Traffic
end Pageweave.Cache
