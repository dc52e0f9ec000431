import Pageweave.LiveSite
import Pageweave.Proofs.Cache.Freshness
import Pageweave.Proofs.Loading.Trace
/-!
# Loads of a live site

A history says what happens to a live site at each moment. What its cache sees of it is a schedule, and every compile of
the schedule that ends well is a load whose steps are spread over the time of the compile.
-/
namespace Pageweave.LiveSite

structure History where
  engine : Engine := {}
  /-- The texts that there are at first. -/
  locator : Locator
  /-- What happens at a moment, if anything. -/
  event : Nat → Option LiveEvent

namespace History

/-- The state before what happens at a moment. -/
def state (h : History) : Nat → LiveSite
  | 0 => { engine := h.engine, locator := h.locator }
  | n + 1 =>
    match h.event n with
    | some e => (h.state n).step e
    | none => h.state n

/-- What the cache sees of a history. -/
def schedule (h : History) : Cache.Schedule PageError Compiled := ⟨fun n => (h.event n).bind (h.state n).heard?⟩

/-- The load of a caller asks for a key. -/
def Reads (h : History) (n w : Nat) (q : Key) : Prop :=
  h.event n = some (.load w) ∧ ∃ l, (h.state n).loading? w = some l ∧ l.asks h.locator.extension = some q

def FirstReads (h : History) (n w : Nat) (q : Key) : Prop := h.Reads n w q ∧ ∀ m < n, ¬h.Reads m w q

/-- What is found behind a key becomes something else. -/
def Changes (h : History) (n : Nat) (q : Key) : Prop :=
  (∃ store answer, h.event n = some (.edit store q answer)) ∧
    (h.state (n + 1)).locator.find q ≠ (h.state n).locator.find q

variable {h : History} {n m i j w : Nat} {k q : Key} {v : Compiled} {e : LiveEvent}

theorem state_succ_of_some (happens : h.event n = some e) : h.state (n + 1) = (h.state n).step e := by
  simp only [state, happens]

theorem state_succ_of_none (nothing : h.event n = none) : h.state (n + 1) = h.state n := by
  simp only [state, nothing]

theorem engine_state (h : History) (n : Nat) : (h.state n).engine = h.engine := by
  induction n with
  | zero => rfl
  | succ n ih =>
    cases e : h.event n with
    | none => rw [state_succ_of_none e, ih]
    | some a => rw [state_succ_of_some e, ← ih]; rfl

theorem traffic_state (h : History) (n : Nat) : (h.state n).traffic = h.schedule.state n := by
  induction n with
  | zero => rfl
  | succ n ih =>
    cases e : h.event n with
    | none =>
      have unheard : h.schedule.event n = none := by simp [schedule, e]
      rw [state_succ_of_none e, Cache.Schedule.state_succ_of_none unheard, ih]
    | some a =>
      rw [state_succ_of_some e]
      have heard : h.schedule.event n = (h.state n).heard? a := by simp [schedule, e]
      unfold step
      cases hears : (h.state n).heard? a with
      | none => rw [Cache.Schedule.state_succ_of_none (heard.trans hears), ih]
      | some b => rw [Cache.Schedule.state_succ_of_some (heard.trans hears), ih]

theorem extension_state (h : History) (n : Nat) : (h.state n).locator.extension = h.locator.extension := by
  induction n with
  | zero => rfl
  | succ n ih =>
    cases e : h.event n with
    | none => rw [state_succ_of_none e, ih]
    | some a =>
      rw [state_succ_of_some e, ← ih]
      cases a <;> rfl

private theorem find_succ (h : History) (n : Nat) (q : Key) :
    (h.state (n + 1)).locator.find q = (h.state n).locator.find q ∨
      ∃ store answer, h.event n = some (.edit store q answer) := by
  cases e : h.event n with
  | none => exact .inl (by rw [state_succ_of_none e])
  | some a =>
    rw [state_succ_of_some e]
    cases a with
    | edit store k answer =>
      by_cases other : q = k
      · exact .inr ⟨store, answer, by rw [other]⟩
      · exact .inl (Locator.find_put other)
    | call _ => exact .inl rfl
    | go _ => exact .inl rfl
    | load _ => exact .inl rfl
    | cancel _ => exact .inl rfl
    | report _ => exact .inl rfl
    | clear => exact .inl rfl

/-- What is found behind a key is the same as before, or it has changed in between. -/
theorem find_eq_or_changes (h : History) (q : Key) (upTo : m ≤ n) :
    (h.state n).locator.find q = (h.state m).locator.find q ∨ ∃ l, m ≤ l ∧ l < n ∧ h.Changes l q := by
  induction upTo with
  | refl => exact .inl rfl
  | @step n later ih =>
    by_cases same : (h.state (n + 1)).locator.find q = (h.state n).locator.find q
    · rcases ih with before | ⟨l, after, earlier, changes⟩
      · exact .inl (same.trans before)
      · exact .inr ⟨l, after, by omega, changes⟩
    · exact .inr ⟨n, later, Nat.lt_succ_self n, (h.find_succ n q).resolve_left same, same⟩

private theorem started?_step_of_ne {s : LiveSite} (other : e ≠ .load w) : (s.step e).started? w = s.started? w := by
  cases e with
  | load u =>
    have apart : u ≠ w := fun same => other (same ▸ rfl)
    unfold step started?
    cases loading : s.loading? u with
    | none => simp [loading]
    | some l => simp [loading, apart]
  | call _ => rfl
  | go _ => rfl
  | cancel _ => rfl
  | edit _ _ _ => rfl
  | report _ => rfl
  | clear => rfl

private theorem started?_step_load {s : LiveSite} {l : Loading} (loading : s.loading? w = some l) :
    (s.step (.load w)).started? w = some (l.step s.locator) := by
  unfold step started?
  simp [loading]

private theorem started?_step_load_of_none {s : LiveSite} (loading : s.loading? w = none) :
    (s.step (.load w)).started? w = s.started? w := by
  unfold step started?
  simp [loading]

private theorem ticket?_of_started? {l : Loading} (started : (h.state n).started? w = some l) :
    ∃ m < n, ((h.schedule.state m).ticket? w).isSome = true := by
  induction n generalizing l with
  | zero => cases started
  | succ n ih =>
    have older {l : Loading} (before : (h.state n).started? w = some l) :
        ∃ m < n + 1, ((h.schedule.state m).ticket? w).isSome = true := by
      obtain ⟨m, earlier, compiles⟩ := ih before
      exact ⟨m, by omega, compiles⟩
    cases e : h.event n with
    | none =>
      rw [state_succ_of_none e] at started
      exact older started
    | some a =>
      rw [state_succ_of_some e] at started
      by_cases own : a = .load w
      · subst own
        cases loading : (h.state n).loading? w with
        | none =>
          rw [started?_step_load_of_none loading] at started
          exact older started
        | some _ =>
          unfold loading? at loading
          rw [traffic_state] at loading
          obtain ⟨ticket, compiles, -⟩ := Option.map_eq_some_iff.mp loading
          exact ⟨n, Nat.lt_succ_self n, by rw [compiles]; rfl⟩
      · rw [started?_step_of_ne own] at started
        exact older started

private theorem started?_of_begins (begins : h.schedule.Begins i w k) : (h.state i).started? w = none := by
  rw [Option.eq_none_iff_forall_ne_some]
  intro l started
  obtain ⟨m, earlier, compiles⟩ := ticket?_of_started? started
  obtain ⟨ticket, compiles⟩ := Option.isSome_iff_exists.mp compiles
  rcases Cache.Schedule.ticket?_or_outcome? compiles (Nat.le_of_lt earlier) with still | ⟨o, got⟩
  · rw [begins.1] at still
    cases still
  · obtain ⟨-, ticket', compiles', -⟩ := begins
    have later := Cache.Schedule.outcome?_mono got (Nat.le_succ i)
    rw [Cache.Schedule.outcome?_of_ticket? compiles'] at later
    cases later

/-- The load of a compile, from when it began. -/
def load (h : History) (w : Nat) (k : Key) (n : Nat) : Loading := ((h.state n).started? w).getD (.opening k)

theorem loading?_of_compiles (compiles : h.schedule.Compiles w k v i j) (after : i < m) (before : m ≤ j) :
    (h.state m).loading? w = some (h.load w k m) := by
  unfold loading? load
  rw [traffic_state, compiles.ticket?_of_le after before]
  rfl

private theorem load_succ_of_begins (begins : h.schedule.Begins i w k) : h.load w k (i + 1) = .opening k := by
  have goes := (Cache.Schedule.ticket?_of_begins begins).2.2
  have before := started?_of_begins begins
  unfold load
  cases e : h.event i with
  | none => rw [state_succ_of_none e, before]; rfl
  | some a =>
    have other : a ≠ .load w := by
      rintro rfl
      simp only [schedule, e, Option.bind_some, heard?] at goes
      split at goes
      · cases goes
      · cases goes
    rw [state_succ_of_some e, started?_step_of_ne other, before]
    rfl

private theorem load_of_ends (compiles : h.schedule.Compiles w k v i j) :
    ∃ p, h.load w k j = .done (.ok p) ∧ h.engine.assemble p = .ok v := by
  have ends := compiles.ends
  have loading := loading?_of_compiles compiles compiles.before (Nat.le_refl j)
  simp only [schedule] at ends
  obtain ⟨a, -, heard⟩ := Option.bind_eq_some_iff.mp ends
  cases a with
  | load u =>
    simp only [heard?] at heard
    split at heard
    · rename_i r done
      obtain ⟨rfl, ended⟩ : u = w ∧ (r >>= (h.state j).engine.assemble) = .ok v := by simpa using heard
      rw [loading, Option.some.injEq] at done
      rw [h.engine_state] at ended
      cases r with
      | error e => cases ended
      | ok p => exact ⟨p, done, ended⟩
    · cases heard
  | call _ => cases heard
  | go _ => cases heard
  | cancel _ => cases heard
  | edit _ _ _ => cases heard
  | report _ => cases heard
  | clear => cases heard

/-- A compile that ends well is a load over the time of the compile. -/
theorem trace_of_compiles (compiles : h.schedule.Compiles w k v i j) :
    ∃ p, h.engine.assemble p = .ok v ∧ Loading.Trace h.locator.extension (fun m => (h.state m).locator)
      (fun m => h.event m = some (.load w)) (h.load w k) k p (i + 1) j := by
  obtain ⟨p, done, assembled⟩ := load_of_ends compiles
  refine ⟨p, assembled, compiles.before, load_succ_of_begins compiles.begins, ?_, ?_, done, h.extension_state⟩
  · intro m after before steps
    have loading := loading?_of_compiles compiles after (Nat.le_of_lt before)
    rw [load, state_succ_of_some steps, started?_step_load loading]
    rfl
  · intro m after before rests
    unfold load
    cases e : h.event m with
    | none => rw [state_succ_of_none e]
    | some a => rw [state_succ_of_some e, started?_step_of_ne fun same => rests (same ▸ e)]

end History
end Pageweave.LiveSite
