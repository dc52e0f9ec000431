import Pageweave.Proofs.Loading.Trace
/-!
# How a load ends

The references of a text are looked at once for each name under which the text is found, and a name is looked up once.
So the work that is left, counted with what the names not yet looked up can bring, gets less with every step, and the
steps that `Engine.gather` allows are enough.
-/
namespace Pageweave

namespace Worklist

/-- The steps left for the references that are known. -/
def work (w : Worklist) : Nat :=
  Loading.stepsFor w.queue + (w.trying.map fun t => t.rest.length + 1).getD 0

/-- The names not yet looked up, of those that occur. -/
def unseen (l : Locator) (w : Worklist) : Nat := (Loading.namesIn l.texts).countP fun name => (w.seen? name).isNone

def ahead (l : Locator) (w : Worklist) : Nat := w.work + w.unseen l * Loading.stepsIn l.texts

/-- All names to be tried occur in the texts. -/
structure Within (l : Locator) (w : Worklist) : Prop where
  queue : ∀ r ∈ w.queue, ∀ name ∈ r.names, name ∈ Loading.namesIn l.texts
  trying : ∀ t, w.trying = some t → ∀ name ∈ t.rest, name ∈ Loading.namesIn l.texts

end Worklist

namespace Loading

variable {l : Locator} {s s' : Loading} {asked : Option Key} {w : Worklist} {k : Key}

private theorem mem_namesIn {texts : List String} {text name : String} {r : Reference} (listed : text ∈ texts)
    (refers : r ∈ Reference.scan text) (named : name ∈ r.names) : name ∈ namesIn texts :=
  List.mem_flatMap.mpr ⟨text, listed, List.mem_flatMap.mpr ⟨r, refers, named⟩⟩

private theorem stepsFor_append (front back : List Reference) :
    stepsFor (front ++ back) = stepsFor front + stepsFor back := by
  induction front with
  | nil => exact (Nat.zero_add _).symm
  | cons r rest ih =>
    change r.names.length + 2 + stepsFor (rest ++ back) = r.names.length + 2 + stepsFor rest + stepsFor back
    omega

private theorem stepsFor_le_stepsIn {texts : List String} {text : String} (listed : text ∈ texts) :
    stepsFor (Reference.scan text) ≤ stepsIn texts := by
  induction texts with
  | nil => cases listed
  | cons other rest ih =>
    change _ ≤ stepsFor (Reference.scan other) + stepsIn rest
    rcases List.mem_cons.mp listed with rfl | later
    · exact Nat.le_add_right _ _
    · exact Nat.le_trans (ih later) (Nat.le_add_left _ _)

private theorem countP_lt {β : Type} {before after : β → Bool} {line : List β} {x : β} (there : x ∈ line)
    (fewer : ∀ y, after y = true → before y = true) (counted : before x = true) (dropped : after x = false) :
    line.countP after < line.countP before := by
  induction line with
  | nil => cases there
  | cons y rest ih =>
    have le : rest.countP after ≤ rest.countP before := List.countP_mono_left fun z _ => fewer z
    rw [List.countP_cons, List.countP_cons]
    rcases List.mem_cons.mp there with rfl | later
    · rw [if_neg (by simp [dropped]), if_pos counted]
      omega
    · have lt := ih later
      by_cases kept : after y = true
      · rw [if_pos kept, if_pos (fewer y kept)]
        omega
      · rw [if_neg kept]
        omega

private theorem unseen_lt {w' : Worklist} {name : String} (occurs : name ∈ namesIn l.texts) (new : w.seen? name = none)
    (now : (w'.seen? name).isSome = true) (kept : ∀ x there, w.seen? x = some there → w'.seen? x = some there) :
    w'.unseen l < w.unseen l := by
  refine countP_lt occurs ?_ (by simp [new]) (by simp [now])
  intro x unseen
  cases before : w.seen? x with
  | none => rfl
  | some there =>
    rw [kept x there before] at unseen
    cases unseen

def Within (l : Locator) : Loading → Prop
  | .reading w => w.Within l
  | _ => True

/-- The steps left at most until a load is done. -/
def ahead (l : Locator) : Loading → Nat
  | .opening _ => ((namesIn l.texts).length + 1) * stepsIn l.texts + 2
  | .reading w => w.ahead l + 1
  | .done _ => 0

theorem Progress.within (h : Progress l s asked s') (within : s.Within l) : s'.Within l := by
  cases h with
  | «open» found =>
    refine ⟨fun r listed name named => ?_, nofun⟩
    exact mem_namesIn (Locator.findIn_mem found).2 listed named
  | known trying names _ =>
    refine ⟨within.queue, ?_⟩
    rintro _ ⟨⟩ x later
    exact within.trying _ trying x (by rw [names]; exact List.mem_cons_of_mem _ later)
  | found trying names _ _ found =>
    refine ⟨fun r listed name named => ?_, ?_⟩
    · rcases List.mem_append.mp listed with older | new
      · exact within.queue r older name named
      · exact mem_namesIn (Locator.findIn_mem found).2 new named
    · rintro _ ⟨⟩ x later
      exact within.trying _ trying x (by rw [names]; exact List.mem_cons_of_mem _ later)
  | absent trying names _ _ _ =>
    refine ⟨within.queue, ?_⟩
    rintro _ ⟨⟩ x later
    exact within.trying _ trying x (by rw [names]; exact List.mem_cons_of_mem _ later)
  | content _ _ _ => exact ⟨within.queue, nofun⟩
  | late _ _ _ _ _ _ => exact ⟨within.queue, nofun⟩
  | @next w r rest idle queue =>
    refine ⟨fun r' later => within.queue r' (by rw [queue]; exact List.mem_cons_of_mem _ later), ?_⟩
    rintro _ ⟨⟩ x named
    exact within.queue r (by rw [queue]; exact List.mem_cons_self) x named
  | finish _ _ => trivial
  | done _ => trivial

private theorem ahead_start_lt {x : Source} (found : l.find k = .ok (some x)) :
    ahead l (.reading (Worklist.start k x.text)) < ahead l (.opening k) := by
  have work : (Worklist.start k x.text).work ≤ stepsIn l.texts := by
    have le : _ ≤ stepsIn l.texts := stepsFor_le_stepsIn (Locator.findIn_mem found).2
    simpa [Worklist.work, Worklist.start] using le
  have unseen : (Worklist.start k x.text).unseen l ≤ (namesIn l.texts).length := List.countP_le_length
  have most := Nat.mul_le_mul_right (stepsIn l.texts) unseen
  simp only [ahead, Worklist.ahead, Nat.add_mul]
  omega

/-- Every step of a load that is not done brings it nearer to its end. -/
theorem Progress.ahead_lt (h : Progress l s asked s') (within : s.Within l) (open_ : ∀ r, s ≠ .done r) :
    s'.ahead l < s.ahead l := by
  cases h with
  | «open» found => exact ahead_start_lt found
  | known trying names _ =>
    simp [ahead, Worklist.ahead, Worklist.proceed, Worklist.work, Worklist.unseen, Worklist.seen?, trying, names]
  | @found w t name rest k x trying names new key found =>
    have occurs := within.trying t trying name (by rw [names]; exact List.mem_cons_self)
    have fewer : (w.found name x).unseen l < w.unseen l :=
      unseen_lt occurs new (by simp [Worklist.seen?_found, new]) fun _ _ => Worklist.seen?_found_of_some
    have brought : _ ≤ stepsIn l.texts := stepsFor_le_stepsIn (Locator.findIn_mem found).2
    have most := Nat.mul_le_mul_right (stepsIn l.texts) (Nat.succ_le_of_lt fewer)
    have before : w.work = stepsFor w.queue + (rest.length + 2) := by
      simp [Worklist.work, trying, names]
    change (stepsFor (w.queue ++ Reference.scan x.text) + (rest.length + 1)) +
      (w.found name x).unseen l * stepsIn l.texts + 1 < w.work + w.unseen l * stepsIn l.texts + 1
    rw [stepsFor_append, before]
    rw [Nat.succ_mul] at most
    omega
  | @absent w t name rest k trying names new key missing =>
    have occurs := within.trying t trying name (by rw [names]; exact List.mem_cons_self)
    have fewer : (w.absent name k).unseen l < w.unseen l :=
      unseen_lt occurs new (by simp [Worklist.seen?_absent, new]) fun _ _ => Worklist.seen?_absent_of_some
    have most := Nat.mul_le_mul_right (stepsIn l.texts) (Nat.le_of_lt fewer)
    have before : w.work = stepsFor w.queue + (rest.length + 2) := by
      simp [Worklist.work, trying, names]
    change (stepsFor w.queue + (rest.length + 1)) +
      (w.absent name k).unseen l * stepsIn l.texts + 1 < w.work + w.unseen l * stepsIn l.texts + 1
    rw [before]
    omega
  | content trying names _ =>
    simp [ahead, Worklist.ahead, Worklist.work, Worklist.unseen, Worklist.seen?, trying, names]
  | late trying names _ _ _ _ =>
    simp [ahead, Worklist.ahead, Worklist.work, Worklist.unseen, Worklist.seen?, trying, names]
  | next idle queue =>
    simp [ahead, Worklist.ahead, Worklist.work, Worklist.unseen, Worklist.seen?, idle, queue, stepsFor]
    omega
  | finish _ _ => exact Nat.succ_pos _
  | done r => exact absurd rfl (open_ r)

private theorem run_ends {fuel : Nat} (within : s.Within l) (enough : s.ahead l ≤ fuel) :
    ∃ r, run l fuel s = .done r := by
  induction fuel generalizing s with
  | zero =>
    cases s with
    | opening k => simp [ahead] at enough
    | reading w => simp [ahead] at enough
    | done r => exact ⟨r, rfl⟩
  | succ fuel ih =>
    by_cases ended : ∃ r, s = .done r
    · obtain ⟨r, rfl⟩ := ended
      exact ⟨r, run_done l _ r⟩
    rw [run_succ]
    rcases progress_step l s with ⟨e, failed⟩ | progress
    · rw [failed]
      exact ⟨_, run_done l fuel _⟩
    · have nearer := progress.ahead_lt within fun r same => ended ⟨r, same⟩
      exact ih (progress.within within) (by omega)

theorem run_steps_ends (l : Locator) (k : Key) : ∃ r, run l (steps l) (.opening k) = .done r := by
  refine run_ends trivial ?_
  exact Nat.add_le_add_right (Nat.mul_le_mul_left _ (Nat.le_succ (stepsIn l.texts))) 2

theorem run_unique {m n : Nat} {r r' : Except PageError Loaded} (h : run l m s = .done r) (h' : run l n s = .done r') :
    r = r' := by
  have later {m : Nat} {r : Except PageError Loaded} (h : run l m s = .done r) (d : Nat) :
      run l (m + d) s = .done r := by
    induction d with
    | zero => exact h
    | succ d ih => rw [← Nat.add_assoc, run_step, ih]; rfl
  have both := later h n
  rw [Nat.add_comm, later h' m] at both
  cases both
  rfl

/-- What the first state has and every step that does not fail keeps, a load has as long as it has not failed. -/
theorem run_invariant {P : Loading → Prop} (keeps : ∀ s asked s', Progress l s asked s' → P s → P s') (first : P s)
    (fuel : Nat) : P (run l fuel s) ∨ Failed (run l fuel s) := by
  induction fuel generalizing s with
  | zero => exact .inl first
  | succ fuel ih =>
    rw [run_succ]
    rcases progress_step l s with ⟨e, failed⟩ | progress
    · right
      rw [failed, run_done]
      exact ⟨e, rfl⟩
    · exact ih (keeps _ _ _ progress first)

theorem run_ok_induction {P : Loading → Prop} {fuel : Nat} {p : Loaded}
    (keeps : ∀ s asked s', Progress l s asked s' → P s → P s') (first : P s) (ends : run l fuel s = .done (.ok p)) :
    P (.done (.ok p)) := by
  rcases run_invariant keeps first fuel with holds | ⟨e, failed⟩
  · exact ends ▸ holds
  · rw [ends] at failed
    cases failed

/-- A load that fails does so in a step, from a state that still has what the first one had. -/
theorem run_error_cases {P : Loading → Prop} {fuel : Nat} {e : PageError}
    (keeps : ∀ s asked s', Progress l s asked s' → P s → P s') (first : P s) (open_ : ∀ r, s ≠ .done r)
    (ends : run l fuel s = .done (.error e)) : ∃ s', P s' ∧ (∀ r, s' ≠ .done r) ∧ s'.step l = .done (.error e) := by
  induction fuel generalizing s with
  | zero => exact absurd ends (open_ _)
  | succ fuel ih =>
    rw [run_succ] at ends
    by_cases ended : ∃ r, s.step l = .done r
    · obtain ⟨r, done⟩ := ended
      rw [done, run_done] at ends
      exact ⟨s, first, open_, done.trans ends⟩
    · rcases progress_step l s with ⟨e', failed⟩ | progress
      · exact absurd ⟨_, failed⟩ ended
      · exact ih (keeps _ _ _ progress first) (fun r done => ended ⟨r, done⟩) ends

end Loading

/-- The texts that a page is compiled from, by name, its own first. -/
def Loaded.texts (p : Loaded) : List (String × String) :=
  (p.key.name, p.text) :: p.included.map fun i => (i.name, i.text)

namespace Engine

theorem run_of_gather {l : Locator} {k : Key} {r : Except PageError Loaded} (gathered : gather l k = r) :
    ∃ fuel, Loading.run l fuel (.opening k) = .done r := by
  obtain ⟨r', ends⟩ := Loading.run_steps_ends l k
  refine ⟨Loading.steps l, ?_⟩
  unfold gather at gathered
  rw [ends] at gathered
  rw [ends, ← gathered]
  rfl

theorem gather_eq_of_run {l : Locator} {k : Key} {n : Nat} {r : Except PageError Loaded}
    (h : Loading.run l n (.opening k) = .done r) : gather l k = r := by
  obtain ⟨r', ends⟩ := Loading.run_steps_ends l k
  unfold gather
  rw [ends, Loading.run_unique ends h]
  rfl

/-- A page keeps the text it was loaded with, and depends on all that was found or missing on the way to it, apart from
itself. -/
theorem of_assemble {e : Engine} {p : Loaded} {c : Compiled} (assembled : e.assemble p = .ok c) :
    c.source = p.text ∧ c.dependencies =
      Key.sorted (Key.sorted ((p.included.map Included.key).filter (· ≠ p.key)) ++ p.missing.filter (· ≠ p.key)) := by
  unfold assemble compile at assembled
  cases built : Template.Library.build ((p.key.name, p.text) :: p.included.map fun i => (i.name, i.text)) with
  | error fault =>
    rw [built] at assembled
    cases assembled
  | ok library =>
    rw [built] at assembled
    cases assembled
    exact ⟨rfl, rfl⟩

theorem mem_dependencies_iff {e : Engine} {p : Loaded} {c : Compiled} {q : Key}
    (assembled : e.assemble p = .ok c) : q ∈ c.dependencies ↔ p.Covers q ∧ q ≠ p.key := by
  rw [(of_assemble assembled).2]
  simp only [Key.mem_sorted, List.mem_append, List.mem_filter, List.mem_map, decide_eq_true_eq, Loaded.Covers]
  rw [← or_and_right, and_congr_left_iff]
  intro other
  simp [other]

end Engine
end Pageweave
