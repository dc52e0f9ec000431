import Pageweave.Layout
import Pageweave.Proofs.Key.Order
import Pageweave.Proofs.Sequence
/-!
# What a registry of layouts holds

A registry after any calls holds the layouts that were taken, and of those with one id the first. A call that fails
leaves it as it was, so later calls are answered as if the failed one had not been made.
-/
namespace Pageweave.LayoutRegistry

variable {r r' : LayoutRegistry} {l m : Layout} {ls ms taken before : List Layout} {id : String} {e : PageError}

/-- Registers a layout in a registry that is kept; both checks come before the change. -/
def enter (l : Layout) : ExceptT PageError (StateM LayoutRegistry) Unit := do
  if Text.trim l.id = "" then throw (.setup .blankLayout)
  if (← get).contains l.id then throw (.setup (.layoutTwice l.id))
  modify fun r => ⟨place l r.layouts⟩

theorem enter_eq (l : Layout) (r : LayoutRegistry) :
    enter l r = match r.register l with
      | .ok r' => (.ok (), r')
      | .error e => (.error e, r) := by
  unfold enter register
  by_cases blank : Text.trim l.id = ""
  · simp only [blank, if_true]
    rfl
  · simp only [blank, if_false]
    change (if r.contains l.id = true then _ else _ : ExceptT PageError (StateM LayoutRegistry) Unit) r = _
    split_ifs with there
    · rfl
    · rfl

theorem register_eq_ok_iff :
    r.register l = .ok r' ↔ Text.trim l.id ≠ "" ∧ r.contains l.id = false ∧ r' = ⟨place l r.layouts⟩ := by
  unfold register
  split_ifs with blank there
  · simp [blank]
  · simp [there]
  · simp [blank, there, eq_comm]

theorem register_eq_error_iff :
    (∃ e, r.register l = .error e) ↔ Text.trim l.id = "" ∨ r.contains l.id = true := by
  unfold register
  split_ifs with blank there
  · simp [blank]
  · simp [there]
  · simp [blank, there]

theorem fault_of_register_eq_error (refused : r.register l = .error e) : ∃ fault, e = .setup fault := by
  unfold register at refused
  split_ifs at refused with blank there
  · exact ⟨.blankLayout, (Except.error.inj refused).symm⟩
  · exact ⟨.layoutTwice l.id, (Except.error.inj refused).symm⟩

theorem perm_place (l : Layout) (ls : List Layout) : (place l ls).Perm (l :: ls) := by
  induction ls with
  | nil => exact .refl _
  | cons m ms ih =>
    unfold place
    split_ifs with below
    · exact .refl _
    · exact (ih.cons m).trans (.swap l m ms)

theorem ascending_place (ascending : ls.Pairwise fun a b => a.id < b.id) (fresh : ∀ m ∈ ls, m.id ≠ l.id) :
    (place l ls).Pairwise fun a b => a.id < b.id := by
  induction ls with
  | nil => exact List.pairwise_singleton _ _
  | cons m ms ih =>
    obtain ⟨first, rest⟩ := List.pairwise_cons.mp ascending
    unfold place
    split_ifs with below
    · refine List.pairwise_cons.mpr ⟨fun x listed => ?_, ascending⟩
      rcases List.mem_cons.mp listed with rfl | later
      · exact below
      · exact String.lt_trans below (first x later)
    · have above : m.id < l.id := (lt_or_gt_of_ne (fresh m List.mem_cons_self)).resolve_right below
      refine List.pairwise_cons.mpr ⟨fun x listed => ?_, ih rest fun x later => fresh x (List.mem_cons_of_mem m later)⟩
      rcases List.mem_cons.mp ((perm_place l ms).mem_iff.mp listed) with rfl | later
      · exact above
      · exact first x later

/-- The registry holds these layouts, whatever their order, and shows them by their ids. -/
structure Holds (r : LayoutRegistry) (taken : List Layout) : Prop where
  ascending : r.layouts.Pairwise fun a b => a.id < b.id
  perm : r.layouts.Perm taken

theorem holds_empty : Holds {} [] := ⟨.nil, .nil⟩

namespace Holds

theorem mem_ids_iff (h : r.Holds taken) : id ∈ r.ids ↔ ∃ m ∈ taken, m.id = id := by
  simp only [ids, List.mem_map, h.perm.mem_iff]

theorem contains_iff (h : r.Holds taken) : r.contains id = true ↔ ∃ m ∈ taken, m.id = id := by
  simp only [contains, List.any_eq_true, beq_iff_eq, h.perm.mem_iff]

theorem distinct (h : r.Holds taken) : (taken.map Layout.id).Nodup := by
  apply (h.perm.map Layout.id).nodup_iff.mp
  exact List.pairwise_map.mpr (h.ascending.imp fun less => ne_of_lt less)

private theorem find?_eq_some_iff (distinct : (ls.map Layout.id).Nodup) :
    (ls.find? fun m => m.id == id) = some l ↔ l ∈ ls ∧ l.id = id := by
  induction ls with
  | nil => simp
  | cons m ms ih =>
    obtain ⟨new, rest⟩ := List.nodup_cons.mp distinct
    by_cases this : m.id = id
    · have absent : ∀ x ∈ ms, x.id ≠ id := fun x there same =>
        new (List.mem_map.mpr ⟨x, there, same.trans this.symm⟩)
      rw [List.find?_cons_of_pos (by simp [this])]
      constructor
      · intro found
        obtain rfl := Option.some.inj found
        exact ⟨List.mem_cons_self, this⟩
      · rintro ⟨there, same⟩
        rcases List.mem_cons.mp there with rfl | later
        · rfl
        · exact absurd same (absent l later)
    · rw [List.find?_cons_of_neg (by simp [this]), ih rest, List.mem_cons]
      constructor
      · rintro ⟨there, same⟩
        exact ⟨.inr there, same⟩
      · rintro ⟨rfl | there, same⟩
        · exact absurd same this
        · exact ⟨there, same⟩

theorem get?_eq_some_iff (h : r.Holds taken) : r.get? id = some l ↔ l ∈ taken ∧ l.id = id := by
  have own : (r.layouts.map Layout.id).Nodup := (h.perm.map Layout.id).nodup_iff.mpr h.distinct
  rw [get?, find?_eq_some_iff own, h.perm.mem_iff]

theorem get?_eq (h : r.Holds taken) (id : String) : r.get? id = taken.find? fun m => m.id == id := by
  apply Option.ext
  intro m
  rw [h.get?_eq_some_iff, find?_eq_some_iff h.distinct]

theorem register (h : r.Holds taken) (done : r.register l = .ok r') : r'.Holds (taken ++ [l]) := by
  obtain ⟨-, absent, rfl⟩ := register_eq_ok_iff.mp done
  have fresh : ∀ m ∈ r.layouts, m.id ≠ l.id := by
    intro m there same
    rw [h.contains_iff.mpr ⟨m, h.perm.mem_iff.mp there, same⟩] at absent
    cases absent
  refine ⟨ascending_place h.ascending fresh, ?_⟩
  exact ((perm_place l r.layouts).trans (h.perm.cons l)).trans (List.perm_append_singleton l taken).symm

end Holds

/-- All of some layouts are registered if their ids are new, different and not blank. -/
theorem foldlM_register_eq_ok_iff (h : r.Holds taken) (ls : List Layout) :
    (∃ r', ls.foldlM register r = .ok r') ↔
      (∀ l ∈ ls, Text.trim l.id ≠ "") ∧ ((taken ++ ls).map Layout.id).Nodup := by
  induction ls generalizing r taken with
  | nil => simp [h.distinct, pure, Except.pure]
  | cons l ls ih =>
    rw [List.foldlM_cons]
    cases done : r.register l with
    | error e =>
      have refused := register_eq_error_iff.mp ⟨e, done⟩
      rw [h.contains_iff] at refused
      simp only [bind, Except.bind, reduceCtorEq, exists_false, false_iff]
      rintro ⟨visible, distinct⟩
      rcases refused with blank | ⟨m, there, same⟩
      · exact visible l List.mem_cons_self blank
      · rw [List.map_append, List.map_cons, List.nodup_append'] at distinct
        exact distinct.2.2 (List.mem_map.mpr ⟨m, there, same⟩) List.mem_cons_self
    | ok r' =>
      have visible := (register_eq_ok_iff.mp done).1
      simp only [bind, Except.bind]
      rw [ih (h.register done), List.append_assoc, List.singleton_append]
      simp [visible]

theorem fault_of_foldlM_register_eq_error (refused : ls.foldlM register r = .error e) : ∃ fault, e = .setup fault := by
  induction ls generalizing r with
  | nil => cases refused
  | cons l ls ih =>
    rw [List.foldlM_cons] at refused
    cases first : r.register l with
    | error e' =>
      rw [first] at refused
      obtain rfl := Except.error.inj refused
      exact fault_of_register_eq_error first
    | ok r' =>
      rw [first] at refused
      exact ih refused

theorem Holds.foldlM (h : r.Holds taken) (done : ls.foldlM LayoutRegistry.register r = .ok r') :
    r'.Holds (taken ++ ls) := by
  induction ls generalizing r taken with
  | nil =>
    obtain rfl : r = r' := Except.ok.inj done
    simpa using h
  | cons l ls ih =>
    rw [List.foldlM_cons] at done
    cases first : r.register l with
    | error e =>
      rw [first] at done
      cases done
    | ok r₁ =>
      rw [first] at done
      rw [List.append_cons]
      exact ih (h.register first) done

/-- Calls one after the other: their answers, and the registry after them. -/
def calls : List Layout → LayoutRegistry → List (Except PageError Unit) × LayoutRegistry
  | [], r => ([], r)
  | l :: ls, r =>
    let (answer, r) := enter l r
    let (answers, r) := calls ls r
    (answer :: answers, r)

/-- The layouts whose calls were answered without an error, in the order of the calls. -/
def successes (ls : List Layout) (r : LayoutRegistry) : List Layout :=
  ((ls.zip (calls ls r).1).filter fun call => call.2.isOk).map Prod.fst

theorem calls_cons (l : Layout) (ls : List Layout) (r : LayoutRegistry) :
    calls (l :: ls) r = ((enter l r).1 :: (calls ls (enter l r).2).1, (calls ls (enter l r).2).2) := by
  rw [calls]
  cases enter l r
  rfl

theorem calls_append (ls ms : List Layout) (r : LayoutRegistry) :
    calls (ls ++ ms) r = ((calls ls r).1 ++ (calls ms (calls ls r).2).1, (calls ms (calls ls r).2).2) := by
  induction ls generalizing r with
  | nil => rfl
  | cons l ls ih => simp only [List.cons_append, calls_cons, ih]

theorem length_calls (ls : List Layout) (r : LayoutRegistry) : (calls ls r).1.length = ls.length := by
  induction ls generalizing r with
  | nil => rfl
  | cons l ls ih => simp only [calls_cons, List.length_cons, ih]

/-- A registry holds what it held and what was registered since. -/
theorem Holds.calls (h : r.Holds taken) (ls : List Layout) :
    (calls ls r).2.Holds (taken ++ successes ls r) := by
  induction ls generalizing r taken with
  | nil => simpa [successes, LayoutRegistry.calls] using h
  | cons l ls ih =>
    rw [calls_cons]
    cases done : r.register l with
    | error e =>
      have answer : enter l r = (.error e, r) := by rw [enter_eq, done]
      have skipped : successes (l :: ls) r = successes ls r := by
        simp [successes, calls_cons, answer, Except.isOk, Except.toBool]
      rw [skipped, answer]
      exact ih h
    | ok r' =>
      have answer : enter l r = (.ok (), r') := by rw [enter_eq, done]
      have counted : successes (l :: ls) r = l :: successes ls r' := by
        simp [successes, calls_cons, answer, Except.isOk, Except.toBool]
      rw [counted, answer, List.append_cons]
      exact ih (h.register done)

theorem holds_calls (ls : List Layout) : (LayoutRegistry.calls ls {}).2.Holds (successes ls {}) :=
  holds_empty.calls ls

/-- What is answered to one call of a history. -/
theorem answer_of_call (before after : List Layout) (l : Layout) :
    (calls (before ++ l :: after) {}).1[before.length]? = some (enter l (calls before {}).2).1 := by
  rw [calls_append, calls_cons, ← length_calls before {}]
  simp

/-- In every history of calls on an empty registry a call fails exactly if its id is blank or was registered before, and
then everything else is answered as without it. Afterwards the registry gives for an id the first layout that was
registered with it, and shows the ids it has in the order of their bytes, each once. -/
theorem first_registered_is_kept :
    (∀ (before after : List Layout) (l : Layout),
      let (answers, r) := calls (before ++ l :: after) {}
      ((∃ e, answers[before.length]? = some (.error e)) ↔
        Text.trim l.id = "" ∨ ∃ m ∈ successes before {}, m.id = l.id) ∧
      ((∃ e, answers[before.length]? = some (.error e)) →
        calls (before ++ after) {} = (answers.eraseIdx before.length, r))) ∧
    ∀ history : List Layout,
      let r := (calls history {}).2
      (∀ id, r.get? id = (successes history {}).find? fun m => m.id == id) ∧
      (∀ id, r.contains id = (r.get? id).isSome) ∧
      r.ids.Pairwise (fun a b => a.toUTF8.data.toList < b.toUTF8.data.toList) ∧
      (∀ id, id ∈ r.ids ↔ r.contains id = true) ∧
      r.size = r.ids.length := by
  constructor
  · intro before after l
    have earlier := holds_calls before
    have answered := answer_of_call before after l
    have fails : (∃ e, (enter l (calls before {}).2).1 = .error e) ↔
        Text.trim l.id = "" ∨ ∃ m ∈ successes before {}, m.id = l.id := by
      rw [← earlier.contains_iff, ← register_eq_error_iff, enter_eq]
      cases (calls before {}).2.register l <;> simp
    simp only [answered, Option.some.injEq, fails, true_and]
    intro refused
    obtain ⟨e, failed⟩ := register_eq_error_iff.mpr (refused.imp_right earlier.contains_iff.mpr)
    have unmoved : (enter l (calls before {}).2).2 = (calls before {}).2 := by
      rw [enter_eq, failed]
    rw [calls_append, calls_append, calls_cons, unmoved, ← length_calls before {},
      List.eraseIdx_append_of_length_le le_rfl, Nat.sub_self, List.eraseIdx_cons_zero]
  · intro history
    have held := holds_calls history
    refine ⟨held.get?_eq, fun id => ?_, ?_, fun id => ?_, ?_⟩
    · rw [Bool.eq_iff_iff, held.contains_iff, held.get?_eq, List.find?_isSome]
      simp
    · refine List.pairwise_map.mpr (held.ascending.imp fun less => ?_)
      exact (Text.lt_iff_toUTF8_lt _ _).mp less
    · rw [held.mem_ids_iff, held.contains_iff]
    · simp [size, ids]

/-- A layout, a blank id, the first id with another template, and the first id with a blank behind it. -/
def mainHistory : List Layout :=
  [⟨"main", ⟨"layouts/main"⟩, none⟩, ⟨" \u3000", ⟨"layouts/blank"⟩, none⟩, ⟨"main", ⟨"layouts/other"⟩, none⟩,
    ⟨"main ", ⟨"layouts/main "⟩, none⟩]

theorem main_first_registered_is_kept :
    (calls mainHistory {}).1 = [.ok (), .error (.setup .blankLayout), .error (.setup (.layoutTwice "main")), .ok ()] ∧
      (calls mainHistory {}).2.ids = ["main", "main "] ∧
      calls (mainHistory.eraseIdx 2) {} = ((calls mainHistory {}).1.eraseIdx 2, (calls mainHistory {}).2) := by
  have answers : (calls mainHistory {}).1 =
      [.ok (), .error (.setup .blankLayout), .error (.setup (.layoutTwice "main")), .ok ()] := by decide +kernel
  refine ⟨answers, by decide +kernel, ?_⟩
  have unmade := first_registered_is_kept.1 (mainHistory.take 2) (mainHistory.drop 3) ⟨"main", ⟨"layouts/other"⟩, none⟩
  exact unmade.2 ⟨_, congrArg (·[2]?) answers⟩

end Pageweave.LayoutRegistry
