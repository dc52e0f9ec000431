import Pageweave.Locator
import Pageweave.Proofs.Key.Order
/-!
# The listing of a locator

A key is listed with the name of the first store that lists it, whatever the stores behind it list. So where every store
lists just what can be read from it, a key is listed with the store that it is found in.
-/
namespace Pageweave

/-- Does a store list a key exactly if it can be read? -/
def Store.Agrees (s : Store) (k : Key) : Prop :=
  ∀ ks r, s.list = .ok ks → s.read k = .ok r → (k ∈ ks ↔ r.isSome = true)

namespace Locator

variable {store p : String} {k q : Key} {ks : List Key} {noted listed : List (Key × String)} {x : Key × String}
  {stores : List Store} {r : Option Source}

/-- Ascending, each key once. -/
abbrev Ascending (noted : List (Key × String)) : Prop := noted.Pairwise fun a b => a.1 < b.1

private theorem lt_of_not (other : k ≠ q) (not_less : ¬k < q) : q < k := by
  have apart : k.name ≠ q.name := fun same => other (congrArg Key.mk same)
  exact (lt_or_gt_of_ne apart).resolve_left not_less

theorem mem_note (ascending : Ascending noted) :
    x ∈ note store k noted ↔ x ∈ noted ∨ x = (k, store) ∧ ∀ e ∈ noted, e.1 ≠ k := by
  induction noted with
  | nil => simp [note]
  | cons e noted ih =>
    obtain ⟨first, rest⟩ := List.pairwise_cons.mp ascending
    unfold note
    split_ifs with same below
    · simp [same]
    · have absent : ∀ f ∈ e :: noted, f.1 ≠ k := by
        intro f there here
        rcases List.mem_cons.mp there with rfl | later
        · exact same here.symm
        · exact absurd (Key.lt_trans below (first f later)) (here ▸ String.lt_irrefl k.name)
      rw [List.mem_cons, or_comm, and_iff_left absent]
    · rw [List.mem_cons, ih rest, List.mem_cons, or_assoc]
      simp [Ne.symm same]

theorem ascending_note (ascending : Ascending noted) : Ascending (note store k noted) := by
  induction noted with
  | nil => exact List.pairwise_singleton _ _
  | cons e noted ih =>
    obtain ⟨first, rest⟩ := List.pairwise_cons.mp ascending
    unfold note
    split_ifs with same below
    · exact ascending
    · refine List.pairwise_cons.mpr ⟨fun f there => ?_, ascending⟩
      rcases List.mem_cons.mp there with rfl | later
      · exact below
      · exact Key.lt_trans below (first f later)
    · refine List.pairwise_cons.mpr ⟨fun f there => ?_, ih rest⟩
      rcases (mem_note rest).mp there with older | ⟨rfl, -⟩
      · exact first f older
      · exact lt_of_not same below

def noteAll (store : String) (ks : List Key) (noted : List (Key × String)) : List (Key × String) :=
  ks.foldl (fun acc k => note store k acc) noted

theorem ascending_noteAll (ascending : Ascending noted) (ks : List Key) : Ascending (noteAll store ks noted) := by
  induction ks generalizing noted with
  | nil => exact ascending
  | cons k ks ih => exact ih (ascending_note ascending)

theorem mem_noteAll (ascending : Ascending noted) :
    x ∈ noteAll store ks noted ↔ x ∈ noted ∨ (x.2 = store ∧ x.1 ∈ ks) ∧ ∀ e ∈ noted, e.1 ≠ x.1 := by
  induction ks generalizing noted with
  | nil => simp [noteAll]
  | cons k ks ih =>
    have rest : x ∈ noteAll store ks (note store k noted) ↔ _ := ih (ascending_note ascending)
    change x ∈ noteAll store ks (note store k noted) ↔ _
    rw [rest]
    constructor
    · rintro (first | ⟨⟨same, later⟩, absent⟩)
      · rcases (mem_note ascending).mp first with older | ⟨rfl, absent⟩
        · exact .inl older
        · exact .inr ⟨⟨rfl, List.mem_cons_self⟩, absent⟩
      · refine .inr ⟨⟨same, List.mem_cons_of_mem k later⟩, fun e there => ?_⟩
        exact absent e ((mem_note ascending).mpr (.inl there))
    · rintro (older | ⟨⟨same, there⟩, absent⟩)
      · exact .inl ((mem_note ascending).mpr (.inl older))
      · by_cases here : x.1 = k
        · exact .inl ((mem_note ascending).mpr (.inr ⟨Prod.ext here same, here ▸ absent⟩))
        · refine .inr ⟨⟨same, (List.mem_cons.mp there).resolve_left here⟩, fun e noted_e => ?_⟩
          rcases (mem_note ascending).mp noted_e with older | ⟨rfl, -⟩
          · exact absent e older
          · exact Ne.symm here

theorem absent_noteAll_iff (ascending : Ascending noted) :
    (∀ e ∈ noteAll store ks noted, e.1 ≠ k) ↔ k ∉ ks ∧ ∀ e ∈ noted, e.1 ≠ k := by
  constructor
  · intro absent
    have older : ∀ e ∈ noted, e.1 ≠ k := fun e there => absent e ((mem_noteAll ascending).mpr (.inl there))
    refine ⟨fun there => ?_, older⟩
    exact absent (k, store) ((mem_noteAll ascending).mpr (.inr ⟨⟨rfl, there⟩, older⟩)) rfl
  · rintro ⟨not_there, absent⟩ e listed
    rcases (mem_noteAll ascending).mp listed with older | ⟨⟨-, there⟩, -⟩
    · exact absent e older
    · exact fun same => not_there (same ▸ there)

theorem listInto_cons {s : Store} {rest : List Store} (lists : s.list = .ok ks) :
    listInto (s :: rest) noted = listInto rest (noteAll s.name ks noted) := by
  simp only [listInto, lists, noteAll]

theorem ascending_listInto (ascending : Ascending noted) (all : listInto stores noted = .ok listed) :
    Ascending listed := by
  induction stores generalizing noted with
  | nil =>
    obtain rfl : noted = listed := Except.ok.inj all
    exact ascending
  | cons s rest ih =>
    cases lists : s.list with
    | error e => simp [listInto, lists] at all
    | ok ks =>
      rw [listInto_cons lists] at all
      exact ih (ascending_noteAll ascending ks) all

theorem exists_listInto_of_stores (all : ∀ s ∈ stores, ∃ ks, s.list = .ok ks) (noted : List (Key × String)) :
    ∃ listed, listInto stores noted = .ok listed := by
  induction stores generalizing noted with
  | nil => exact ⟨noted, rfl⟩
  | cons s rest ih =>
    obtain ⟨ks, lists⟩ := all s List.mem_cons_self
    rw [listInto_cons lists]
    exact ih (fun t later => all t (List.mem_cons_of_mem s later)) _

theorem ascending_list {l : Locator} (all : l.list = .ok listed) : Ascending listed :=
  ascending_listInto List.Pairwise.nil all

/-- The name of the first store that lists a key. -/
def firstLister? (k : Key) : List Store → Option String
  | [] => none
  | s :: rest =>
    match s.list with
    | .error _ => none
    | .ok ks => if k ∈ ks then some s.name else firstLister? k rest

theorem mem_listInto (ascending : Ascending noted) (all : listInto stores noted = .ok listed) :
    (k, p) ∈ listed ↔ (k, p) ∈ noted ∨ firstLister? k stores = some p ∧ ∀ e ∈ noted, e.1 ≠ k := by
  induction stores generalizing noted with
  | nil =>
    obtain rfl : noted = listed := Except.ok.inj all
    simp [firstLister?]
  | cons s rest ih =>
    cases lists : s.list with
    | error e => simp [listInto, lists] at all
    | ok ks =>
      rw [listInto_cons lists] at all
      rw [ih (ascending_noteAll ascending ks) all, mem_noteAll ascending, absent_noteAll_iff ascending]
      simp only [firstLister?, lists]
      by_cases there : k ∈ ks
      · simp [there, eq_comm]
      · simp [there]

theorem exists_store_of_mem_listInto (all : listInto stores [] = .ok listed) (there : x ∈ listed) :
    ∃ s ∈ stores, ∃ ks, s.list = .ok ks ∧ x.1 ∈ ks := by
  have first : firstLister? x.1 stores = some x.2 := by
    simpa using (mem_listInto List.Pairwise.nil all).mp there
  clear all there
  induction stores with
  | nil => cases first
  | cons s rest ih =>
    unfold firstLister? at first
    cases lists : s.list with
    | error e => simp [lists] at first
    | ok ks =>
      by_cases here : x.1 ∈ ks
      · exact ⟨s, List.mem_cons_self, ks, lists, here⟩
      · obtain ⟨t, later, found⟩ := ih (by simpa [lists, here] using first)
        exact ⟨t, List.mem_cons_of_mem s later, found⟩

theorem exists_store_of_listInto_error {e : PageError} (failed : listInto stores noted = .error e) :
    ∃ s ∈ stores, s.list = .error e := by
  induction stores generalizing noted with
  | nil => cases failed
  | cons s rest ih =>
    cases lists : s.list with
    | error e' =>
      simp only [listInto, lists] at failed
      obtain rfl := Except.error.inj failed
      exact ⟨s, List.mem_cons_self, lists⟩
    | ok ks =>
      rw [listInto_cons lists] at failed
      obtain ⟨t, later, own⟩ := ih failed
      exact ⟨t, List.mem_cons_of_mem s later, own⟩

/-- Where every store lists what it reads, the first store that lists a key is the one that it is found in. -/
theorem firstLister?_eq (agrees : ∀ s ∈ stores, s.Agrees k) (all : listInto stores noted = .ok listed)
    (found : findIn stores k = .ok r) : firstLister? k stores = r.map Source.store := by
  induction stores generalizing noted with
  | nil =>
    obtain rfl : none = r := Except.ok.inj found
    rfl
  | cons s rest ih =>
    have first := agrees s List.mem_cons_self
    cases lists : s.list with
    | error e => simp [listInto, lists] at all
    | ok ks =>
      rw [listInto_cons lists] at all
      cases reads : s.read k with
      | error e => simp [findIn, reads] at found
      | ok text =>
        have same := first ks text lists reads
        cases text with
        | none =>
          have deeper : findIn rest k = .ok r := by simpa only [findIn, reads] using found
          have absent : k ∉ ks := fun there => by simpa using same.mp there
          simp only [firstLister?, lists, if_neg absent]
          exact ih (fun t there => agrees t (List.mem_cons_of_mem s there)) all deeper
        | some text =>
          obtain rfl : some ⟨k, text, s.name⟩ = r := by simpa [findIn, reads] using found
          have there : k ∈ ks := same.mpr rfl
          simp [firstLister?, lists, there]

/-- A key is listed with the store that it is found in, and not at all if it is not found. -/
theorem mem_list_iff {l : Locator} (agrees : ∀ s ∈ l.stores, s.Agrees k) (all : l.list = .ok listed)
    (found : l.find k = .ok r) : (k, p) ∈ listed ↔ r.map Source.store = some p := by
  rw [mem_listInto List.Pairwise.nil all, firstLister?_eq agrees all found]
  simp

end Locator
end Pageweave
