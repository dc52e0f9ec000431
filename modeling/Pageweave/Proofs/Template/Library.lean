import Mathlib.Data.List.Forall2
import Pageweave.Proofs.Template.References
import Pageweave.Template.Library
/-!
# What a library holds

A library that is built from texts holds a page under each of their names, read from the text of that name, and nothing
under any other name.
-/
namespace Pageweave.Template

theorem forall₂_of_mapM {α β ε : Type} {f : α → Except ε β} {xs : List α} {ys : List β} (h : xs.mapM f = .ok ys) :
    List.Forall₂ (fun x y => f x = .ok y) xs ys := by
  induction xs generalizing ys with
  | nil =>
    obtain rfl : [] = ys := Except.ok.inj h
    exact .nil
  | cons x xs ih =>
    rw [List.mapM_cons] at h
    obtain ⟨y, first, h⟩ := ok_of_bind h
    obtain ⟨rest, later, h⟩ := ok_of_bind h
    obtain rfl : y :: rest = ys := Except.ok.inj h
    exact .cons first (ih later)

namespace Source

theorem name_of_note {s s' : Source} {n : Node} (noted : s.note n = .ok s') : s'.name = s.name := by
  unfold note at noted
  split at noted
  · obtain rfl := Except.ok.inj noted
    rfl
  · obtain rfl := Except.ok.inj noted
    rfl
  · split at noted
    · cases noted
    · obtain rfl := Except.ok.inj noted
      rfl
  · rw [Except.ok.inj noted]

theorem name_of_foldlM_note {s s' : Source} {ns : List Node} (noted : ns.foldlM note s = .ok s') :
    s'.name = s.name := by
  induction ns generalizing s with
  | nil => rw [Except.ok.inj noted]
  | cons n ns ih =>
    rw [List.foldlM_cons] at noted
    obtain ⟨t, first, rest⟩ := ok_of_bind noted
    exact (ih rest).trans (name_of_note first)

theorem name_of_read {name text : String} {s : Source} (reads : read name text = .ok s) : s.name = name := by
  obtain ⟨ns, -, reads⟩ := ok_of_bind reads
  obtain ⟨blocks, -, reads⟩ := ok_of_bind reads
  exact name_of_foldlM_note reads

end Source

namespace Library

variable {sources out : List Source} {texts : List (String × String)} {s : Source} {lib : Library}

-- Lean's own equations would unfold the reader of templates, which does not end in time.
theorem readAll_nil (sources : List Source) : readAll sources [] = .ok sources := by
  delta readAll
  rfl

theorem readAll_cons (sources : List Source) (name text : String) (rest : List (String × String)) :
    readAll sources ((name, text) :: rest) =
      match Source.read name text with
      | .ok s => readAll (put s sources) rest
      | .error fault => .error (.unread name fault) := by
  delta readAll
  rfl

theorem find?_put (s : Source) (sources : List Source) (name : String) :
    find? (put s sources) name = if s.name = name then some s else find? sources name := by
  induction sources with
  | nil => by_cases here : s.name = name <;> simp [find?, put, here]
  | cons t ts ih =>
    unfold put
    by_cases same : t.name = s.name
    · rw [if_pos same]
      by_cases here : s.name = name
      · simp [find?, here]
      · simp [find?, here, same]
    · rw [if_neg same]
      by_cases there : t.name = name
      · have other : s.name ≠ name := fun here => same (there.trans here.symm)
        simp [find?, there, other]
      · simpa [find?, there] using ih

theorem find?_of_readAll (reads : readAll sources texts = .ok out) (once : (texts.map Prod.fst).Nodup) (name : String) :
    (∀ text, (name, text) ∈ texts → ∃ s, find? out name = some s ∧ Source.read name text = .ok s) ∧
      ((∀ text, (name, text) ∉ texts) → find? out name = find? sources name) := by
  induction texts generalizing sources with
  | nil =>
    rw [readAll_nil] at reads
    obtain rfl : sources = out := Except.ok.inj reads
    exact ⟨fun text listed => absurd listed List.not_mem_nil, fun _ => rfl⟩
  | cons e texts ih =>
    obtain ⟨first, text⟩ := e
    obtain ⟨new, once⟩ := List.nodup_cons.mp once
    rw [readAll_cons] at reads
    cases read : Source.read first text with
    | error fault =>
      rw [read] at reads
      cases reads
    | ok s =>
      rw [read] at reads
      obtain ⟨listed_later, not_later⟩ := ih reads once
      have own : s.name = first := Source.name_of_read read
      constructor
      · intro text' listed
        rcases List.mem_cons.mp listed with same | later
        · obtain ⟨rfl, rfl⟩ := Prod.mk.inj same
          refine ⟨s, ?_, read⟩
          rw [not_later fun other there => new (List.mem_map.mpr ⟨_, there, rfl⟩), find?_put, if_pos own]
        · exact listed_later text' later
      · intro absent
        have other : first ≠ name := fun same => absent text (by simp [same])
        rw [not_later fun text' there => absent text' (List.mem_cons_of_mem _ there), find?_put, if_neg (own ▸ other)]

private theorem page?_of_mapM {pages : List Page} (made : List.Forall₂ (fun s p => makePage sources s = .ok p) out pages)
    (name : String) : (pages.find? fun p => p.name == name).map Page.source = find? out name := by
  induction made with
  | nil => rfl
  | @cons s p ss ps makes rest ih =>
    have own : p.source = s := by
      obtain ⟨parents, -, page⟩ := ok_of_bind makes
      obtain rfl := Except.ok.inj page
      rfl
    by_cases here : s.name = name
    · simp [find?, Page.name, own, here]
    · simpa [find?, Page.name, own, here] using ih

theorem ok_of_build (built : build texts = .ok lib) :
    ∃ sources, readAll [] texts = .ok sources ∧ sources.mapM (makePage sources) = .ok lib.pages := by
  obtain ⟨sources, reads, built⟩ := ok_of_bind built
  obtain ⟨pages, made, built⟩ := ok_of_bind built
  obtain ⟨-, -, built⟩ := ok_of_bind built
  obtain rfl := Except.ok.inj built
  exact ⟨sources, reads, made⟩

/-- Under the name of a text a library holds what the text reads as. -/
theorem page?_of_mem (built : build texts = .ok lib) (once : (texts.map Prod.fst).Nodup) {name text : String}
    (listed : (name, text) ∈ texts) : ∃ page, lib.page? name = some page ∧ Source.read name text = .ok page.source := by
  obtain ⟨sources, reads, pages⟩ := ok_of_build built
  obtain ⟨s, found, read⟩ := (find?_of_readAll reads once name).1 text listed
  have held := page?_of_mapM (forall₂_of_mapM pages) name
  rw [found] at held
  obtain ⟨page, there, rfl⟩ := Option.map_eq_some_iff.mp held
  exact ⟨page, there, read⟩

theorem page?_of_not_mem (built : build texts = .ok lib) (once : (texts.map Prod.fst).Nodup) {name : String}
    (absent : ∀ text, (name, text) ∉ texts) : lib.page? name = none := by
  obtain ⟨sources, reads, pages⟩ := ok_of_build built
  have held := page?_of_mapM (forall₂_of_mapM pages) name
  rw [(find?_of_readAll reads once name).2 absent] at held
  exact Option.map_eq_none_iff.mp held

end Library
end Pageweave.Template
