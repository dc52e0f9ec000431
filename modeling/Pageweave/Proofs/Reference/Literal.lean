import Pageweave.Proofs.Reference.Referring
/-!
# Names stand in the text

Every name that the scan finds stands literally in what it reads, which is the source without its comments and raw
blocks.
-/
namespace Pageweave.Reference

variable {cs ds : List Char} {r : Reference} {name : String}

private theorem infix_of_mem_namesFuel {fuel : Nat} (listed : name ∈ namesFuel fuel cs) : name.toList <:+: cs := by
  induction fuel generalizing cs with
  | zero => cases listed
  | succ fuel ih =>
    cases cs with
    | nil => cases listed
    | cons c cs =>
      unfold namesFuel at listed
      cases found : quoted? (c :: cs) with
      | none =>
        rw [found] at listed
        exact (ih listed).trans (List.suffix_cons c cs).isInfix
      | some pair =>
        obtain ⟨text, rest⟩ := pair
        obtain ⟨q, whole⟩ := quoted?_eq_some found
        rw [found] at listed
        rw [whole]
        rcases List.mem_cons.mp listed with rfl | later
        · rw [String.toList_ofList]
          exact ⟨[q], q :: rest, by simp⟩
        · exact (ih later).trans ⟨q :: (text ++ [q]), [], by simp⟩

theorem infix_of_mem_namesIn (listed : name ∈ namesIn cs) : name.toList <:+: cs := infix_of_mem_namesFuel listed

theorem infix_of_tag? (h : tag? cs = some (r, ds)) : (∀ name ∈ r.names, name.toList <:+: cs) ∧ ds <:+ cs := by
  obtain ⟨body, target, behind, within, -, read, names, suffix⟩ := tag?_eq_some h
  have inside : target <:+: cs :=
    List.IsInfix.trans ⟨[], behind, by simp [target?_eq_some read]⟩ within.isInfix
  refine ⟨fun name listed => ?_, (suffix.trans (target?_suffix read)).trans within⟩
  rw [names] at listed
  exact (infix_of_mem_namesIn listed).trans inside

private theorem infix_of_mem_tagsFuel {fuel : Nat} (listed : r ∈ tagsFuel fuel cs) (named : name ∈ r.names) :
    name.toList <:+: cs := by
  induction fuel generalizing cs with
  | zero => cases listed
  | succ fuel ih =>
    cases cs with
    | nil => cases listed
    | cons c cs =>
      unfold tagsFuel at listed
      cases found : tag? (c :: cs) with
      | none =>
        rw [found] at listed
        exact (ih listed).trans (List.suffix_cons c cs).isInfix
      | some pair =>
        obtain ⟨first, rest⟩ := pair
        obtain ⟨inside, behind⟩ := infix_of_tag? found
        rw [found] at listed
        rcases List.mem_cons.mp listed with rfl | later
        · exact inside name named
        · exact (ih later).trans behind.isInfix

/-- A name that a source refers to stands in the source, once its comments and raw blocks are taken out. -/
theorem infix_of_mem_scan {source : String} (listed : r ∈ scan source) (named : name ∈ r.names) :
    name.toList <:+: active source.toList :=
  infix_of_mem_tagsFuel (List.mem_filter.mp listed).1 named

theorem names_ne_nil_of_mem_scan {source : String} (listed : r ∈ scan source) : r.names ≠ [] := by
  have some_name := (List.mem_filter.mp listed).2
  simpa using some_name

end Pageweave.Reference
