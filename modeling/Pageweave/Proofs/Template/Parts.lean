import Mathlib.Data.List.Forall2
import Pageweave.Proofs.Template.Outline
import Pageweave.Proofs.Template.References
/-!
# The parts of tags

What the tags of a template become, as far as it is of use: a tag that names templates becomes a node that refers to them
in the same order, and tags that open groups keep what their groups ask for.
-/
namespace Pageweave

namespace Peg.Tree

open Template (ok_of_bind)

variable {R α ε : Type} {f : R → List Char → List α → Except ε α}

theorem foldAll_eq_ok {ts : List (Tree R)} {parts : List α} (h : foldAll f ts = .ok parts) :
    List.Forall₂ (fun t p => fold f t = .ok p) ts parts := by
  induction ts generalizing parts with
  | nil =>
    rw [foldAll] at h
    cases h
    exact .nil
  | cons t ts ih =>
    rw [foldAll] at h
    obtain ⟨p, first, h⟩ := ok_of_bind h
    obtain ⟨ps, rest, h⟩ := ok_of_bind h
    cases h
    exact .cons first (ih rest)

theorem fold_eq_ok {t : Tree R} {p : α} (h : fold f t = .ok p) : ∃ parts,
    List.Forall₂ (fun t p => fold f t = .ok p) t.inner parts ∧ f t.rule t.text parts = .ok p := by
  obtain ⟨r, start, size, inner⟩ := t
  rw [fold] at h
  obtain ⟨parts, folded, h⟩ := ok_of_bind h
  exact ⟨parts, foldAll_eq_ok folded, h⟩

end Peg.Tree

namespace Template

open Peg Reading Template.Node

variable {t : Parse} {ts : List Parse} {p : Part} {r : Rule} {text : List Char} {parts : List Part}

/-- Each node stands for the part beside it. -/
abbrev Folds (ts : List Parse) (parts : List Part) : Prop :=
  List.Forall₂ (fun t p => t.fold part = .ok p) ts parts

namespace Rule

def isDelimiter : Rule → Bool
  | variableStart | variableEnd | tagStart | tagEnd | commentStart | commentEnd => true
  | _ => false

/-- What stands for its own text. -/
def isWord : Rule → Bool
  | tagStart | tagEnd | ident | string | ignoreMissing => true
  | _ => false

/-- What may stand in the tags that are looked into. -/
def isTold (r : Rule) : Bool :=
  r.isWord || r == stringArray || r == macroHead || r == basicFilter || r == arrayFilter

end Rule

theorem part_word (word : r.isWord = true) : part r text parts = .ok (.word r text) := by
  cases r <;> cases word <;> rfl

theorem fold_word (word : t.rule.isWord = true) (h : t.fold part = .ok p) : p = .word t.rule t.text := by
  obtain ⟨parts, -, h⟩ := Tree.fold_eq_ok h
  rw [part_word word] at h
  exact (Except.ok.inj h).symm

theorem filtered_isDelimiter (h : filtered parts = .ok p) : isDelimiter p = false := by
  cases parts with
  | nil =>
    cases h
    rfl
  | cons first parts =>
    obtain ⟨e, -, h⟩ := ok_of_bind h
    cases h
    rfl

theorem fold_isDelimiter (told : t.rule.isTold = true) (h : t.fold part = .ok p) :
    isDelimiter p = t.rule.isDelimiter := by
  by_cases word : t.rule.isWord = true
  · rw [fold_word word h]
    generalize t.rule = r at word
    cases r <;> cases word <;> rfl
  · obtain ⟨parts, -, h⟩ := Tree.fold_eq_ok h
    generalize t.rule = r at told word h
    cases r <;> first | cases told; done | exact absurd rfl word | skip
    case macroHead =>
      cases h
      cases parts <;> rfl
    case basicFilter => exact filtered_isDelimiter h
    case arrayFilter => exact filtered_isDelimiter h
    case stringArray =>
      cases h
      rfl

theorem Folds.inside (h : Folds ts parts) (told : ∀ t ∈ ts, t.rule.isTold = true) :
    Folds (ts.filter fun t => !t.rule.isDelimiter) (inside parts) := by
  induction h with
  | nil => exact .nil
  | @cons t p ts parts first rest ih =>
    have rest := ih fun t listed => told t (List.mem_cons_of_mem _ listed)
    have same := fold_isDelimiter (told t List.mem_cons_self) first
    unfold Reading.inside at rest ⊢
    rw [List.filter_cons, List.filter_cons, same]
    split
    · exact .cons first rest
    · exact rest

theorem rules_of_grown {t : Parse} (grown : Grown grammar t) (tight : t.rule.kind = .tight)
    (single : t.rule.body.single = true) : t.inner.map Tree.rule ∈ t.rule.body.rows := by
  obtain ⟨c, ds, leaves, body⟩ := grown
  exact body.rules_mem_rows Rule.loud (Kind.leaves_inside (.inl tight) leaves) single

/-- The nodes inside a tag, without the delimiters. -/
def told (t : Parse) : List Parse := t.inner.filter fun u => !u.rule.isDelimiter

theorem told_rules (rows : List (List Rule)) (grown : Grown grammar t) (tight : t.rule.kind = .tight)
    (single : t.rule.body.single = true) (folds : Folds t.inner parts)
    (all : ∀ row ∈ t.rule.body.rows, (∀ r ∈ row, r.isTold = true) ∧ row.filter (fun r => !r.isDelimiter) ∈ rows) :
    (told t).map Tree.rule ∈ rows ∧ Folds (told t) (inside parts) := by
  obtain ⟨known, listed⟩ := all _ (rules_of_grown grown tight single)
  refine ⟨?_, folds.inside (List.forall_mem_map.mp known)⟩
  rwa [List.filter_map] at listed

theorem referenceOf_eq (t : Parse) : referenceOf t =
    ⟨((told t).flatMap Plain.strings).map fun s => unquoted s.text, (told t).any fun u => u.rule == .ignoreMissing⟩ := by
  unfold referenceOf Plain.names told
  induction t.inner with
  | nil => rfl
  | cons u us ih =>
    obtain ⟨names, missing⟩ := Reference.mk.inj ih
    cases delimiter : u.rule.isDelimiter with
    | false => simp [delimiter, names, missing]
    | true =>
      have no_strings : Plain.strings u = [] := by
        unfold Plain.strings
        generalize u.rule = r at delimiter
        cases r <;> cases delimiter <;> rfl
      have no_words : (u.rule == .ignoreMissing) = false := by
        generalize u.rule = r at delimiter
        cases r <;> cases delimiter <;> rfl
      simp [delimiter, no_strings, no_words, names, missing]

theorem namesOf_fold {u : Parse} {q : Part} (grown : Grown grammar u)
    (naming : u.rule = .string ∨ u.rule = .stringArray) (h : u.fold part = .ok q) :
    namesOf q = (Plain.strings u).map (fun s => unquoted s.text) ∧ Reading.isWord .ignoreMissing q = false := by
  rcases naming with string | array
  · rw [fold_word (by rw [string]; rfl) h, string]
    exact ⟨by simp [Plain.strings, string, namesOf], rfl⟩
  · obtain ⟨parts, folds, h⟩ := Tree.fold_eq_ok h
    obtain ⟨c, ds, leaves, body⟩ := grown
    rw [array] at h body
    cases h
    refine ⟨?_, rfl⟩
    have strings : ∀ s ∈ u.inner, s.rule = .string := fun s listed =>
      (by decide : ∀ r ∈ (Rule.body .stringArray).rules, r = .string) _
        (body.rule_mem Rule.loud (Kind.leaves_inside (.inr rfl) leaves) s listed)
    rw [show Plain.strings u = u.inner by simp [Plain.strings, array]]
    change parts.flatMap namesOf = _
    clear body h
    generalize u.inner = ts at folds strings
    induction folds with
    | nil => rfl
    | @cons s q ts parts first rest ih =>
      have string := strings s List.mem_cons_self
      rw [List.flatMap_cons, List.map_cons, ih fun s listed => strings s (List.mem_cons_of_mem _ listed),
        fold_word (by rw [string]; rfl) first, string]
      rfl

@[simp] theorem references_single (trim : Trim) (n : Node) : (single trim n).references = n.references := by
  simp [single, Part.references, Piece.references, Piece.ofTag]

theorem fold_extends (rule : t.rule = .extendsTag) (grown : Grown grammar t) (h : t.fold part = .ok p) :
    p.references = [referenceOf t] := by
  obtain ⟨parts, folds, h⟩ := Tree.fold_eq_ok h
  obtain ⟨rules, inside⟩ := told_rules [[.string]] grown (by rw [rule]; rfl) (by rw [rule]; rfl) folds
    (by rw [rule]; decide +kernel)
  rw [rule] at h
  cases h
  obtain ⟨s, told, string⟩ := List.map_eq_singleton_iff.mp (List.mem_singleton.mp rules)
  rw [told] at inside
  generalize Reading.inside parts = inner at inside
  rcases inside with _ | ⟨first, _ | _⟩
  rw [fold_word (by rw [string]; rfl) first, references_single, referenceOf_eq, told, string]
  simp [Node.references, quotedName, namesOf, Plain.strings, string]

theorem fold_import (rule : t.rule = .importTag) (grown : Grown grammar t) (h : t.fold part = .ok p) :
    p.references = [referenceOf t] := by
  obtain ⟨parts, folds, h⟩ := Tree.fold_eq_ok h
  obtain ⟨rules, inside⟩ := told_rules [[.string, .ident]] grown (by rw [rule]; rfl) (by rw [rule]; rfl) folds
    (by rw [rule]; decide +kernel)
  rw [rule] at h
  obtain ⟨s, us, told, string, rest⟩ := List.map_eq_cons_iff.mp (List.mem_singleton.mp rules)
  obtain ⟨i, rfl, ident⟩ := List.map_eq_singleton_iff.mp rest
  rw [told] at inside
  unfold part at h
  generalize Reading.inside parts = inner at inside h
  rcases inside with _ | ⟨first, _ | ⟨second, _ | _⟩⟩
  cases h
  rw [fold_word (by rw [string]; rfl) first, references_single, referenceOf_eq, told, string]
  simp [Node.references, quotedName, namesOf, Plain.strings, string, ident]

theorem told_includeTag (rule : t.rule = .includeTag) (grown : Grown grammar t) (folds : Folds t.inner parts) :
    Folds (told t) (inside parts) ∧ ∃ u us, told t = u :: us ∧ (u.rule = .string ∨ u.rule = .stringArray) ∧
      (us = [] ∨ ∃ w, us = [w] ∧ w.rule = .ignoreMissing) := by
  obtain ⟨rules, inside⟩ := told_rules [[.string], [.string, .ignoreMissing], [.stringArray],
    [.stringArray, .ignoreMissing]] grown (by rw [rule]; rfl) (by rw [rule]; rfl) folds (by rw [rule]; decide +kernel)
  obtain ⟨u, us, same⟩ : ∃ u us, told t = u :: us := by
    refine List.exists_cons_of_ne_nil fun none => ?_
    rw [none] at rules
    exact absurd rules (by decide)
  rw [same] at rules
  simp only [List.map_cons, List.mem_cons, List.cons.injEq, List.map_eq_nil_iff, List.map_eq_singleton_iff,
    List.not_mem_nil, or_false] at rules
  refine ⟨inside, u, us, same, ?_⟩
  rcases rules with ⟨naming, words⟩ | ⟨naming, words⟩ | ⟨naming, words⟩ | ⟨naming, words⟩
  · exact ⟨.inl naming, .inl words⟩
  · exact ⟨.inl naming, .inr words⟩
  · exact ⟨.inr naming, .inl words⟩
  · exact ⟨.inr naming, .inr words⟩

theorem fold_include (rule : t.rule = .includeTag) (grown : Grown grammar t) (grown' : ∀ u ∈ t.inner, Grown grammar u)
    (h : t.fold part = .ok p) : p.references = [referenceOf t] := by
  obtain ⟨parts, folds, h⟩ := Tree.fold_eq_ok h
  obtain ⟨inside, u, us, told, naming, words⟩ := told_includeTag rule grown folds
  rw [rule] at h
  cases h
  have grown_names : Grown grammar u := grown' u (List.mem_filter.mp (told ▸ List.mem_cons_self : u ∈ Template.told t)).1
  rw [told] at inside
  generalize Reading.inside parts = inner at inside
  rcases inside with _ | ⟨first, rest⟩
  obtain ⟨names, no_words⟩ := namesOf_fold grown_names naming first
  have no_words' : (u.rule == .ignoreMissing) = false := by rcases naming with same | same <;> rw [same] <;> rfl
  rw [references_single, Node.references, referenceOf_eq, told, List.headD_cons, names, List.any_cons, List.any_cons,
    no_words, no_words']
  rcases words with rfl | ⟨w, rfl, ignores⟩
  · rcases rest with _ | _
    simp
  · rcases rest with _ | ⟨second, _ | _⟩
    rw [fold_word (by rw [ignores]; rfl) second, ignores]
    simp [Plain.strings, ignores, Reading.isWord]

namespace Rule

/-- Tags that open, divide or close a group. -/
def isMark : Rule → Bool
  | blockTag | macroTag | ifTag | elifTag | elseTag | forTag | filterTag | endblockTag | endmacroTag | endifTag
  | endforTag | endfilterTag => true
  | _ => false

end Rule

theorem part_mark (mark : r.isMark = true) : part r text parts = .ok (.tag r (trimOf parts) (inside parts)) := by
  cases r <;> cases mark <;> rfl

theorem setNode_references {everywhere : Bool} {n : Node} (h : setNode everywhere parts = .ok n) : n.references = [] := by
  unfold setNode at h
  split at h
  · obtain ⟨e, -, h⟩ := ok_of_bind h
    cases h
    simp only [Node.references]
  · cases h
    rfl

theorem rawNode_references (parts : List Part) : (rawNode parts).references = [] := by
  unfold rawNode
  split
  · simp [references_between, Node.references]
  · rfl

/-- Only three tags refer to templates. -/
theorem part_leaf (leaf : r.isLeaf = true) (other : r.isReferring = false) (h : part r text parts = .ok p) :
    p.references = [] := by
  by_cases mark : r.isMark = true
  · rw [part_mark mark] at h
    cases h
    rfl
  · cases r <;> first | cases leaf; done | cases other; done | exact absurd rfl mark | skip
    case setTag | setGlobalTag =>
      obtain ⟨n, set, h⟩ := ok_of_bind h
      cases h
      rw [references_single, setNode_references set]
    case variableTag =>
      obtain ⟨e, -, h⟩ := ok_of_bind h
      cases h
      simp [Node.references]
    case raw =>
      cases h
      exact rawNode_references parts
    case text | superTag =>
      cases h
      simp [Part.references, Piece.references, Node.references]
    case breakTag | continueTag =>
      cases h
      simp [Node.references]
    case commentTag | eoi =>
      cases h
      rfl

theorem inside_forTag (rule : t.rule = .forTag) (grown : Grown grammar t) (folds : Folds t.inner parts) :
    (inside parts).length = 2 ∨ (inside parts).length = 3 := by
  obtain ⟨rules, inside⟩ := told_rules [[.ident, .basicFilter], [.ident, .arrayFilter],
    [.ident, .ident, .basicFilter], [.ident, .ident, .arrayFilter]] grown (by rw [rule]; rfl) (by rw [rule]; rfl) folds
    (by rw [rule]; decide +kernel)
  have lengths : ((told t).map Tree.rule).length = 2 ∨ ((told t).map Tree.rule).length = 3 := by
    generalize (told t).map Tree.rule = row at rules
    revert row
    decide
  rwa [List.length_map, inside.length_eq] at lengths

theorem inside_macroTag (rule : t.rule = .macroTag) (grown : Grown grammar t) (grown' : ∀ u ∈ t.inner, Grown grammar u)
    (folds : Folds t.inner parts) : ∃ name params, inside parts = [.head name params] := by
  obtain ⟨rules, inside⟩ := told_rules [[.macroHead]] grown (by rw [rule]; rfl) (by rw [rule]; rfl) folds
    (by rw [rule]; decide +kernel)
  obtain ⟨u, only, is_head⟩ := List.map_eq_singleton_iff.mp (List.mem_singleton.mp rules)
  have listed : u ∈ told t := by rw [only]; exact List.mem_singleton_self u
  obtain ⟨c, ds, leaves, body⟩ := grown' u (List.mem_filter.mp listed).1
  rw [is_head] at body
  obtain ⟨us, _, vs, named, -, all⟩ := body.of_seq
  obtain ⟨_, -, rfl⟩ := reads_rule (Kind.leaves_inside (.inr rfl) leaves) named
  rw [only] at inside
  generalize Reading.inside parts = tag at inside
  rcases inside with _ | ⟨first, _ | _⟩
  obtain ⟨parts, folds, first⟩ := Tree.fold_eq_ok first
  rw [is_head] at first
  cases first
  rw [all] at folds
  obtain ⟨name, params, -, -, rfl⟩ := List.forall₂_cons_left_iff.mp folds
  exact ⟨_, _, rfl⟩

end Template
end Pageweave
