import Mathlib.Data.List.Infix
import Pageweave.Proofs.Peg.Shape
import Pageweave.Proofs.Reference.Scanning
import Pageweave.Proofs.Template.Founded
import Pageweave.Template.Reading
/-!
# Plain templates

What a template must keep from for a scan that knows no expressions to see its tags as they are: strings in which a tag or
a comment starts, empty lists, names in backquotes, empty names, closing brackets in listed names, words that stand too
close, and unknown blanks.
-/
namespace Pageweave

namespace Template

open Peg

namespace Rule

def isReferring : Rule → Bool
  | includeTag => true
  | extendsTag => true
  | importTag => true
  | _ => false

/-- Tags and expressions, from brace to brace. -/
def isTag : Rule → Bool
  | includeTag | blockTag | macroTag | ifTag | elifTag | elseTag | forTag | filterTag | setTag | setGlobalTag
  | endblockTag | endmacroTag | endifTag | endforTag | endfilterTag | breakTag | continueTag | superTag | extendsTag
  | importTag | variableTag => true
  | _ => false

end Rule

namespace Plain

/-- The text of a tag behind its opening brace. -/
def behind (t : Parse) : List Char := (t.text.dropWhile isSpace).drop 1

/-- A string, or the strings of a list. -/
def strings (t : Parse) : List Parse :=
  if t.rule = .string then [t] else if t.rule = .stringArray then t.inner else []

/-- The strings that a tag names templates with. -/
def names (t : Parse) : List Parse := t.inner.flatMap strings

/-- No blank, or one that the grammar knows. -/
def isKnown (c : Char) : Bool := !Text.isBlank c || isSpace c

/-- The text between the start of a node and the start of one inside it. -/
def upTo (t u : Parse) : List Char := t.start.take (t.start.length - u.start.length)

theorem upTo_eq {t u : Parse} {front : List Char} (h : t.start = front ++ u.start) : upTo t u = front := by
  simp [upTo, h]

end Plain

/-- What is asked of one node. -/
structure IsPlain (t : Parse) : Prop where
  /-- In a tag neither another tag nor a comment starts, not even inside a string. -/
  alone : t.rule.isTag = true → ∀ back ∈ (Plain.behind t).tails, Reference.starts back = false
  /-- In what looks like a tag in a raw block the blanks are those that the grammar knows. -/
  blanks : t.rule = .rawText → ∀ back ∈ t.text.tails, Reference.starts back = true →
    (back.takeWhile (· ≠ '\x7d')).all Plain.isKnown = true
  /-- A referring tag has names. -/
  named : t.rule.isReferring = true → Plain.names t ≠ []
  /-- Names are not empty and stand in quotes. -/
  quoted : t.rule.isReferring = true → ∀ name ∈ Plain.names t, 2 < name.text.length ∧ name.text.head? ≠ some '`'
  /-- The first closing bracket closes a list. -/
  listed : t.rule = .stringArray → ∀ name ∈ t.inner, ']' ∉ name.text
  /-- Blanks stand before `ignore` and before `missing`. -/
  spaced : t.rule = .includeTag → ∀ words ∈ t.inner, words.rule = .ignoreMissing →
    words.text ≠ "ignoremissing".toList ∧ (Plain.upTo t words).getLast?.any isSpace = true

instance (t : Parse) : Decidable (IsPlain t) :=
  decidable_of_iff
    ((t.rule.isTag = true → ∀ back ∈ (Plain.behind t).tails, Reference.starts back = false) ∧
      (t.rule = .rawText → ∀ back ∈ t.text.tails, Reference.starts back = true →
        (back.takeWhile (· ≠ '\x7d')).all Plain.isKnown = true) ∧
      (t.rule.isReferring = true → Plain.names t ≠ []) ∧
      (t.rule.isReferring = true → ∀ name ∈ Plain.names t, 2 < name.text.length ∧ name.text.head? ≠ some '`') ∧
      (t.rule = .stringArray → ∀ name ∈ t.inner, ']' ∉ name.text) ∧
      (t.rule = .includeTag → ∀ words ∈ t.inner, words.rule = .ignoreMissing →
        words.text ≠ "ignoremissing".toList ∧ (Plain.upTo t words).getLast?.any isSpace = true))
    ⟨fun ⟨alone, blanks, named, quoted, listed, spaced⟩ => ⟨alone, blanks, named, quoted, listed, spaced⟩,
      fun ⟨alone, blanks, named, quoted, listed, spaced⟩ => ⟨alone, blanks, named, quoted, listed, spaced⟩⟩

def ArePlain (ts : List Parse) : Prop := ∀ t ∈ Tree.nodesOf ts, IsPlain t

theorem arePlain_append {ts us : List Parse} : ArePlain (ts ++ us) ↔ ArePlain ts ∧ ArePlain us := by
  unfold ArePlain
  rw [Tree.nodesOf_append, List.forall_mem_append]

theorem arePlain_node {r : Rule} {start : List Char} {size : Nat} {inner : List Parse} :
    ArePlain [.node r start size inner] ↔ IsPlain (.node r start size inner) ∧ ArePlain inner := by
  unfold ArePlain
  rw [Tree.nodesOf_node, List.forall_mem_cons]

theorem ArePlain.isPlain {ts : List Parse} (h : ArePlain ts) {t : Parse} (listed : t ∈ ts) : IsPlain t :=
  h t (Tree.nodesOf_of_mem listed List.mem_cons_self)

/-- A source that is no template, or a template all of whose nodes are plain. -/
def IsPlainSource (source : String) : Prop :=
  ∀ tree, Peg.read grammar .template source.toList = .ok tree → ∀ t ∈ tree.nodes, IsPlain t

instance (source : String) : Decidable (IsPlainSource source) :=
  match found : Peg.read grammar .template source.toList with
  | .error _ => .isTrue fun tree same => by rw [found] at same; cases same
  | .ok tree => decidable_of_iff (∀ t ∈ tree.nodes, IsPlain t)
      ⟨fun plain tree' same => by rw [found] at same; cases same; exact plain, fun plain => plain tree found⟩

end Template
end Pageweave
