import Pageweave.Proofs.Reference.Stretches
import Pageweave.Proofs.Template.Naming
import Pageweave.Proofs.Template.Outline
/-!
# Plain referring tags are seen

Of every plain tag that includes, extends or imports the scan makes one reference: that of the names and the words that
the grammar reads in it.
-/
namespace Pageweave.Template

open Peg Reference

variable {cs ds : List Char} {ts : List Parse}

/-- The text of a referring tag with the blanks around it: the word, the text that it names templates with, and what
stands between that and the closing delimiter. -/
def IsNamingTag (word : String) (text gap cs ds : List Char) : Prop :=
  ∃ lead minus before blanks minus' trail,
    cs = lead ++ '\x7b' :: '%' :: (minus ++ (before ++ (word.toList ++ (blanks ++ (text ++ (gap ++ (minus' ++
      '%' :: '\x7d' :: (trail ++ ds)))))))) ∧
    AllSpace lead ∧ IsMinus minus ∧ AllSpace before ∧ AllSpace blanks ∧ blanks ≠ [] ∧ IsMinus minus' ∧ AllSpace trail

theorem quiet_spaces {lead rest : List Char} (spaces : AllSpace lead) : Quiet lead rest where
  within back suffix := by
    cases back with
    | nil => rfl
    | cons x back =>
      have space := spaces x (suffix.subset List.mem_cons_self)
      unfold starts
      split
      · next same => cases same; cases space
      · next same => cases same; cases space
      · rfl
  across last := by
    have space := spaces _ (List.mem_of_getLast? last)
    cases space

theorem getLast?_trail {front trail : List Char} (spaces : AllSpace trail) :
    (front ++ '\x7d' :: trail).getLast? ≠ some '\x7b' := by
  rw [List.getLast?_append, List.getLast?_cons, Option.some_or]
  cases last : trail.getLast? with
  | none => decide
  | some x =>
    have space := spaces x (List.mem_of_getLast? last)
    intro same
    cases same
    cases space

/-- The scan makes one reference of a naming tag; `left` is what stands behind `ignore missing`. -/
theorem IsNamingTag.found {word : String} {text gap left : List Char} {r : Rule} {inner : List Parse}
    (ignores : Bool) (h : IsNamingTag word text gap cs ds) (known : word ∈ ["include", "extends", "import"])
    (tag : r.isTag = true) (plain : IsPlain (.node r cs (cs.length - ds.length) inner)) (target : IsTarget text)
    (suffix : left <:+ gap)
    (leaves : ∀ minus rest, IsMinus minus →
      leave? (gap ++ (minus ++ '%' :: rest)) = if ignores then some (left ++ (minus ++ '%' :: rest)) else none) :
    found cs = ⟨namesIn text, ignores⟩ :: found ds := by
  obtain ⟨lead, minus, before, blanks, minus', trail, rfl, spaces, minus_or_not, spaces', spaces'', some_blank,
    minus_or_not', spaces'''⟩ := h
  let after := gap ++ (minus' ++ '%' :: '\x7d' :: trail)
  let piece := '%' :: (minus ++ (before ++ (word.toList ++ (blanks ++ (text ++ after)))))
  have whole : lead ++ '\x7b' :: '%' :: (minus ++ (before ++ (word.toList ++ (blanks ++ (text ++ (gap ++ (minus' ++
      '%' :: '\x7d' :: (trail ++ ds)))))))) = lead ++ '\x7b' :: (piece ++ ds) := by simp [piece, after]
  have closes : piece.getLast? ≠ some '\x7b' := by
    have ends : piece = '%' :: (minus ++ (before ++ (word.toList ++ (blanks ++ (text ++ (gap ++ (minus' ++ ['%']))))))) ++
        '\x7d' :: trail := by simp [piece, after]
    rw [ends]
    exact getLast?_trail spaces'''
  rw [whole] at plain ⊢
  have quiet := quiet_of_plain lead plain spaces tag closes
  have opens : Opens word.toList piece (blanks ++ (text ++ after)) := ⟨minus, before, rfl, minus_or_not, spaces'.blank⟩
  have refers : Refers (blanks ++ (text ++ after)) text after := ⟨⟨blanks, rfl, some_blank, spaces''.blank⟩, target⟩
  have ends : after <:+ piece := ⟨'%' :: (minus ++ (before ++ (word.toList ++ (blanks ++ text)))), by simp [piece]⟩
  have seen (rest : List Char) : leave? (after ++ rest) =
      if ignores then some (left ++ (minus' ++ '%' :: '\x7d' :: trail) ++ rest) else none := by
    have seen := leaves minus' ('\x7d' :: (trail ++ rest)) minus_or_not'
    simpa [after] using seen
  rw [(quiet_spaces spaces).found]
  cases ignores with
  | true =>
    have suffix' : left ++ (minus' ++ '%' :: '\x7d' :: trail) <:+ after := by
      obtain ⟨front, rfl⟩ := suffix
      exact ⟨front, by simp [after]⟩
    exact found_of_refers opens known refers quiet (suffix'.trans ends) fun rest => .inl ⟨seen rest, rfl⟩
  | false => exact found_of_refers opens known refers quiet ends fun rest => .inr ⟨seen rest, rfl, rfl⟩

theorem leave?_of_end {blanks minus : List Char} (spaces : AllSpace blanks) (minus_or_not : IsMinus minus)
    (rest : List Char) : leave? (blanks ++ (minus ++ '%' :: rest)) = none := by
  rcases minus_or_not with rfl | rfl
  · exact leave?_of_other spaces.blank rfl (by decide) rest
  · exact leave?_of_other spaces.blank rfl (by decide) ('%' :: rest)

theorem target_of_plain {t : Parse} {text cs : List Char} {size : Nat} {r : Rule} {inner : List Parse}
    (naming : IsNaming t text) (plain : ArePlain [.node r cs size inner]) (referring : r.isReferring = true)
    (listed : t ∈ inner) : IsTarget text ∧ namesIn text = (Plain.strings t).map fun s => Reading.unquoted s.text := by
  obtain ⟨plain, inside⟩ := arePlain_node.mp plain
  refine target_of_naming naming (fun s string => plain.quoted referring s ?_) (ArePlain.isPlain inside listed).listed
  exact List.mem_flatMap.mpr ⟨t, listed, string⟩

theorem reads_naming_tag {word : String} {more : Pattern Rule} (lead trail : List Char) (spaces : AllSpace lead)
    (spaces' : AllSpace trail) (h : Reads .tight (Rule.tag word more) cs ts (trail ++ ds)) :
    ∃ middle us behind back first last, Reads .tight more middle us behind ∧ AllSpace back ∧
      ts = first :: (us ++ [last]) ∧ first.rule = .tagStart ∧ last.rule = .tagEnd ∧ middle <:+ lead ++ cs ∧
      ∀ text gap, middle = text ++ (gap ++ behind) → IsNamingTag word text (gap ++ back) (lead ++ cs) ds := by
  obtain ⟨minus, before, blanks, middle, us, behind, back, minus', size, size', rfl, minus_or_not, spaces₁, spaces₂,
    some_blank, inside, rfl, spaces₃, minus_or_not', rfl⟩ := reads_tag h
  have suffix : middle <:+ lead ++ '\x7b' :: '%' :: (minus ++ (before ++ (word.toList ++ (blanks ++ middle)))) :=
    ⟨lead ++ '\x7b' :: '%' :: (minus ++ (before ++ (word.toList ++ blanks))), by simp⟩
  refine ⟨middle, us, _, back, _, _, inside, spaces₃, rfl, rfl, rfl, suffix, fun text gap same => ?_⟩
  refine ⟨lead, minus, before, blanks, minus', trail, ?_, spaces, minus_or_not, spaces₁, spaces₂, some_blank,
    minus_or_not', spaces'⟩
  rw [same]
  simp only [List.append_assoc]

theorem found_extends (h : Reads .tight (.rule .extendsTag) cs ts ds) (plain : ArePlain ts) :
    found cs = ts.map referenceOf ++ found ds := by
  obtain ⟨inner, body, rfl⟩ := reads_rule rfl h
  obtain ⟨_, _, _, leads, rest, rfl⟩ := body.of_seq
  obtain ⟨_, _, _, tag, trails, rfl⟩ := rest.of_seq
  rw [show (Kind.inside (Rule.kind .extendsTag) .tight) = Setting.tight from rfl, skips_tight] at tag trails
  obtain ⟨rfl, lead, rfl, spaces⟩ := reads_spaces leads
  obtain ⟨rfl, trail, rfl, spaces'⟩ := reads_spaces trails
  obtain ⟨middle, us, behind, back, first, last, name, spaces₃, rfl, start, stop, -, naming⟩ :=
    reads_naming_tag lead trail spaces spaces' tag
  obtain ⟨t, rfl, string, -, same⟩ := reads_string rfl name
  obtain ⟨target, names⟩ := target_of_plain (.inl ⟨string, rfl⟩) plain rfl (by simp)
  have seen := (naming t.text [] same).found false (by simp) rfl (arePlain_node.mp plain).1 target (List.suffix_refl _)
    fun minus rest minus_or_not => leave?_of_end spaces₃ minus_or_not rest
  rw [seen, names]
  simp [referenceOf, Plain.names, Plain.strings, start, stop, string.1]

theorem found_import (h : Reads .tight (.rule .importTag) cs ts ds) (plain : ArePlain ts) :
    found cs = ts.map referenceOf ++ found ds := by
  obtain ⟨inner, body, rfl⟩ := reads_rule rfl h
  obtain ⟨_, _, _, leads, rest, rfl⟩ := body.of_seq
  obtain ⟨_, _, _, tag, trails, rfl⟩ := rest.of_seq
  rw [show (Kind.inside (Rule.kind .importTag) .tight) = Setting.tight from rfl, skips_tight] at tag trails
  obtain ⟨rfl, lead, rfl, spaces⟩ := reads_spaces leads
  obtain ⟨rfl, trail, rfl, spaces'⟩ := reads_spaces trails
  obtain ⟨middle, us, behind, back, first, last, parts, spaces₃, rfl, start, stop, -, naming⟩ :=
    reads_naming_tag lead trail spaces spaces' tag
  obtain ⟨_, _, _, name, named, rfl⟩ := parts.of_seq
  obtain ⟨_, _, _, before, behind_blanks, rfl⟩ := named.of_seq
  obtain ⟨_, _, _, word, behind_word, rfl⟩ := behind_blanks.of_seq
  obtain ⟨_, _, _, between, ident, rfl⟩ := behind_word.of_seq
  rw [skips_tight] at before word between ident
  obtain ⟨t, rfl, string, -, same⟩ := reads_string rfl name
  obtain ⟨rfl, blanks, rfl, spaces₄, some_blank⟩ := reads_spaces1 before
  obtain ⟨rfl, rfl⟩ := reads_lit word
  obtain ⟨rfl, blanks', rfl, -⟩ := reads_spaces1 between
  obtain ⟨space, rfl⟩ := ident.suffix
  obtain ⟨_, -, rfl⟩ := reads_rule rfl ident
  obtain ⟨target, names⟩ := target_of_plain (.inl ⟨string, rfl⟩) plain rfl (by simp)
  have stays (rest : List Char) : leave? (blanks ++ ("as".toList ++ rest)) = none :=
    leave?_of_other spaces₄.blank rfl (by decide) ('s' :: rest)
  have seen := (naming t.text (blanks ++ ("as".toList ++ (blanks' ++ space))) (by rw [same]; simp)).found false (by simp) rfl
    (arePlain_node.mp plain).1 target (List.suffix_refl _) fun minus rest _ => by
      simpa using stays (blanks' ++ (space ++ (back ++ (minus ++ '%' :: rest))))
  rw [seen, names]
  simp [referenceOf, Plain.names, Plain.strings, start, stop, string.1]

theorem reads_ignoreMissing (h : Reads .tight (.rule .ignoreMissing) cs ts ds) : ∃ t between, ts = [t] ∧
    t.rule = .ignoreMissing ∧ t.start = cs ∧ t.text = "ignore".toList ++ (between ++ "missing".toList) ∧
    cs = "ignore".toList ++ (between ++ ("missing".toList ++ ds)) ∧ AllSpace between := by
  obtain ⟨inner, body, rfl⟩ := reads_rule rfl h
  obtain ⟨_, _, _, first, rest, rfl⟩ := body.of_seq
  obtain ⟨_, _, _, blanks, second, rfl⟩ := rest.of_seq
  rw [show (Kind.inside (Rule.kind .ignoreMissing) .tight) = Setting.tight from rfl, skips_tight] at blanks second
  obtain ⟨rfl, rfl⟩ := reads_lit first
  obtain ⟨rfl, between, rfl, spaces⟩ := reads_spaces blanks
  obtain ⟨rfl, rfl⟩ := reads_lit second
  refine ⟨_, between, rfl, rfl, rfl, ?_, rfl, spaces⟩
  have whole : "ignore".toList ++ (between ++ ("missing".toList ++ ds)) =
      "ignore".toList ++ (between ++ "missing".toList) ++ ds := by simp
  rw [whole]
  exact Tree.text_node

theorem found_include (h : Reads .tight (.rule .includeTag) cs ts ds) (plain : ArePlain ts) :
    found cs = ts.map referenceOf ++ found ds := by
  obtain ⟨inner, body, rfl⟩ := reads_rule rfl h
  obtain ⟨middle, us, behind, back, first, last, parts, spaces₃, rfl, start, stop, front, naming⟩ :=
    reads_naming_tag [] [] nofun nofun body
  obtain ⟨_, _, _, names, named, rfl⟩ := parts.of_seq
  obtain ⟨_, _, _, blanks, words, rfl⟩ := named.of_seq
  rw [skips_tight] at blanks words
  obtain ⟨t, text, rfl, rfl, is_naming, string_or_array⟩ := reads_naming names
  obtain ⟨rfl, gap, rfl, spaces⟩ := reads_spaces blanks
  obtain ⟨target, found_names⟩ := target_of_plain is_naming plain rfl (by simp)
  have no_words : (t.rule == .ignoreMissing) = false := by rcases string_or_array with rule | rule <;> rw [rule] <;> rfl
  rcases words.of_opt with words | ⟨-, rfl, rfl⟩
  · obtain ⟨w, between, rfl, rule, from_there, words_text, rfl, spaces'⟩ := reads_ignoreMissing words
    have spaced := (arePlain_node.mp plain).1.spaced rfl w (by simp) rule
    have some_blank : between ≠ [] := by
      rintro rfl
      exact spaced.1 words_text
    -- without blanks the words would follow the quote or the bracket at once
    have some_blank' : gap ≠ [] := by
      rintro rfl
      obtain ⟨b, last_char, no_space⟩ := is_naming.getLast?
      obtain ⟨front, same⟩ := front
      have before_words : Plain.upTo (.node Rule.includeTag cs (cs.length - ds.length)
          (first :: ([t] ++ ([] ++ [w]) ++ [last]))) w = front ++ text := by
        refine Plain.upTo_eq ?_
        rw [Tree.start_node, from_there, List.append_assoc]
        exact same.symm
      rw [before_words, List.getLast?_append, last_char, Option.some_or, Option.any_some, no_space] at spaced
      cases spaced.2
    have seen := (naming text (gap ++ ("ignore".toList ++ (between ++ "missing".toList))) (by simp)).found true (by simp) rfl
      (arePlain_node.mp plain).1 target (List.suffix_append _ _) fun minus rest _ => by
        have leaves := leave?_append spaces.blank some_blank' spaces'.blank some_blank (back ++ (minus ++ '%' :: rest))
        simpa using leaves
    rw [List.nil_append] at seen
    rw [seen, found_names]
    simp [referenceOf, Plain.names, Plain.strings, start, stop, rule]
  · have seen := (naming text gap rfl).found false (by simp) rfl (arePlain_node.mp plain).1 target (List.suffix_refl _)
      fun minus rest minus_or_not =>
        leave?_of_end (List.forall_mem_append.mpr ⟨spaces, spaces₃⟩) minus_or_not rest
    rw [List.nil_append] at seen
    rw [seen, found_names]
    simp [referenceOf, Plain.names, Plain.strings, start, stop, no_words]

end Pageweave.Template
