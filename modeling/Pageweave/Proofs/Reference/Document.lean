import Pageweave.Proofs.Reference.Referring
/-!
# Documents and their references

A well-formed document is put together from pieces: plain text, expressions, comments, raw blocks and tags that refer to
other templates, with blanks and minus signs wherever a template may have them. The scan finds in a document just what
its tags refer to, in their order, whatever its comments and raw blocks hold.
-/
namespace Pageweave.Reference

/-- Blanks, or nothing. -/
structure Blanks where
  text : List Char
  blank : ∀ c ∈ text, Text.isBlank c = true

/-- One blank at least. -/
structure Gap extends Blanks where
  some_blank : text ≠ []

/-- What stands between a delimiter and the words of a tag: the delimiter may have a minus sign. -/
structure Edge where
  minus : Bool
  blanks : Blanks

namespace Edge

def sign (e : Edge) : List Char := if e.minus then ['-'] else []

/-- The start of a tag, without its brace. -/
def opening (e : Edge) : List Char := '%' :: (e.sign ++ e.blanks.text)

def closing (e : Edge) : List Char := e.blanks.text ++ (e.sign ++ ['%', '\x7d'])

end Edge

/-- A tag that holds just one word. -/
structure WordTag where
  front : Edge
  back : Edge

def WordTag.print (t : WordTag) (word : String) : List Char :=
  '\x7b' :: (t.front.opening ++ (word.toList ++ t.back.closing))

/-- A name in quotes, single or double. -/
structure Quoted where
  double : Bool
  name : List Char
  some_char : name ≠ []
  plain : ∀ c ∈ name, c ≠ '"' ∧ c ≠ '\'' ∧ c ≠ ']' ∧ c ≠ '\x7b'

namespace Quoted

def quote (q : Quoted) : Char := if q.double then '"' else '\''

def print (q : Quoted) : List Char := q.quote :: (q.name ++ [q.quote])

end Quoted

/-- What separates the names of a list. -/
structure Separator where
  text : List Char
  between : ∀ c ∈ text, c = ',' ∨ Text.isBlank c = true

inductive Target where
  | one (name : Quoted)
  | list (lead : Separator) (items : List (Quoted × Separator))

namespace Target

def quoted : Target → List Quoted
  | .one q => [q]
  | .list _ items => items.map Prod.fst

def print : Target → List Char
  | .one q => q.print
  | .list lead items => '[' :: (lead.text ++ items.flatMap (fun (q, s) => q.print ++ s.text) ++ [']'])

def names (t : Target) : List String := t.quoted.map fun q => String.ofList q.name

end Target

inductive Keyword where
  | «include»
  | «extends»
  | «import»

def Keyword.text : Keyword → String
  | .include => "include"
  | .extends => "extends"
  | .import => "import"

/-- The words `as` and an identifier, each behind a gap. -/
structure Alias where
  before : Gap
  between : Gap
  ident : List Char
  plain : ∀ c ∈ ident, c.isAlphanum = true ∨ c = '_'

def Alias.print (a : Alias) : List Char := a.before.text ++ ("as".toList ++ (a.between.text ++ a.ident))

/-- A tag that refers to other templates; the gaps of `ignores` are those in front of `ignore` and `missing`. -/
structure Tag where
  front : Edge
  keyword : Keyword
  gap : Gap
  target : Target
  ignores : Option (Gap × Gap)
  bound : Option Alias
  back : Edge

namespace Tag

/-- What may follow `ignore missing`. -/
def tail (t : Tag) : List Char := (t.bound.map Alias.print).getD [] ++ t.back.closing

def words (t : Tag) : List Char :=
  match t.ignores with
  | some (before, between) => before.text ++ ("ignore".toList ++ (between.text ++ "missing".toList))
  | none => []

def print (t : Tag) : List Char :=
  '\x7b' :: (t.front.opening ++ (t.keyword.text.toList ++ (t.gap.text ++ (t.target.print ++ (t.words ++ t.tail)))))

def reference (t : Tag) : Reference := ⟨t.target.names, t.ignores.isSome⟩

end Tag

inductive Piece where
  | text (cs : List Char) (plain : '\x7b' ∉ cs)
  | expression (cs : List Char) (plain : ∀ c ∈ cs, c ≠ '\x7b' ∧ c ≠ '%' ∧ c ≠ '#')
  | comment (cs : List Char) (plain : ¬ ['#', '\x7d'] <:+: cs)
  | raw (front : WordTag) (cs : List Char) (plain : ∀ t : WordTag, ¬ t.print "endraw" <:+: cs) (back : WordTag)
  | tag (t : Tag)

namespace Piece

def print : Piece → List Char
  | .text cs _ => cs
  | .expression cs _ => '\x7b' :: '\x7b' :: (cs ++ ['\x7d', '\x7d'])
  | .comment cs _ => '\x7b' :: '#' :: (cs ++ ['#', '\x7d'])
  | .raw front cs _ back => front.print "raw" ++ (cs ++ back.print "endraw")
  | .tag t => t.print

def referring? : Piece → Option Tag
  | .tag t => some t
  | _ => none

end Piece

abbrev Document := List Piece

namespace Document

def print (d : Document) : String := String.ofList (d.flatMap Piece.print)

/-- The references of the tags, in their order; a tag with an empty list refers to nothing. -/
def references (d : Document) : List Reference :=
  ((d.filterMap Piece.referring?).map Tag.reference).filter fun r => r.names ≠ []

end Document

variable {cs ds rest : List Char}

theorem quiet_of_not_mem (plain : '\x7b' ∉ cs) (rest : List Char) : Quiet cs rest where
  within back suffix := by
    have plain : '\x7b' ∉ back := fun there => plain (suffix.subset there)
    unfold starts
    split
    · simp at plain
    · simp at plain
    · rfl
  across last := absurd (List.mem_of_getLast? last) plain

theorem found_expression (plain : ∀ c ∈ cs, c ≠ '\x7b' ∧ c ≠ '%' ∧ c ≠ '#') (rest : List Char) :
    found ('\x7b' :: '\x7b' :: (cs ++ ['\x7d', '\x7d']) ++ rest) = found rest := by
  have closed : '\x7b' ∉ cs ++ ['\x7d', '\x7d'] := by
    intro there
    simp only [List.mem_append, List.mem_cons, List.not_mem_nil, or_false] at there
    rcases there with inside | same | same
    · exact (plain _ inside).1 rfl
    · cases same
    · cases same
  have second : starts ('\x7b' :: (cs ++ ['\x7d', '\x7d'])) = false := by
    cases cs with
    | nil => rfl
    | cons c cs =>
      obtain ⟨-, no_tag, no_comment⟩ := plain c List.mem_cons_self
      simp [starts, no_tag, no_comment]
  refine Quiet.found ⟨fun back suffix => ?_, fun last => ?_⟩
  · rcases List.suffix_cons_iff.mp suffix with rfl | suffix
    · rfl
    · rcases List.suffix_cons_iff.mp suffix with rfl | suffix
      · exact second
      · exact (quiet_of_not_mem closed rest).within back suffix
  · simp [List.getLast?_cons] at last

theorem found_comment (plain : ¬ ['#', '\x7d'] <:+: cs) (rest : List Char) :
    found ('\x7b' :: '#' :: (cs ++ ['#', '\x7d']) ++ rest) = found rest := by
  apply found_of_inert
  have nowhere (back : List Char) (suffix : back <:+ cs) (some_char : back ≠ []) :
      Text.after? ['#', '\x7d'] (back ++ '#' :: '\x7d' :: rest) = none := by
    match back with
    | [c] => simp [Text.after?]
    | c :: d :: back =>
      have apart : ¬ (c = '#' ∧ d = '\x7d') := by
        rintro ⟨rfl, rfl⟩
        exact plain (List.IsInfix.trans ⟨[], back, rfl⟩ suffix.isInfix)
      simp only [List.cons_append, Text.after?]
      split
      · split
        · rename_i hash brace
          exact absurd ⟨hash.symm, brace.symm⟩ apart
        · rfl
      · rfl
  have here : Text.cutAt? ['#', '\x7d'] ('#' :: '\x7d' :: rest) = some ([], rest) := by
    simp [Text.cutAt?, Text.after?]
  have whole : cs ++ ['#', '\x7d'] ++ rest = cs ++ '#' :: '\x7d' :: rest := by simp
  change (Text.cutAt? ['#', '\x7d'] (cs ++ ['#', '\x7d'] ++ rest)).map Prod.snd = some rest
  rw [whole, Text.cutAt?_append nowhere, here]
  rfl

/-! ## Raw blocks -/

theorem Edge.sign_cases (e : Edge) : e.sign = [] ∨ e.sign = ['-'] := by
  unfold sign
  split
  · exact .inr rfl
  · exact .inl rfl

theorem Edge.opens (e : Edge) (word body : List Char) : Opens word (e.opening ++ (word ++ body)) body :=
  ⟨e.sign, e.blanks.text, by simp [opening], e.sign_cases, e.blanks.blank⟩

theorem Edge.closed?_closing (e : Edge) (rest : List Char) : closed? (e.closing ++ rest) = some rest := by
  have shown : skipBlanks (e.closing ++ rest) = e.sign ++ '%' :: '\x7d' :: rest := by
    rw [closing, List.append_assoc, skipBlanks_append e.blanks.blank]
    rcases e.sign_cases with sign | sign <;> rw [sign] <;> rfl
  unfold Reference.closed?
  rw [shown]
  rcases e.sign_cases with sign | sign <;> rw [sign] <;> rfl

theorem WordTag.plainTag?_print {word : String} (is_word : isWord word.toList = true) (t : WordTag) (rest : List Char) :
    plainTag? word (t.print word ++ rest) = some rest := by
  have opened := opened?_of_opens (t.front.opens word.toList t.back.closing) is_word rest
  rw [Reference.plainTag?, print, List.cons_append, opened, Option.bind_some, Text.after?_append, Option.bind_some,
    t.back.closed?_closing]

theorem exists_blanks (cs : List Char) : ∃ b : Blanks, cs = b.text ++ skipBlanks cs :=
  ⟨⟨cs.takeWhile Text.isBlank, List.all_eq_true.mp List.all_takeWhile⟩, List.takeWhile_append_dropWhile.symm⟩

theorem Edge.exists_of_opened? (h : opened? cs = some ds) : ∃ e : Edge, cs = '\x7b' :: (e.opening ++ ds) := by
  unfold opened? at h
  split at h
  · rename_i rest
    obtain ⟨b, whole⟩ := exists_blanks rest
    obtain rfl := Option.some.inj h
    exact ⟨⟨true, b⟩, by simp [opening, sign, ← whole]⟩
  · rename_i rest _
    obtain ⟨b, whole⟩ := exists_blanks rest
    obtain rfl := Option.some.inj h
    exact ⟨⟨false, b⟩, by simp [opening, sign, ← whole]⟩
  · cases h

theorem Edge.exists_of_closed? (h : Reference.closed? cs = some ds) : ∃ e : Edge, cs = e.closing ++ ds := by
  obtain ⟨b, whole⟩ := exists_blanks cs
  unfold Reference.closed? at h
  split at h
  · rename_i rest shown
    obtain rfl := Option.some.inj h
    exact ⟨⟨true, b⟩, by simp [closing, sign, ← shown, ← whole]⟩
  · rename_i rest shown
    obtain rfl := Option.some.inj h
    exact ⟨⟨false, b⟩, by simp [closing, sign, ← shown, ← whole]⟩
  · cases h

theorem WordTag.exists_of_plainTag? {word : String} (h : Reference.plainTag? word cs = some ds) :
    ∃ t : WordTag, cs = t.print word ++ ds := by
  obtain ⟨behind_word, h, closes⟩ := Option.bind_eq_some_iff.mp h
  obtain ⟨behind_edge, opens, told⟩ := Option.bind_eq_some_iff.mp h
  obtain ⟨front, rfl⟩ := Edge.exists_of_opened? opens
  obtain ⟨back, rfl⟩ := Edge.exists_of_closed? closes
  obtain rfl := Text.after?_eq_some told
  exact ⟨⟨front, back⟩, by simp [print]⟩

theorem Blanks.not_mem (b : Blanks) : '\x7b' ∉ b.text := fun there => absurd (b.blank _ there) (by decide)

theorem Edge.not_mem_opening (e : Edge) : '\x7b' ∉ e.opening := by
  have blanks := e.blanks.not_mem
  rcases e.sign_cases with sign | sign <;> simp [opening, sign, blanks]

theorem Edge.not_mem_closing (e : Edge) : '\x7b' ∉ e.closing := by
  have blanks := e.blanks.not_mem
  rcases e.sign_cases with sign | sign <;> simp [closing, sign, blanks]

theorem findAfter?_endraw (plain : ∀ t : WordTag, ¬ t.print "endraw" <:+: cs) (back : WordTag) (rest : List Char) :
    findAfter? (plainTag? "endraw") (cs ++ (back.print "endraw" ++ rest)) = some rest := by
  refine findAfter?_append (fun last suffix some_char => ?_) (back.plainTag?_print rfl rest)
  rw [← Option.not_isSome_iff_eq_none, Option.isSome_iff_exists]
  rintro ⟨ds, early⟩
  obtain ⟨t, whole⟩ := WordTag.exists_of_plainTag? early
  have inside (front : List Char) (same : last = t.print "endraw" ++ front) : False :=
    plain t (List.IsInfix.trans ⟨[], front, same.symm⟩ suffix.isInfix)
  rcases List.append_eq_append_iff.mp whole with ⟨more, ends, across⟩ | ⟨front, same, -⟩
  · cases more with
    | nil => exact inside [] (by simpa using ends.symm)
    | cons x more =>
      -- the tag would have a second brace, where the printed one begins
      obtain ⟨c, last, rfl⟩ := List.exists_cons_of_ne_nil some_char
      have brace : x = '\x7b' := (List.cons.inj across).1.symm
      have tail : t.front.opening ++ ("endraw".toList ++ t.back.closing) = last ++ x :: more := (List.cons.inj ends).2
      have there : '\x7b' ∈ t.front.opening ++ ("endraw".toList ++ t.back.closing) := by
        rw [tail, brace]
        simp
      simp [t.front.not_mem_opening, t.back.not_mem_closing] at there
  · exact inside front same

theorem found_raw (front back : WordTag) (plain : ∀ t : WordTag, ¬ t.print "endraw" <:+: cs) (rest : List Char) :
    found (front.print "raw" ++ (cs ++ back.print "endraw") ++ rest) = found rest := by
  rw [List.append_assoc, List.append_assoc]
  apply found_of_inert
  change inert? ('\x7b' :: (front.front.opening ++ ("raw".toList ++ front.back.closing) ++
    (cs ++ (back.print "endraw" ++ rest)))) = some rest
  rw [inert?_of_opens (front.front.opens _ _) rfl, Text.after?_append, Option.bind_some, front.back.closed?_closing,
    Option.bind_some, findAfter?_endraw plain]

/-! ## Referring tags -/

namespace Quoted

theorem quote_cases (q : Quoted) : q.quote = '"' ∨ q.quote = '\'' := by
  unfold quote
  split
  · exact .inl rfl
  · exact .inr rfl

theorem isName (q : Quoted) : IsName q.print := by
  refine ⟨q.quote, q.name, rfl, ?_, fun there => ?_, q.some_char⟩
  · rcases q.quote_cases with double | single
    · rw [double]
      rfl
    · rw [single]
      rfl
  · obtain ⟨no_double, no_single, -⟩ := q.plain _ there
    rcases q.quote_cases with double | single
    · exact no_double double
    · exact no_single single

theorem not_mem_print (q : Quoted) : ']' ∉ q.print ∧ '\x7b' ∉ q.print := by
  have bracket : ']' ∉ q.name := fun there => (q.plain _ there).2.2.1 rfl
  have brace : '\x7b' ∉ q.name := fun there => (q.plain _ there).2.2.2 rfl
  rcases q.quote_cases with quote | quote <;> simp [print, quote, bracket, brace]

theorem unquoted_print (q : Quoted) : String.ofList (q.print.drop 1).dropLast = String.ofList q.name := by
  simp [print]

end Quoted

namespace Target

theorem listed (lead : Separator) (items : List (Quoted × Separator)) :
    Listed (lead.text ++ items.flatMap fun (q, s) => q.print ++ s.text) (items.map fun item => item.1.print) := by
  refine .append (.of_gaps lead.between) ?_
  induction items with
  | nil => exact .nil
  | cons item items ih =>
    rw [List.flatMap_cons, List.append_assoc]
    exact .item (.append (.of_gaps item.2.between) ih)

theorem isTarget (t : Target) : IsTarget t.print := by
  cases t with
  | one q => exact isTarget_of_isName q.isName
  | list lead items =>
    apply isTarget_list
    refine (listed lead items).not_mem (by decide) fun text there => ?_
    obtain ⟨item, -, rfl⟩ := List.mem_map.mp there
    exact item.1.not_mem_print.1

theorem not_mem_print (t : Target) : '\x7b' ∉ t.print := by
  cases t with
  | one q => exact q.not_mem_print.2
  | list lead items =>
    have inside : '\x7b' ∉ lead.text ++ items.flatMap fun (q, s) => q.print ++ s.text := by
      refine (listed lead items).not_mem (by decide) fun text there => ?_
      obtain ⟨item, -, rfl⟩ := List.mem_map.mp there
      exact item.1.not_mem_print.2
    intro there
    rcases List.mem_cons.mp there with same | there
    · cases same
    · rcases List.mem_append.mp there with there | last
      · exact inside there
      · cases List.mem_singleton.mp last

theorem namesIn_print (t : Target) : namesIn t.print = t.names := by
  cases t with
  | one q => rw [print, namesIn_of_isName q.isName, q.unquoted_print, names, quoted, List.map_singleton]
  | list lead items =>
    have are_names : ∀ text ∈ items.map (fun item => item.1.print), IsName text := by
      intro text there
      obtain ⟨item, -, rfl⟩ := List.mem_map.mp there
      exact item.1.isName
    rw [print, (listed lead items).namesIn are_names, names, quoted, List.map_map, List.map_map]
    exact List.map_congr_left fun item _ => item.1.unquoted_print

end Target

namespace Tag

theorem leave?_tail (t : Tag) (rest : List Char) : leave? (t.tail ++ rest) = none := by
  cases as_ident : t.bound with
  | none =>
    have tail : t.tail ++ rest = t.back.blanks.text ++ (t.back.sign ++ '%' :: '\x7d' :: rest) := by
      simp [tail, as_ident, Edge.closing]
    rw [tail]
    rcases t.back.sign_cases with sign | sign
    · rw [sign]
      exact leave?_of_other t.back.blanks.blank rfl (by decide) _
    · rw [sign]
      exact leave?_of_other t.back.blanks.blank rfl (by decide) _
  | some a =>
    have tail : t.tail ++ rest =
        a.before.text ++ 'a' :: 's' :: (a.between.text ++ (a.ident ++ (t.back.closing ++ rest))) := by
      simp [tail, as_ident, Alias.print]
    rw [tail]
    exact leave?_of_other a.before.blank rfl (by decide) _

theorem not_mem_tail (t : Tag) : '\x7b' ∉ t.tail := by
  have closing := t.back.not_mem_closing
  cases as_ident : t.bound with
  | none => simp [tail, as_ident, closing]
  | some a =>
    have ident : '\x7b' ∉ a.ident := fun there => absurd (a.plain _ there) (by decide)
    simp [tail, as_ident, Alias.print, a.before.not_mem, a.between.not_mem, ident, closing]

theorem not_mem_words (t : Tag) : '\x7b' ∉ t.words := by
  unfold words
  split
  · rename_i before between _
    simp [before.not_mem, between.not_mem]
  · exact List.not_mem_nil

/-- The scan makes one reference of a tag. -/
theorem found_print (t : Tag) (rest : List Char) : found (t.print ++ rest) = t.reference :: found rest := by
  have opens := t.front.opens t.keyword.text.toList (t.gap.text ++ (t.target.print ++ (t.words ++ t.tail)))
  have known : t.keyword.text ∈ ["include", "extends", "import"] := by
    cases t.keyword <;> decide
  have refers : Refers (t.gap.text ++ (t.target.print ++ (t.words ++ t.tail))) t.target.print (t.words ++ t.tail) :=
    ⟨⟨t.gap.text, rfl, t.gap.some_blank, t.gap.blank⟩, t.target.isTarget⟩
  have no_brace : '\x7b' ∉ t.keyword.text.toList := by
    cases t.keyword <;> decide
  have quiet : Quiet
      (t.front.opening ++ (t.keyword.text.toList ++ (t.gap.text ++ (t.target.print ++ (t.words ++ t.tail))))) rest := by
    apply quiet_of_not_mem
    simp [t.front.not_mem_opening, no_brace, t.gap.not_mem, t.target.not_mem_print, t.not_mem_words, t.not_mem_tail]
  have suffix : t.tail <:+
      t.front.opening ++ (t.keyword.text.toList ++ (t.gap.text ++ (t.target.print ++ (t.words ++ t.tail)))) :=
    ⟨t.front.opening ++ (t.keyword.text.toList ++ (t.gap.text ++ (t.target.print ++ t.words))), by simp⟩
  rw [reference, ← t.target.namesIn_print]
  refine found_of_refers opens known refers quiet suffix fun rest => ?_
  unfold words
  cases t.ignores with
  | none => exact .inr ⟨t.leave?_tail rest, rfl, rfl⟩
  | some gaps =>
    obtain ⟨before, between⟩ := gaps
    refine .inl ⟨?_, rfl⟩
    have leaves := leave?_append before.blank before.some_blank between.blank between.some_blank (t.tail ++ rest)
    simpa using leaves

end Tag

theorem Piece.found_print (p : Piece) (rest : List Char) :
    found (p.print ++ rest) = (p.referring?.map Tag.reference).toList ++ found rest := by
  cases p with
  | text cs plain => exact (quiet_of_not_mem plain rest).found
  | expression cs plain => exact found_expression plain rest
  | comment cs plain => exact found_comment plain rest
  | raw front cs plain back => exact found_raw front back plain rest
  | tag t => exact t.found_print rest

/-- Of a well-formed document the scan finds the references of its tags, all of them, in order, and nothing else. -/
theorem scan_print (d : Document) : scan d.print = d.references := by
  have whole : found (d.flatMap Piece.print) = (d.filterMap Piece.referring?).map Tag.reference := by
    induction d with
    | nil => rfl
    | cons p d ih =>
      rw [List.flatMap_cons, p.found_print, ih]
      cases p <;> rfl
  have scanned : scan d.print = (Reference.found d.print.toList).filter fun r => !r.names.isEmpty := rfl
  rw [scanned, Document.print, String.toList_ofList, whole, Document.references]
  refine List.filter_congr fun r _ => ?_
  cases r.names <;> simp

/-- A page that includes one of two names, if there is any, and shows in a raw block how this is written. -/
def manual : Document :=
  let blank : Blanks := ⟨[' '], by simp [Text.isBlank]⟩
  let gap : Gap := ⟨blank, by simp [blank]⟩
  [.comment " \x7b% raw %\x7d ".toList (by decide +kernel),
    .raw ⟨⟨false, blank⟩, ⟨true, blank⟩⟩ "\x7b% include 'a' %\x7d".toList
      (fun t inside => absurd
        (List.IsInfix.trans ⟨'\x7b' :: t.front.opening, t.back.closing, by simp [WordTag.print]⟩ inside :
          "endraw".toList <:+: "\x7b% include 'a' %\x7d".toList) (by decide +kernel))
      ⟨⟨true, blank⟩, ⟨false, blank⟩⟩,
    .tag ⟨⟨true, blank⟩, .include, gap, .list ⟨[], by simp⟩ [
      (⟨true, ['a'], by simp, by simp⟩, ⟨[',', ' '], by simp [Text.isBlank]⟩),
      (⟨false, ['b'], by simp, by simp⟩, ⟨[], by simp⟩)], some (gap, gap), none, ⟨false, blank⟩⟩]

example : manual.print = "\x7b# \x7b% raw %\x7d #\x7d\x7b% raw -%\x7d\x7b% include 'a' %\x7d\x7b%- endraw %\x7d" ++
    "\x7b%- include [\"a\", 'b'] ignore missing %\x7d" := by decide +kernel

example : manual.references = [⟨["a", "b"], true⟩] := by decide +kernel

end Pageweave.Reference
