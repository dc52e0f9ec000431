import Pageweave.Proofs.Reference.Scanning
import Pageweave.Proofs.Template.Founded
/-!
# The texts of tags

How a text looks that the grammar takes for a tag: an opening brace, a percent sign and perhaps a minus, blanks, the
tag's word, and at the end a closing brace.
-/
namespace Pageweave.Template

open Peg

/-- A pattern of the grammar of templates reads from one text to another. -/
abbrev Reads (c : Setting) (p : Pattern Rule) (cs : List Char) (ts : List Parse) (ds : List Char) : Prop :=
  Derives grammar c p cs (some (ts, ds))

variable {c : Setting} {cs ds : List Char} {ts : List Parse}

theorem isBlank_of_isSpace {x : Char} (h : isSpace x = true) : Text.isBlank x = true := by
  simp only [isSpace, Bool.or_eq_true, decide_eq_true_eq] at h
  rcases h with ((rfl | rfl) | rfl) | rfl <;> rfl

def AllSpace (blanks : List Char) : Prop := ∀ b ∈ blanks, isSpace b = true

theorem AllSpace.blank {blanks : List Char} (h : AllSpace blanks) : ∀ b ∈ blanks, Text.isBlank b = true :=
  fun b listed => isBlank_of_isSpace (h b listed)

theorem skips_eq (c : Setting) (cs : List Char) : ∃ blanks, cs = blanks ++ c.skips cs ∧ AllSpace blanks := by
  unfold Setting.skips
  split
  · exact ⟨cs.takeWhile isSpace, List.takeWhile_append_dropWhile.symm, List.all_eq_true.mp List.all_takeWhile⟩
  · exact ⟨[], rfl, nofun⟩

theorem skips_tight (cs : List Char) : Setting.tight.skips cs = cs := if_neg (by decide)

theorem reads_lit {s : String} (h : Reads c (Pattern.lit s) cs ts ds) : ts = [] ∧ cs = s.toList ++ ds := h.of_chars

theorem reads_space (h : Reads c Rule.space cs ts ds) : ts = [] ∧ ∃ b, isSpace b = true ∧ cs = b :: ds := by
  have one {s : String} {b : Char} (h : Reads c (Pattern.lit s) cs ts ds) (only : s.toList = [b])
      (space : isSpace b = true) : ts = [] ∧ ∃ b, isSpace b = true ∧ cs = b :: ds := by
    obtain ⟨rfl, rfl⟩ := reads_lit h
    exact ⟨rfl, b, space, by rw [only]; rfl⟩
  rcases h.of_alt with h | ⟨-, h⟩
  · exact one h rfl rfl
  · rcases h.of_alt with h | ⟨-, h⟩
    · exact one h rfl rfl
    · rcases h.of_alt with h | ⟨-, h⟩
      · exact one h rfl rfl
      · exact one h rfl rfl

theorem reads_spaces (h : Reads .tight Rule.spaces cs ts ds) : ts = [] ∧ ∃ blanks, cs = blanks ++ ds ∧ AllSpace blanks := by
  refine Derives.of_star_tight (Q := fun cs ts ds => ts = [] ∧ ∃ blanks, cs = blanks ++ ds ∧ AllSpace blanks) (by decide)
    (fun cs _ => ⟨rfl, [], rfl, nofun⟩) ?_ h
  rintro cs first ms later ds one ⟨rfl, blanks, rfl, spaces⟩
  obtain ⟨rfl, b, space, rfl⟩ := reads_space one
  refine ⟨rfl, b :: blanks, rfl, fun x listed => ?_⟩
  rcases List.mem_cons.mp listed with rfl | listed
  · exact space
  · exact spaces x listed

theorem reads_spaces1 (h : Reads .tight Rule.spaces1 cs ts ds) :
    ts = [] ∧ ∃ blanks, cs = blanks ++ ds ∧ AllSpace blanks ∧ blanks ≠ [] := by
  obtain ⟨first, ms, later, one, more, rfl⟩ := h.of_seq
  obtain ⟨rfl, b, space, rfl⟩ := reads_space one
  rw [skips_tight] at more
  obtain ⟨rfl, blanks, rfl, spaces⟩ := reads_spaces more
  refine ⟨rfl, b :: blanks, rfl, fun x listed => ?_, List.cons_ne_nil b blanks⟩
  rcases List.mem_cons.mp listed with rfl | listed
  · exact space
  · exact spaces x listed

theorem reads_rule {r : Rule} (leaves : c.leaves = true) (h : Reads c (.rule r) cs ts ds) :
    ∃ inner, Reads ((Rule.kind r).inside c) r.body cs inner ds ∧
      ts = [.node r cs (cs.length - ds.length) inner] :=
  h.of_rule r.loud leaves

def IsMinus (minus : List Char) : Prop := minus = [] ∨ minus = ['-']

theorem reads_tagStart (leaves : c.leaves = true) (h : Reads c (.rule .tagStart) cs ts ds) :
    ∃ minus size, IsMinus minus ∧ cs = '\x7b' :: '%' :: (minus ++ ds) ∧ ts = [.node .tagStart cs size []] := by
  obtain ⟨inner, body, rfl⟩ := reads_rule leaves h
  rcases body.of_alt with h | ⟨-, h⟩
  · obtain ⟨rfl, rfl⟩ := reads_lit h
    exact ⟨['-'], _, .inr rfl, rfl, rfl⟩
  · obtain ⟨rfl, rfl⟩ := reads_lit h
    exact ⟨[], _, .inl rfl, rfl, rfl⟩

theorem reads_tagEnd (leaves : c.leaves = true) (h : Reads c (.rule .tagEnd) cs ts ds) :
    ∃ minus size, IsMinus minus ∧ cs = minus ++ '%' :: '\x7d' :: ds ∧ ts = [.node .tagEnd cs size []] := by
  obtain ⟨inner, body, rfl⟩ := reads_rule leaves h
  rcases body.of_alt with h | ⟨-, h⟩
  · obtain ⟨rfl, rfl⟩ := reads_lit h
    exact ⟨['-'], _, .inr rfl, rfl, rfl⟩
  · obtain ⟨rfl, rfl⟩ := reads_lit h
    exact ⟨[], _, .inl rfl, rfl, rfl⟩

theorem reads_variableStart (leaves : c.leaves = true) (h : Reads c (.rule .variableStart) cs ts ds) :
    ∃ minus, cs = '\x7b' :: '\x7b' :: (minus ++ ds) := by
  obtain ⟨inner, body, rfl⟩ := reads_rule leaves h
  rcases body.of_alt with h | ⟨-, h⟩
  · exact ⟨['-'], (reads_lit h).2⟩
  · exact ⟨[], (reads_lit h).2⟩

theorem reads_variableEnd (leaves : c.leaves = true) (h : Reads c (.rule .variableEnd) cs ts ds) :
    ∃ minus, cs = minus ++ '\x7d' :: '\x7d' :: ds := by
  obtain ⟨inner, body, rfl⟩ := reads_rule leaves h
  rcases body.of_alt with h | ⟨-, h⟩
  · exact ⟨['-'], (reads_lit h).2⟩
  · exact ⟨[], (reads_lit h).2⟩

/-- The last part of a sequence. -/
def lastOf : Pattern Rule → Pattern Rule
  | .seq _ back => lastOf back
  | p => p

theorem reads_last {p : Pattern Rule} (h : Reads c p cs ts ds) : ∃ front ms last, cs = front ++ ms ∧
    Reads c (lastOf p) ms last ds := by
  induction p generalizing cs ts with
  | seq front back _ ih =>
    obtain ⟨first, ms, second, reads, reads', -⟩ := h.of_seq
    obtain ⟨read, rfl⟩ := reads.suffix
    obtain ⟨front', ms', last, same, final⟩ := ih reads'
    obtain ⟨blanks, skipped, -⟩ := skips_eq c ms
    exact ⟨read ++ (blanks ++ front'), ms', last, by rw [skipped, same]; simp only [List.append_assoc], final⟩
  | _ => exact ⟨[], cs, ts, rfl, h⟩

theorem reads_close {p : Pattern Rule} (leaves : c.leaves = true)
    (last : lastOf p = .rule .tagEnd ∨ lastOf p = .rule .variableEnd) (h : Reads c p cs ts ds) :
    ∃ front, cs = front ++ '\x7d' :: ds := by
  obtain ⟨front, ms, ts', rfl, final⟩ := reads_last h
  rcases last with last | last
  · rw [last] at final
    obtain ⟨minus, -, -, rfl, -⟩ := reads_tagEnd leaves final
    exact ⟨front ++ (minus ++ ['%']), by simp⟩
  · rw [last] at final
    obtain ⟨minus, rfl⟩ := reads_variableEnd leaves final
    exact ⟨front ++ (minus ++ ['\x7d']), by simp⟩

/-- Up to `ds`, a text is a tag with this first word. -/
def IsTag (word : String) (cs ds : List Char) : Prop :=
  ∃ piece body, cs = '\x7b' :: (piece ++ ds) ∧ Reference.Opens word.toList piece body ∧ piece.getLast? = some '\x7d'

theorem isTag_of_parts {word : String} {minus before body : List Char} (minus_or_not : IsMinus minus)
    (spaces : AllSpace before) :
    IsTag word ('\x7b' :: '%' :: (minus ++ (before ++ (word.toList ++ (body ++ '\x7d' :: ds))))) ds := by
  refine ⟨'%' :: (minus ++ (before ++ (word.toList ++ (body ++ ['\x7d'])))), body ++ ['\x7d'], by simp, ?_, ?_⟩
  · exact ⟨minus, before, rfl, minus_or_not, spaces.blank⟩
  · simp [List.getLast?_cons, List.getLast?_append]

theorem isTag_tight {word : String} {more : Pattern Rule}
    (last : lastOf more = .rule .tagEnd)
    (h : Reads .tight (.seq (.rule .tagStart) (.seq Rule.spaces (.seq (Pattern.lit word) more))) cs ts ds) :
    IsTag word cs ds := by
  obtain ⟨_, ms, _, opens, h, -⟩ := h.of_seq
  obtain ⟨_, ms', _, before, h, -⟩ := h.of_seq
  obtain ⟨_, ms'', _, named, goes_on, -⟩ := h.of_seq
  rw [skips_tight] at before named goes_on
  obtain ⟨minus, _, minus_or_not, rfl, -⟩ := reads_tagStart rfl opens
  obtain ⟨-, blanks, rfl, spaces⟩ := reads_spaces before
  obtain ⟨-, rfl⟩ := reads_lit named
  obtain ⟨front, rfl⟩ := reads_close rfl (.inl last) goes_on
  exact isTag_of_parts minus_or_not spaces

theorem isTag_loose {word : String} {more : Pattern Rule} (last : lastOf more = .rule .tagEnd)
    (h : Reads .loose (.seq (.rule .tagStart) (.seq (Pattern.lit word) more)) cs ts ds) : IsTag word cs ds := by
  obtain ⟨_, ms, _, opens, h, -⟩ := h.of_seq
  obtain ⟨_, ms', _, named, goes_on, -⟩ := h.of_seq
  obtain ⟨minus, _, minus_or_not, rfl, -⟩ := reads_tagStart rfl opens
  obtain ⟨-, said⟩ := reads_lit named
  obtain ⟨front, closed⟩ := reads_close rfl (.inl last) goes_on
  obtain ⟨before, skipped, spaces⟩ := skips_eq .loose ms
  obtain ⟨between, skipped', -⟩ := skips_eq .loose ms'
  rw [skipped, said, skipped', closed, ← List.append_assoc between]
  exact isTag_of_parts minus_or_not spaces

/-- The first words of the tags that refer to nothing and are no raw block's. -/
def wordOf : Rule → Option String
  | .blockTag => some "block"
  | .macroTag => some "macro"
  | .ifTag => some "if"
  | .elifTag => some "elif"
  | .elseTag => some "else"
  | .forTag => some "for"
  | .filterTag => some "filter"
  | .setTag => some "set"
  | .setGlobalTag => some "set_global"
  | .endblockTag => some "endblock"
  | .endmacroTag => some "endmacro"
  | .endifTag => some "endif"
  | .endforTag => some "endfor"
  | .endfilterTag => some "endfilter"
  | .breakTag => some "break"
  | .continueTag => some "continue"
  | _ => none

theorem isOther_of_wordOf {r : Rule} {word : String} (named : wordOf r = some word) :
    Reference.isOther word.toList = true := by
  cases r <;> cases named <;> rfl

theorem isTag_of_reads {r : Rule} {word : String} (named : wordOf r = some word) (h : Reads .tight (.rule r) cs ts ds) :
    IsTag word cs ds := by
  obtain ⟨inner, body, -⟩ := reads_rule rfl h
  cases r <;> cases named <;> first | exact isTag_tight rfl body | exact isTag_loose rfl body

end Pageweave.Template
