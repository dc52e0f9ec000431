import Pageweave.Proofs.Reference.Referring
import Pageweave.Proofs.Template.Plain
import Pageweave.Proofs.Template.Tags
/-!
# Tags that name templates

What the grammar reads as the names of a tag: a string, or a list of strings with commas and blanks around them. If the
tag is plain, the scan takes the same text for the names and finds the same ones in it.
-/
namespace Pageweave.Template

open Peg Reference

variable {c : Setting} {cs ds : List Char} {ts : List Parse}

/-- A string, also an empty one and one in backquotes. -/
def IsString (t : Parse) : Prop :=
  t.rule = .string ∧ ∃ q name, t.text = q :: (name ++ [q]) ∧ q ∉ name ∧ (isQuote q = true ∨ q = '`')

theorem reads_quoted {mark : String} {q : Char} (tight : c.mode ≠ .loose) (only : mark.toList = [q])
    (h : Reads c (Rule.quoted mark) cs ts ds) : ts = [] ∧ ∃ name, cs = q :: (name ++ q :: ds) ∧ q ∉ name := by
  have no_skip (cs : List Char) : c.skips cs = cs := if_neg tight
  obtain ⟨first, ms, _, opens, rest, rfl⟩ := h.of_seq
  obtain ⟨second, ms', third, text, closes, rfl⟩ := rest.of_seq
  rw [no_skip] at text closes
  obtain ⟨rfl, rfl⟩ := reads_lit opens
  obtain ⟨rfl, rfl⟩ := reads_lit closes
  obtain ⟨rfl, name, rfl, nowhere, -⟩ := text.of_upTo tight
  refine ⟨rfl, name, by simp [only], fun listed => ?_⟩
  obtain ⟨front, back, rfl⟩ := List.append_of_mem listed
  have not_here := (nowhere (q :: back) (List.suffix_append _ _) (List.cons_ne_nil _ _)).none_of_chars
  simp [only, Text.after?] at not_here

theorem reads_string (leaves : c.leaves = true) (h : Reads c (.rule .string) cs ts ds) :
    ∃ t, ts = [t] ∧ IsString t ∧ t.start = cs ∧ cs = t.text ++ ds := by
  obtain ⟨inner, body, rfl⟩ := reads_rule leaves h
  have quoted : ∃ q name, cs = q :: (name ++ q :: ds) ∧ q ∉ name ∧ (isQuote q = true ∨ q = '`') := by
    rcases body.of_alt with h | ⟨-, h⟩
    · obtain ⟨-, name, same, apart⟩ := reads_quoted (by nofun) rfl h
      exact ⟨'"', name, same, apart, .inl rfl⟩
    · rcases h.of_alt with h | ⟨-, h⟩
      · obtain ⟨-, name, same, apart⟩ := reads_quoted (by nofun) rfl h
        exact ⟨'\'', name, same, apart, .inl rfl⟩
      · obtain ⟨-, name, same, apart⟩ := reads_quoted (by nofun) rfl h
        exact ⟨'`', name, same, apart, .inr rfl⟩
  obtain ⟨q, name, rfl, apart, quote⟩ := quoted
  have whole : q :: (name ++ q :: ds) = q :: (name ++ [q]) ++ ds := by simp
  have text (inner : List Parse) :
      (Peg.Tree.node Rule.string (q :: (name ++ q :: ds)) ((q :: (name ++ q :: ds)).length - ds.length) inner).text =
        q :: (name ++ [q]) := by
    rw [whole]
    exact Tree.text_node
  exact ⟨_, rfl, ⟨rfl, q, name, text inner, apart, quote⟩, rfl, by rw [text inner, ← whole]⟩

/-- Strings with commas and blanks around them. -/
def AreListed (cs : List Char) (ts : List Parse) (ds : List Char) : Prop :=
  ∃ inside, cs = inside ++ ds ∧ Listed inside (ts.map Tree.text) ∧ ∀ t ∈ ts, IsString t

namespace AreListed

variable {ms : List Char} {us : List Parse}

theorem nil (cs : List Char) : AreListed cs [] cs := ⟨[], rfl, .nil, nofun⟩

theorem append (h : AreListed cs ts ms) (h' : AreListed ms us ds) : AreListed cs (ts ++ us) ds := by
  obtain ⟨inside, rfl, listed, strings⟩ := h
  obtain ⟨inside', rfl, listed', strings'⟩ := h'
  refine ⟨inside ++ inside', by rw [List.append_assoc], ?_, List.forall_mem_append.mpr ⟨strings, strings'⟩⟩
  rw [List.map_append]
  exact listed.append listed'

theorem skips (c : Setting) (cs : List Char) : AreListed cs [] (c.skips cs) := by
  obtain ⟨blanks, skipped, spaces⟩ := skips_eq c cs
  exact ⟨blanks, skipped, .of_gaps fun b listed => .inr (spaces.blank b listed), nofun⟩

theorem of_string (leaves : c.leaves = true) (h : Reads c (.rule .string) cs ts ds) : AreListed cs ts ds := by
  obtain ⟨t, rfl, string, -, same⟩ := reads_string leaves h
  exact ⟨t.text, same, .of_item t.text, List.forall_mem_singleton.mpr string⟩

theorem of_comma (h : Reads c (Pattern.lit ",") cs ts ds) : AreListed cs ts ds := by
  obtain ⟨rfl, rfl⟩ := reads_lit h
  exact ⟨[','], rfl, .gap (.inl rfl) .nil, nofun⟩

theorem of_seq {front back : Pattern Rule} (first : ∀ {cs ts ds}, Reads c front cs ts ds → AreListed cs ts ds)
    (second : ∀ {cs ts ds}, Reads c back cs ts ds → AreListed cs ts ds) (h : Reads c (.seq front back) cs ts ds) :
    AreListed cs ts ds := by
  obtain ⟨_, ms, _, reads, reads', rfl⟩ := h.of_seq
  exact (first reads).append ((skips c ms).append (second reads'))

theorem of_star {p : Pattern Rule} (one : ∀ {cs ts ds}, Reads c p cs ts ds → AreListed cs ts ds)
    (h : Reads c (.star p) cs ts ds) : AreListed cs ts ds :=
  Derives.of_star (fun cs _ => nil cs) (fun _ _ _ reads _ => one reads)
    (fun _ _ ms _ _ reads rest => (one reads).append ((skips c ms).append rest)) h

theorem of_opt {p : Pattern Rule} (one : ∀ {cs ts ds}, Reads c p cs ts ds → AreListed cs ts ds)
    (h : Reads c (.opt p) cs ts ds) : AreListed cs ts ds := by
  rcases h.of_opt with h | ⟨-, rfl, rfl⟩
  · exact one h
  · exact nil _

end AreListed

theorem reads_stringArray (h : Reads .tight (.rule .stringArray) cs ts ds) : ∃ t inside, ts = [t] ∧ t.start = cs ∧
    t.rule = .stringArray ∧ cs = '[' :: (inside ++ ']' :: ds) ∧ Listed inside (t.inner.map Tree.text) ∧
    ∀ s ∈ t.inner, IsString s := by
  obtain ⟨inner, body, rfl⟩ := reads_rule rfl h
  obtain ⟨_, ms, _, opens, rest, rfl⟩ := body.of_seq
  obtain ⟨strings, ms', _, items, closes, rfl⟩ := rest.of_seq
  obtain ⟨rfl, rfl⟩ := reads_lit opens
  obtain ⟨rfl, closed⟩ := reads_lit closes
  have closed : Setting.loose.skips ms' = ']' :: ds := closed
  have string {cs ts ds} (h : Reads .loose (.rule .string) cs ts ds) := AreListed.of_string rfl h
  have commas : AreListed ((Setting.loose).skips ms) strings ms' :=
    AreListed.of_opt (AreListed.of_seq (AreListed.of_seq string (AreListed.of_star (AreListed.of_seq AreListed.of_comma
      string))) (AreListed.of_opt AreListed.of_comma)) items
  obtain ⟨inside, same, listed, are_strings⟩ :=
    (AreListed.skips .loose ms).append (commas.append (AreListed.skips .loose ms'))
  rw [List.nil_append, List.append_nil] at listed are_strings
  refine ⟨_, inside, rfl, rfl, rfl, ?_, ?_⟩
  · rw [same, closed]
    rfl
  · simpa [Tree.inner] using ⟨listed, are_strings⟩

/-- A string or a list of strings, with its text. -/
def IsNaming (t : Parse) (text : List Char) : Prop :=
  (IsString t ∧ text = t.text) ∨ (t.rule = .stringArray ∧ ∃ inside, text = '[' :: (inside ++ [']']) ∧
    Listed inside (t.inner.map Tree.text) ∧ ∀ s ∈ t.inner, IsString s)

theorem isName_of_isString {t : Parse} (string : IsString t) (plain : 2 < t.text.length ∧ t.text.head? ≠ some '`') :
    IsName t.text := by
  obtain ⟨-, q, name, text, apart, quote⟩ := string
  rw [text] at plain ⊢
  refine ⟨q, name, rfl, quote.resolve_right fun same => plain.2 (by rw [same]; rfl), apart, ?_⟩
  rintro rfl
  simp at plain

theorem target_of_naming {t : Parse} {text : List Char} (naming : IsNaming t text)
    (quoted : ∀ s ∈ Plain.strings t, 2 < s.text.length ∧ s.text.head? ≠ some '`')
    (listed : t.rule = .stringArray → ∀ s ∈ t.inner, ']' ∉ s.text) :
    IsTarget text ∧ namesIn text = (Plain.strings t).map fun s => Reading.unquoted s.text := by
  rcases naming with ⟨string, rfl⟩ | ⟨array, inside, rfl, items, are_strings⟩
  · have only : Plain.strings t = [t] := if_pos string.1
    rw [only] at quoted ⊢
    have name := isName_of_isString string (quoted t (List.mem_singleton_self t))
    exact ⟨isTarget_of_isName name, namesIn_of_isName name⟩
  · have all : Plain.strings t = t.inner := by simp [Plain.strings, array]
    rw [all] at quoted ⊢
    have names : ∀ text ∈ t.inner.map Tree.text, IsName text := by
      intro text listed'
      obtain ⟨s, inner, rfl⟩ := List.mem_map.mp listed'
      exact isName_of_isString (are_strings s inner) (quoted s inner)
    have apart : ']' ∉ inside := items.not_mem (by decide) (List.forall_mem_map.mpr (listed array))
    refine ⟨isTarget_list apart, ?_⟩
    rw [items.namesIn names, List.map_map]
    rfl

theorem reads_naming (h : Reads .tight (.alt (.rule .string) (.rule .stringArray)) cs ts ds) :
    ∃ t text, ts = [t] ∧ cs = text ++ ds ∧ IsNaming t text ∧ (t.rule = .string ∨ t.rule = .stringArray) := by
  rcases h.of_alt with h | ⟨-, h⟩
  · obtain ⟨t, rfl, string, -, same⟩ := reads_string rfl h
    exact ⟨t, t.text, rfl, same, .inl ⟨string, rfl⟩, .inl string.1⟩
  · obtain ⟨t, inside, rfl, -, array, rfl, items, strings⟩ := reads_stringArray h
    exact ⟨t, _, rfl, by simp, .inr ⟨array, inside, rfl, items, strings⟩, .inr array⟩

theorem IsNaming.getLast? {t : Parse} {text : List Char} (naming : IsNaming t text) :
    ∃ b, text.getLast? = some b ∧ isSpace b = false := by
  rcases naming with ⟨⟨-, q, name, text, -, quote⟩, rfl⟩ | ⟨-, inside, rfl, -⟩
  · refine ⟨q, by rw [text, List.getLast?_cons]; simp, ?_⟩
    simp only [isQuote, Bool.or_eq_true, decide_eq_true_eq] at quote
    rcases quote with (rfl | rfl) | rfl <;> rfl
  · exact ⟨']', by rw [List.getLast?_cons]; simp, rfl⟩

theorem reads_tag {word : String} {more : Pattern Rule} (h : Reads .tight (Rule.tag word more) cs ts ds) :
    ∃ minus before blanks middle us behind after minus' size size', cs = '\x7b' :: '%' :: (minus ++ (before ++
        (word.toList ++ (blanks ++ middle)))) ∧ IsMinus minus ∧ AllSpace before ∧ AllSpace blanks ∧ blanks ≠ [] ∧
      Reads .tight more middle us behind ∧ behind = after ++ (minus' ++ '%' :: '\x7d' :: ds) ∧ AllSpace after ∧
      IsMinus minus' ∧
      ts = .node .tagStart cs size [] :: (us ++ [.node .tagEnd (minus' ++ '%' :: '\x7d' :: ds) size' []]) := by
  obtain ⟨_, _, _, opens, opened, rfl⟩ := h.of_seq
  obtain ⟨_, _, _, before, spaced, rfl⟩ := opened.of_seq
  obtain ⟨_, _, _, told, worded, rfl⟩ := spaced.of_seq
  obtain ⟨_, middle, _, blanks, parted, rfl⟩ := worded.of_seq
  obtain ⟨us, behind, _, inside, filled, rfl⟩ := parted.of_seq
  obtain ⟨_, _, _, after, closes, rfl⟩ := filled.of_seq
  rw [skips_tight] at before told blanks inside after closes
  obtain ⟨minus, size, minus_or_not, rfl, rfl⟩ := reads_tagStart rfl opens
  obtain ⟨rfl, front, rfl, spaces⟩ := reads_spaces before
  obtain ⟨rfl, rfl⟩ := reads_lit told
  obtain ⟨rfl, between, rfl, spaces', some_blank⟩ := reads_spaces1 blanks
  obtain ⟨rfl, back, rfl, spaces''⟩ := reads_spaces after
  obtain ⟨minus', size', minus_or_not', rfl, rfl⟩ := reads_tagEnd rfl closes
  exact ⟨minus, front, between, middle, us, _, back, minus', size, size', rfl, minus_or_not, spaces, spaces', some_blank,
    inside, rfl, spaces'', minus_or_not', rfl⟩

end Pageweave.Template
