import Pageweave.Proofs.Reference.Referring
import Pageweave.Proofs.Template.Plain
import Pageweave.Proofs.Template.Tags
/-!
# What the scan makes of the parts of a template

Text, comments, raw blocks, expressions and tags that refer to nothing leave what is found behind them as it is.
-/
namespace Pageweave.Template

open Peg Reference

variable {c : Setting} {cs ds : List Char} {ts : List Parse}

theorem none_of_lit {s : String} (h : Derives grammar c (Pattern.lit s) cs none) : Text.after? s.toList cs = none :=
  h.none_of_chars

theorem none_of_blockStart (h : Derives grammar c Rule.blockStart cs none) :
    Text.after? "\x7b\x7b".toList cs = none ∧ starts cs = false := by
  obtain ⟨no_variable, h⟩ := h.none_of_alt
  obtain ⟨no_tag, no_comment⟩ := h.none_of_alt
  have no_variable := none_of_lit no_variable.none_of_rule.none_of_alt.2
  have no_tag := none_of_lit no_tag.none_of_rule.none_of_alt.2
  have no_comment := none_of_lit no_comment.none_of_rule.none_of_alt.2
  refine ⟨no_variable, ?_⟩
  unfold starts
  split
  · simp [Text.after?] at no_comment
  · simp [Text.after?] at no_tag
  · rfl

theorem brace_of_blockStart (h : Reads c Rule.blockStart cs ts ds) : ∃ rest, cs = '\x7b' :: rest := by
  have brace {r : Rule} (h : Reads c (.rule r) cs ts ds) {long short : String} {l s : List Char}
      (body : r.body = .alt (Pattern.lit long) (Pattern.lit short)) (long_eq : long.toList = '\x7b' :: l)
      (short_eq : short.toList = '\x7b' :: s) : ∃ rest, cs = '\x7b' :: rest := by
    obtain ⟨inner, h⟩ := h.of_rule_body
    rw [show grammar.body r = r.body from rfl, body] at h
    rcases h.of_alt with h | ⟨-, h⟩
    · exact ⟨l ++ ds, by rw [(reads_lit h).2, long_eq]; rfl⟩
    · exact ⟨s ++ ds, by rw [(reads_lit h).2, short_eq]; rfl⟩
  rcases h.of_alt with h | ⟨-, h⟩
  · exact brace h rfl rfl rfl
  · rcases h.of_alt with h | ⟨-, h⟩
    · exact brace h rfl rfl rfl
    · exact brace h rfl rfl rfl

theorem starts_append {back : List Char} (h : starts (back ++ ds) = false) : starts back = false := by
  unfold starts at h ⊢
  split
  · simp at h
  · simp at h
  · rfl

theorem found_text (h : Reads .tight (.rule .text) cs ts ds) : found cs = found ds := by
  obtain ⟨inner, body, -⟩ := reads_rule rfl h
  obtain ⟨-, piece, rfl, nowhere, behind⟩ := (body.star_of_plus (by decide)).of_upTo (by decide)
  refine Quiet.found ⟨fun back suffix => ?_, fun last => ?_⟩
  · by_cases nothing : back = []
    · rw [nothing]
      rfl
    · exact starts_append (none_of_blockStart (nowhere back suffix nothing)).2
  · -- a brace at the end would start an expression together with the brace behind it
    rcases behind with nothing | ⟨x, fits⟩
    · exact nothing
    · obtain ⟨rest, rfl⟩ := brace_of_blockStart fits
      obtain ⟨front, rfl⟩ := List.getLast?_eq_some_iff.mp last
      have no_variable := (none_of_blockStart (nowhere ['\x7b'] (List.suffix_append _ _) (by simp))).1
      simp [Text.after?] at no_variable

theorem cutAt?_append_of_not_mem {m : Char} {mark front rest : List Char} (apart : m ∉ front) :
    (Text.cutAt? (m :: mark) (front ++ rest)).map Prod.snd = (Text.cutAt? (m :: mark) rest).map Prod.snd := by
  refine Text.cutAt?_append fun back suffix some_char => ?_
  obtain ⟨x, xs, rfl⟩ := List.exists_cons_of_ne_nil some_char
  exact if_neg fun (same : m = x) => apart (suffix.subset (same ▸ List.mem_cons_self))

theorem found_comment (h : Reads .tight (.rule .commentTag) cs ts ds) : found cs = found ds := by
  obtain ⟨inner, body, -⟩ := reads_rule rfl h
  obtain ⟨_, ms, _, opens, rest, -⟩ := body.of_seq
  obtain ⟨_, ms', _, text, closes, -⟩ := rest.of_seq
  rw [show (Kind.inside (Rule.kind .commentTag) .tight) = Setting.tight from rfl, skips_tight] at text closes
  obtain ⟨minus, rfl, plain⟩ : ∃ minus, cs = '\x7b' :: '#' :: (minus ++ ms) ∧ '#' ∉ minus := by
    obtain ⟨inner, opens, -⟩ := reads_rule rfl opens
    rcases opens.of_alt with opens | ⟨-, opens⟩
    · exact ⟨['-'], (reads_lit opens).2, by decide⟩
    · exact ⟨[], (reads_lit opens).2, by decide⟩
  obtain ⟨minus', rfl, plain'⟩ : ∃ minus, ms' = minus ++ ('#' :: '\x7d' :: ds) ∧ '#' ∉ minus := by
    obtain ⟨inner, closes, -⟩ := reads_rule rfl closes
    rcases closes.of_alt with closes | ⟨-, closes⟩
    · exact ⟨['-'], (reads_lit closes).2, by decide⟩
    · exact ⟨[], (reads_lit closes).2, by decide⟩
  obtain ⟨inner, text, -⟩ := reads_rule rfl text
  obtain ⟨-, front, rfl, nowhere, -⟩ := (text.star_of_plus (by decide)).of_upTo (by decide)
  refine found_of_inert ?_
  change (Text.cutAt? ['#', '\x7d'] (minus ++ (front ++ (minus' ++ '#' :: '\x7d' :: ds)))).map Prod.snd = some ds
  rw [cutAt?_append_of_not_mem plain, Text.cutAt?_append, cutAt?_append_of_not_mem plain']
  · simp [Text.cutAt?, Text.after?]
  · exact fun back suffix some_char => none_of_lit (nowhere back suffix some_char).none_of_rule.none_of_alt.2

/-- What a plain tag holds behind its opening brace is quiet; blanks may stand before it. -/
theorem quiet_of_plain {r : Rule} (lead : List Char) {piece : List Char} {inner : List Parse}
    (plain : IsPlain
      (.node r (lead ++ '\x7b' :: (piece ++ ds)) ((lead ++ '\x7b' :: (piece ++ ds)).length - ds.length) inner))
    (spaces : AllSpace lead) (tag : r.isTag = true) (closes : piece.getLast? ≠ some '\x7b') : Quiet piece ds where
  within back suffix := by
    have whole : lead ++ '\x7b' :: (piece ++ ds) = (lead ++ '\x7b' :: piece) ++ ds := by simp
    have text : (Peg.Tree.node r (lead ++ '\x7b' :: (piece ++ ds)) ((lead ++ '\x7b' :: (piece ++ ds)).length - ds.length)
        inner).text = lead ++ '\x7b' :: piece := by
      rw [whole]
      exact Tree.text_node
    have behind : (lead ++ '\x7b' :: piece).dropWhile isSpace = '\x7b' :: piece := by
      rw [List.dropWhile_append_of_pos spaces]
      rfl
    refine plain.alone tag back ?_
    rw [Plain.behind, text, List.mem_tails, behind]
    exact suffix
  across last := absurd last closes

theorem found_other_tag {r : Rule} {word : String} (other : wordOf r = some word) (h : Reads .tight (.rule r) cs ts ds)
    (plain : ArePlain ts) : found cs = found ds := by
  obtain ⟨inner, -, rfl⟩ := reads_rule rfl h
  obtain ⟨piece, body, rfl, opens, closes⟩ := isTag_of_reads other h
  have tag : r.isTag = true := by cases r <;> first | rfl | cases other
  exact found_of_other opens (isOther_of_wordOf other) 
    (quiet_of_plain [] (arePlain_node.mp plain).1 nofun tag (by simp [closes]))

theorem found_expression {r : Rule} (either : r = .variableTag ∨ r = .superTag) (h : Reads .tight (.rule r) cs ts ds)
    (plain : ArePlain ts) : found cs = found ds := by
  obtain ⟨inner, body, rfl⟩ := reads_rule rfl h
  have parts : ∃ middle, Reads .loose (.seq (.rule .variableStart) (.seq middle (.rule .variableEnd))) cs inner ds := by
    rcases either with rfl | rfl
    · exact ⟨_, body⟩
    · exact ⟨_, body⟩
  obtain ⟨middle, h⟩ := parts
  obtain ⟨_, ms, _, opens, rest, -⟩ := h.of_seq
  obtain ⟨minus, rfl⟩ := reads_variableStart rfl opens
  obtain ⟨blanks, skipped, -⟩ := skips_eq .loose ms
  obtain ⟨front, closed⟩ := reads_close rfl (.inr rfl) rest
  rw [skipped, closed] at plain ⊢
  have tag : r.isTag = true := by rcases either with rfl | rfl <;> rfl
  have whole : '\x7b' :: (minus ++ (blanks ++ (front ++ '\x7d' :: ds))) =
      '\x7b' :: (minus ++ (blanks ++ (front ++ ['\x7d']))) ++ ds := by simp
  rw [whole] at plain ⊢
  have quiet := quiet_of_plain [] (arePlain_node.mp plain).1 nofun tag
    (by simp [List.getLast?_cons, List.getLast?_append])
  have first (rest : List Char) :
      starts ('\x7b' :: ('\x7b' :: (minus ++ (blanks ++ (front ++ ['\x7d']))) ++ rest)) = false := rfl
  unfold found
  rw [active_cons (inert?_of_not_starts (first _)), quiet.active, tags_cons (tag?_of_not_starts (first _)),
    quiet.active_right.tags]

theorem opened?_eq {minus : List Char} (minus_or_not : IsMinus minus) (no_more : minus = [] → Text.after? ['-'] cs = none) :
    opened? ('\x7b' :: '%' :: (minus ++ cs)) = some (skipBlanks cs) := by
  rcases minus_or_not with rfl | rfl
  · have other : ∀ rest, cs ≠ '-' :: rest := by
      rintro rest rfl
      simpa [Text.after?] using no_more rfl
    unfold opened?
    split
    · next same => cases same; exact absurd rfl (other _)
    · next same => cases same; rfl
    · next no_tag => exact absurd rfl (no_tag _)
  · rfl

theorem closed?_eq {minus : List Char} (minus_or_not : IsMinus minus)
    (shown : skipBlanks cs = minus ++ '%' :: '\x7d' :: ds) : closed? cs = some ds := by
  unfold closed?
  rw [shown]
  rcases minus_or_not with rfl | rfl <;> rfl

/-- A tag that the grammar reads as a single word the scan reads so too. -/
theorem plainTag?_of_reads {word : String} (is_word : isWord word.toList = true)
    (h : Reads .loose (Rule.bareTag word) cs ts ds) : plainTag? word cs = some ds := by
  obtain ⟨_, ms, _, opens, rest, -⟩ := h.of_seq
  obtain ⟨_, ms', _, told, closes, -⟩ := rest.of_seq
  obtain ⟨minus, _, minus_or_not, rfl, -⟩ := reads_tagStart rfl opens
  obtain ⟨-, told⟩ := reads_lit told
  obtain ⟨minus', _, minus_or_not', closed, -⟩ := reads_tagEnd rfl closes
  obtain ⟨before, skipped, spaces⟩ := skips_eq .loose ms
  obtain ⟨between, skipped', spaces'⟩ := skips_eq .loose ms'
  have opened : Opens word.toList ('%' :: (minus ++ (before ++ (word.toList ++ ms')))) ms' :=
    ⟨minus, before, rfl, minus_or_not, spaces.blank⟩
  have shown : skipBlanks ms' = minus' ++ '%' :: '\x7d' :: ds := by
    rw [skipped', skipBlanks_append spaces'.blank, closed]
    rcases minus_or_not' with rfl | rfl <;> rfl
  rw [skipped, told]
  have read := opened?_of_opens opened is_word []
  simp only [List.append_nil] at read
  rw [plainTag?, read, Option.bind_some, Text.after?_append, Option.bind_some, closed?_eq minus_or_not' shown]

def isBrace (c : Char) : Bool := c = '\x7b' || c = '\x7d'

/-- Up to a brace all blanks are blanks of the grammar. -/
def KnownBlanks (cs : List Char) : Prop :=
  ∃ front b rest, cs = front ++ b :: rest ∧ isBrace b = true ∧ front.all Plain.isKnown = true

theorem not_blank_of_isBrace {b : Char} (brace : isBrace b = true) : Text.isBlank b = false ∧ isSpace b = false := by
  simp only [isBrace, Bool.or_eq_true, decide_eq_true_eq] at brace
  rcases brace with rfl | rfl <;> exact ⟨by decide, by decide⟩

theorem KnownBlanks.skips (h : KnownBlanks cs) (loose : c.mode = .loose) :
    c.skips cs = skipBlanks cs ∧ KnownBlanks (skipBlanks cs) := by
  obtain ⟨front, b, rest, rfl, brace, known⟩ := h
  rw [Setting.skips, if_pos loose]
  induction front with
  | nil =>
    obtain ⟨no_blank, no_space⟩ := not_blank_of_isBrace brace
    rw [List.nil_append, skipBlanks, List.dropWhile_cons, List.dropWhile_cons, no_blank, no_space]
    exact ⟨rfl, [], b, rest, rfl, brace, rfl⟩
  | cons x front ih =>
    rw [List.cons_append, skipBlanks, List.dropWhile_cons, List.dropWhile_cons]
    obtain ⟨here, later⟩ := Bool.and_eq_true_iff.mp (List.all_cons.symm.trans known)
    by_cases blank : Text.isBlank x = true
    · have space : isSpace x = true := by simpa [Plain.isKnown, blank] using here
      rw [if_pos space, if_pos blank]
      exact ih later
    · rw [if_neg (fun space => blank (isBlank_of_isSpace space)), if_neg blank]
      exact ⟨rfl, x :: front, b, rest, rfl, brace, known⟩

theorem KnownBlanks.of_append (word : List Char) (h : KnownBlanks (word ++ cs)) (no_brace : word.any isBrace = false) :
    KnownBlanks cs := by
  induction word with
  | nil => exact h
  | cons x word ih =>
    rw [List.any_cons, Bool.or_eq_false_iff] at no_brace
    refine ih ?_ no_brace.2
    obtain ⟨front, b, rest, same, brace, known⟩ := h
    cases front with
    | nil =>
      cases same
      rw [no_brace.1] at brace
      cases brace
    | cons y front =>
      rw [List.cons_append, List.cons_append] at same
      exact ⟨front, b, rest, (List.cons.inj same).2, brace, (Bool.and_eq_true_iff.mp (List.all_cons.symm.trans known)).2⟩

/-- Where all blanks are known, a tag that the grammar does not see the scan does not see either. -/
theorem plainTag?_of_none {word : String} (no_brace : word.toList.any isBrace = false) (loose : c.mode = .loose)
    (known : KnownBlanks (cs.drop 1)) (h : Derives grammar c (Rule.bareTag word) cs none) : plainTag? word cs = none := by
  cases h with
  | seq_front no_start =>
    have no_start := none_of_lit no_start.none_of_rule.none_of_alt.2
    have no_tag : opened? cs = none := by
      unfold opened?
      split
      · simp [Text.after?] at no_start
      · simp [Text.after?] at no_start
      · rfl
    rw [plainTag?, no_tag, Option.bind_none, Option.bind_none]
  | @seq_back _ _ _ _ _ ms start rest =>
    obtain ⟨minus, minus_or_not, rfl, no_more⟩ : ∃ minus, IsMinus minus ∧ cs = '\x7b' :: '%' :: (minus ++ ms) ∧
        (minus = [] → Text.after? ['-'] ms = none) := by
      obtain ⟨inner, start⟩ := start.of_rule_body
      rcases start.of_alt with start | ⟨no_minus, start⟩
      · exact ⟨['-'], .inr rfl, (reads_lit start).2, fun none => absurd none (List.cons_ne_nil _ _)⟩
      · obtain ⟨-, rfl⟩ := reads_lit start
        exact ⟨[], .inl rfl, rfl, fun _ => none_of_lit no_minus⟩
    have known_ms : KnownBlanks ms := by
      refine KnownBlanks.of_append ('%' :: minus) known ?_
      rcases minus_or_not with rfl | rfl <;> decide
    obtain ⟨skipped, known_word⟩ := known_ms.skips loose
    rw [skipped] at rest
    rw [plainTag?, opened?_eq minus_or_not no_more, Option.bind_some]
    cases rest with
    | seq_front no_word => rw [none_of_lit no_word, Option.bind_none]
    | @seq_back _ _ _ _ _ ms' told no_end =>
      obtain ⟨-, told⟩ := reads_lit told
      rw [told] at known_word
      obtain ⟨skipped', -⟩ := (known_word.of_append _ no_brace).skips loose
      rw [skipped'] at no_end
      obtain ⟨with_minus, without⟩ := no_end.none_of_rule.none_of_alt
      have with_minus := none_of_lit with_minus
      have without := none_of_lit without
      rw [told, Text.after?_append, Option.bind_some]
      unfold closed?
      split
      · next same => simp [same, Text.after?] at with_minus
      · next same => simp [same, Text.after?] at without
      · rfl

theorem starts_append_brace {back : List Char} (rest : List Char) (some_char : back ≠ []) :
    starts (back ++ '\x7b' :: rest) = starts back := by
  match back with
  | [x] =>
    by_cases same : x = '\x7b'
    · rw [same]
      rfl
    · simp [starts, same]
  | x :: y :: back =>
    change starts (x :: y :: (back ++ '\x7b' :: rest)) = starts (x :: y :: back)
    unfold starts
    split <;> simp_all

theorem knownBlanks_of_takeWhile {back : List Char} (rest : List Char)
    (known : (back.takeWhile (· ≠ '\x7d')).all Plain.isKnown = true) :
    KnownBlanks (back ++ '\x7b' :: rest) := by
  have whole : back.takeWhile (· ≠ '\x7d') ++ back.dropWhile (· ≠ '\x7d') = back := List.takeWhile_append_dropWhile
  cases left : back.dropWhile (· ≠ '\x7d') with
  | nil =>
    rw [left, List.append_nil] at whole
    rw [whole] at known
    exact ⟨back, _, rest, rfl, rfl, known⟩
  | cons b more =>
    have closing := List.head?_dropWhile_not (· ≠ '\x7d') back
    rw [left] at closing whole
    have same : b = '\x7d' := by simpa using closing
    exact ⟨_, b, more ++ '\x7b' :: rest, by rw [← List.cons_append, ← List.append_assoc, whole], by rw [same]; rfl, known⟩

/-- Nowhere in a raw text the scan sees an end of the block. -/
theorem plainTag?_in_raw {front rest : List Char}
    (nowhere : ∀ back, back <:+ front → back ≠ [] →
      Derives grammar c (.rule .endrawTag) (back ++ '\x7b' :: rest) none)
    (known : ∀ back ∈ front.tails, starts back = true → (back.takeWhile (· ≠ '\x7d')).all Plain.isKnown = true) :
    ∀ back, back <:+ front → back ≠ [] → plainTag? "endraw" (back ++ '\x7b' :: rest) = none := by
  intro back suffix some_char
  cases here : starts back with
  | false =>
    rw [← starts_append_brace rest some_char] at here
    rw [plainTag?, opened?_of_not_starts here, Option.bind_none, Option.bind_none]
  | true =>
    have known := known back ((List.mem_tails _ _).mpr suffix) here
    refine plainTag?_of_none (by decide) rfl ?_ (nowhere back suffix some_char).none_of_rule
    obtain ⟨x, back, rfl⟩ := List.exists_cons_of_ne_nil some_char
    have opening : x = '\x7b' := by
      unfold starts at here
      split at here
      · next same => exact (List.cons.inj same).1
      · next same => exact (List.cons.inj same).1
      · cases here
    rw [opening, List.takeWhile_cons, if_pos (by decide), List.all_cons, Bool.and_eq_true] at known
    exact knownBlanks_of_takeWhile rest known.2

theorem found_raw (h : Reads .tight (.rule .raw) cs ts ds) (plain : ArePlain ts) : found cs = found ds := by
  obtain ⟨inner, body, rfl⟩ := reads_rule rfl h
  obtain ⟨first, ms, _, opens, rest, rfl⟩ := body.of_seq
  obtain ⟨text, ms', last, holds, closes, rfl⟩ := rest.of_seq
  rw [show (Kind.inside (Rule.kind .raw) .tight) = Setting.tight from rfl, skips_tight] at holds closes
  obtain ⟨_, opens, -⟩ := reads_rule rfl opens
  obtain ⟨_, closes, -⟩ := reads_rule rfl closes
  obtain ⟨_, until_end, rfl⟩ := reads_rule rfl holds
  obtain ⟨-, front, rfl, nowhere, -⟩ := Derives.of_upTo (c := .tight) (by decide) until_end
  have opened := plainTag?_of_reads rfl opens
  have closed := plainTag?_of_reads rfl closes
  have known : ∀ back ∈ front.tails, starts back = true →
      (back.takeWhile (· ≠ '\x7d')).all Plain.isKnown = true := by
    have node := (arePlain_node.mp (arePlain_append.mp (arePlain_append.mp (arePlain_node.mp plain).2).2).1).1
    have blanks := node.blanks rfl
    rwa [Tree.text_node] at blanks
  obtain ⟨rest', rfl⟩ : ∃ rest, ms' = '\x7b' :: rest := by
    obtain ⟨_, _, _, start, -, -⟩ := closes.of_seq
    obtain ⟨minus, _, -, rfl, -⟩ := reads_tagStart rfl start
    exact ⟨_, rfl⟩
  have raw : (plainTag? "raw" cs).bind (findAfter? (plainTag? "endraw")) = some ds := by
    rw [opened, Option.bind_some]
    exact findAfter?_append (plainTag?_in_raw nowhere known) closed
  have inert : inert? cs = some ds := by
    unfold inert?
    split
    · -- a comment does not open like a tag
      simp [plainTag?, opened?] at opened
    · exact raw
  obtain ⟨x, cs, rfl⟩ : ∃ x xs, cs = x :: xs := by
    cases cs with
    | nil => simp [plainTag?, opened?] at opened
    | cons x cs => exact ⟨x, cs, rfl⟩
  exact found_of_inert inert

end Pageweave.Template
