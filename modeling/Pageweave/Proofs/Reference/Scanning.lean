import Pageweave.Proofs.Text.Pieces
import Pageweave.Reference
/-!
# Scanning piece by piece

What the scan finds in a text is what it finds in the pieces that the text is made of, as long as every piece is looked
at with the text behind it: pieces without the start of a tag or a comment yield nothing, comments and raw blocks vanish,
and of a tag only its first words count.
-/
namespace Pageweave

namespace Text

variable {word cs ds : List Char}

theorem after?_suffix (h : after? word cs = some ds) : ds <:+ cs := ⟨word, (after?_eq_some h).symm⟩

/-- Texts that differ before either ends. -/
def differs : List Char → List Char → Bool
  | c :: cs, d :: ds => c != d || differs cs ds
  | _, _ => false

theorem after?_of_differs {front : List Char} (h : differs word front = true) : after? word (front ++ cs) = none := by
  induction word generalizing front with
  | nil => cases h
  | cons c word ih =>
    cases front with
    | nil => cases h
    | cons d front =>
      rw [List.cons_append, after?]
      split
      · next same => exact ih (by simpa [differs, same] using h)
      · rfl

theorem cutAt?_suffix {front : List Char} (h : cutAt? word cs = some (front, ds)) : ds <:+ cs := by
  induction cs generalizing front with
  | nil =>
    obtain ⟨rest, found, ⟨⟩⟩ := Option.map_eq_some_iff.mp h
    exact after?_suffix found
  | cons c cs ih =>
    unfold cutAt? at h
    split at h
    · next rest found =>
      cases h
      exact after?_suffix found
    · obtain ⟨⟨front, rest⟩, found, ⟨⟩⟩ := Option.map_eq_some_iff.mp h
      exact (ih found).trans (List.suffix_cons c cs)

theorem cutAt?_append {mark front rest : List Char}
    (nowhere : ∀ back, back <:+ front → back ≠ [] → after? mark (back ++ rest) = none) :
    (cutAt? mark (front ++ rest)).map Prod.snd = (cutAt? mark rest).map Prod.snd := by
  induction front with
  | nil => rfl
  | cons x front ih =>
    have not_here := nowhere (x :: front) (List.suffix_refl _) (List.cons_ne_nil _ _)
    have later := ih fun back suffix => nowhere back (suffix.trans (List.suffix_cons x front))
    rw [List.cons_append] at not_here ⊢
    rw [cutAt?, not_here, ← later]
    cases cutAt? mark (front ++ rest) <;> rfl

end Text

namespace Reference

variable {cs ds piece rest : List Char} {r : Reference}

theorem skipBlanks_suffix (cs : List Char) : skipBlanks cs <:+ cs := List.dropWhile_suffix _

theorem opened?_suffix (h : opened? cs = some ds) : ds <:+ cs ∧ ds.length < cs.length := by
  unfold opened? at h
  split at h
  · next rest =>
    cases h
    have le := (skipBlanks_suffix rest).length_le
    exact ⟨(skipBlanks_suffix rest).trans ⟨['\x7b', '%', '-'], rfl⟩, by simp only [List.length_cons]; omega⟩
  · next rest _ =>
    cases h
    have le := (skipBlanks_suffix rest).length_le
    exact ⟨(skipBlanks_suffix rest).trans ⟨['\x7b', '%'], rfl⟩, by simp only [List.length_cons]; omega⟩
  · cases h

theorem closed?_suffix (h : closed? cs = some ds) : ds <:+ cs := by
  unfold closed? at h
  split at h
  · next rest same =>
    cases h
    exact List.IsSuffix.trans ⟨['-', '%', '\x7d'], same.symm⟩ (skipBlanks_suffix cs)
  · next rest same =>
    cases h
    exact List.IsSuffix.trans ⟨['%', '\x7d'], same.symm⟩ (skipBlanks_suffix cs)
  · cases h

theorem plainTag?_suffix {word : String} (h : plainTag? word cs = some ds) : ds <:+ cs ∧ ds.length < cs.length := by
  obtain ⟨ms, h, closes⟩ := Option.bind_eq_some_iff.mp h
  obtain ⟨us, opens, named⟩ := Option.bind_eq_some_iff.mp h
  have suffix := (closed?_suffix closes).trans (Text.after?_suffix named)
  obtain ⟨suffix', less⟩ := opened?_suffix opens
  exact ⟨suffix.trans suffix', Nat.lt_of_le_of_lt suffix.length_le less⟩

theorem findAfter?_suffix {reads : List Char → Option (List Char)} (shortens : ∀ {cs ds}, reads cs = some ds → ds <:+ cs)
    (h : findAfter? reads cs = some ds) : ds <:+ cs := by
  induction cs with
  | nil => exact shortens h
  | cons c cs ih =>
    unfold findAfter? at h
    split at h
    · next found => exact shortens (found.trans h)
    · exact (ih h).trans (List.suffix_cons c cs)

theorem findAfter?_append {reads : List Char → Option (List Char)} {front rest : List Char}
    (nowhere : ∀ back, back <:+ front → back ≠ [] → reads (back ++ rest) = none) (here : reads rest = some ds) :
    findAfter? reads (front ++ rest) = some ds := by
  induction front with
  | nil =>
    rw [List.nil_append]
    cases rest with
    | nil => exact here
    | cons x rest => rw [findAfter?, here]
  | cons x front ih =>
    have not_here := nowhere (x :: front) (List.suffix_refl _) (List.cons_ne_nil _ _)
    rw [List.cons_append] at not_here ⊢
    rw [findAfter?, not_here]
    exact ih fun back suffix => nowhere back (suffix.trans (List.suffix_cons x front))

theorem inert?_length_lt (h : inert? cs = some ds) : ds.length < cs.length := by
  unfold inert? at h
  split at h
  · next rest =>
    obtain ⟨⟨front, back⟩, cut, ⟨⟩⟩ := Option.map_eq_some_iff.mp h
    have le := (Text.cutAt?_suffix cut).length_le
    simp only [List.length_cons]
    omega
  · obtain ⟨ms, opens, closes⟩ := Option.bind_eq_some_iff.mp h
    exact Nat.lt_of_le_of_lt (findAfter?_suffix (fun h => (plainTag?_suffix h).1) closes).length_le
      (plainTag?_suffix opens).2

theorem upTo?_eq_some {close : Char} (h : upTo? close cs = some (piece, ds)) : cs = piece ++ close :: ds := by
  have whole : cs.takeWhile (· ≠ close) ++ cs.dropWhile (· ≠ close) = cs := List.takeWhile_append_dropWhile
  unfold upTo? at h
  split at h
  · rename_i c rest left
    obtain ⟨rfl, rfl⟩ := Prod.mk.inj (Option.some.inj h)
    have closing := List.head?_dropWhile_not (· ≠ close) cs
    rw [left] at closing
    have same : c = close := by simpa using closing
    rw [left, same] at whole
    exact whole.symm
  · cases h

theorem target?_eq_some (h : target? cs = some (piece, ds)) : cs = piece ++ ds := by
  unfold target? at h
  split at h
  all_goals first
    | cases h
    | obtain ⟨⟨inner, rest⟩, found, same⟩ := Option.map_eq_some_iff.mp h
      obtain ⟨rfl, rfl⟩ := Prod.mk.inj same
      rw [upTo?_eq_some found]
      simp

theorem target?_suffix {inner : List Char} (h : target? cs = some (inner, ds)) : ds <:+ cs :=
  ⟨inner, (target?_eq_some h).symm⟩

theorem blankThen?_suffix {word : String} (h : blankThen? word cs = some ds) : ds <:+ cs := by
  unfold blankThen? at h
  split at h
  · rw [Option.ite_none_right_eq_some] at h
    exact (Text.after?_suffix h.2).trans (skipBlanks_suffix _)
  · cases h

theorem leave?_suffix (h : leave? cs = some ds) : ds <:+ cs := by
  obtain ⟨ms, ignores, misses⟩ := Option.bind_eq_some_iff.mp h
  exact (blankThen?_suffix misses).trans (blankThen?_suffix ignores)

theorem keyword?_suffix (h : keyword? cs = some ds) : ds <:+ cs := by
  unfold keyword? at h
  simp only [Option.or_eq_some_iff] at h
  rcases h with found | ⟨-, found | ⟨-, found⟩⟩ <;> exact Text.after?_suffix found

/-- The first blank behind a keyword and those behind it. -/
def blanks? : List Char → Option (List Char)
  | c :: cs => if Text.isBlank c then some (skipBlanks (c :: cs)) else none
  | [] => none

theorem blanks?_suffix (h : blanks? cs = some ds) : ds <:+ cs := by
  unfold blanks? at h
  split at h
  · rw [Option.ite_none_right_eq_some] at h
    exact (Option.some.inj h.2) ▸ skipBlanks_suffix _
  · cases h

theorem tag?_eq (cs : List Char) :
    tag? cs = (((opened? cs).bind keyword?).bind blanks?).bind fun rest => (target? rest).bind fun found =>
      match leave? found.2 with
      | some rest => some (⟨namesIn found.1, true⟩, rest)
      | none => some (⟨namesIn found.1, false⟩, found.2) := by
  unfold tag?
  cases opened? cs with
  | none => rfl
  | some ds =>
    cases word : keyword? ds with
    | none => simp [word]
    | some ds =>
      cases ds with
      | nil => simp [word, blanks?]
      | cons c ds =>
        simp only [Option.bind_eq_bind, Option.bind_some, word, blanks?]
        split <;> rfl

theorem tag?_eq_some (h : tag? cs = some (r, ds)) : ∃ body target behind, body <:+ cs ∧ body.length < cs.length ∧
    target? body = some (target, behind) ∧ r.names = namesIn target ∧ ds <:+ behind := by
  rw [tag?_eq] at h
  obtain ⟨body, h, found⟩ := Option.bind_eq_some_iff.mp h
  obtain ⟨behind_word, h, blank⟩ := Option.bind_eq_some_iff.mp h
  obtain ⟨behind_start, opens, word⟩ := Option.bind_eq_some_iff.mp h
  obtain ⟨⟨target, behind⟩, read, found⟩ := Option.bind_eq_some_iff.mp found
  have suffix := (blanks?_suffix blank).trans (keyword?_suffix word)
  obtain ⟨suffix', less⟩ := opened?_suffix opens
  refine ⟨body, target, behind, suffix.trans suffix', Nat.lt_of_le_of_lt suffix.length_le less, read, ?_⟩
  simp only at found
  split at found
  · next leaves =>
    cases found
    exact ⟨rfl, leave?_suffix leaves⟩
  · cases found
    exact ⟨rfl, List.suffix_refl _⟩

theorem tag?_length_lt (h : tag? cs = some (r, ds)) : ds.length < cs.length := by
  obtain ⟨body, target, behind, -, less, read, -, suffix⟩ := tag?_eq_some h
  exact Nat.lt_of_le_of_lt (suffix.trans (target?_suffix read)).length_le less

/-! ## Without fuel -/

private theorem activeFuel_eq {fuel fuel' : Nat} (enough : cs.length < fuel) (enough' : cs.length < fuel') :
    activeFuel fuel cs = activeFuel fuel' cs := by
  induction fuel generalizing fuel' cs with
  | zero => omega
  | succ fuel ih =>
    obtain ⟨fuel', rfl⟩ := Nat.exists_eq_succ_of_ne_zero (Nat.ne_zero_of_lt enough')
    cases cs with
    | nil => rfl
    | cons c cs =>
      simp only [List.length_cons] at enough enough'
      unfold activeFuel
      cases found : inert? (c :: cs) with
      | none => exact congrArg (c :: ·) (ih (by omega) (by omega))
      | some ds =>
        have less := inert?_length_lt found
        simp only [List.length_cons] at less
        exact ih (by omega) (by omega)

theorem active_of_inert {c : Char} (h : inert? (c :: cs) = some ds) : active (c :: cs) = active ds := by
  have less := inert?_length_lt h
  unfold active
  rw [activeFuel, h]
  exact activeFuel_eq less (Nat.lt_succ_self _)

theorem active_cons {c : Char} (h : inert? (c :: cs) = none) : active (c :: cs) = c :: active cs := by
  unfold active
  rw [activeFuel, h]
  rfl

/-- The tags of a text that has no comments and no raw blocks. -/
def tags (cs : List Char) : List Reference := tagsFuel (cs.length + 1) cs

private theorem tagsFuel_eq {fuel fuel' : Nat} (enough : cs.length < fuel) (enough' : cs.length < fuel') :
    tagsFuel fuel cs = tagsFuel fuel' cs := by
  induction fuel generalizing fuel' cs with
  | zero => omega
  | succ fuel ih =>
    obtain ⟨fuel', rfl⟩ := Nat.exists_eq_succ_of_ne_zero (Nat.ne_zero_of_lt enough')
    cases cs with
    | nil => rfl
    | cons c cs =>
      simp only [List.length_cons] at enough enough'
      unfold tagsFuel
      cases found : tag? (c :: cs) with
      | none => exact ih (by omega) (by omega)
      | some x =>
        obtain ⟨r, ds⟩ := x
        have less := tag?_length_lt found
        simp only [List.length_cons] at less
        exact congrArg (r :: ·) (ih (by omega) (by omega))

theorem tags_of_tag {c : Char} (h : tag? (c :: cs) = some (r, ds)) : tags (c :: cs) = r :: tags ds := by
  have less := tag?_length_lt h
  unfold tags
  rw [tagsFuel, h]
  exact congrArg (r :: ·) (tagsFuel_eq less (Nat.lt_succ_self _))

theorem tags_cons {c : Char} (h : tag? (c :: cs) = none) : tags (c :: cs) = tags cs := by
  unfold tags
  rw [tagsFuel, h]
  rfl

/-- All tags that the scan sees, also those without a name. -/
def found (cs : List Char) : List Reference := tags (active cs)

/-- Does a tag or a comment start here? -/
def starts : List Char → Bool
  | '\x7b' :: '#' :: _ => true
  | '\x7b' :: '%' :: _ => true
  | _ => false

/-- Neither inside the piece nor across its end anything starts. -/
structure Quiet (piece rest : List Char) : Prop where
  within : ∀ back, back <:+ piece → starts back = false
  across : piece.getLast? = some '\x7b' → rest = []

theorem opened?_of_not_starts (h : starts cs = false) : opened? cs = none := by
  unfold opened?
  split
  · cases h
  · cases h
  · rfl

theorem inert?_of_not_starts (h : starts cs = false) : inert? cs = none := by
  unfold inert?
  split
  · cases h
  · simp [plainTag?, opened?_of_not_starts h]

theorem tag?_of_not_starts (h : starts cs = false) : tag? cs = none := by
  simp [tag?_eq, opened?_of_not_starts h]

namespace Quiet

theorem tail {c : Char} (h : Quiet (c :: piece) rest) : Quiet piece rest where
  within back suffix := h.within back (suffix.trans (List.suffix_cons c piece))
  across last := h.across (by rw [List.getLast?_cons, last]; rfl)

theorem of_suffix {back : List Char} (h : Quiet piece rest) (suffix : back <:+ piece) : Quiet back rest := by
  obtain ⟨front, rfl⟩ := suffix
  induction front with
  | nil => exact h
  | cons c front ih => exact ih h.tail

theorem starts_append {c : Char} (h : Quiet (c :: piece) rest) : starts (c :: (piece ++ rest)) = false := by
  have alone := h.within _ (List.suffix_refl _)
  cases piece with
  | cons d piece =>
    unfold starts at alone ⊢
    split at alone <;> simp_all
  | nil =>
    by_cases brace : c = '\x7b'
    · rw [h.across (by rw [brace]; rfl)]
      exact alone
    · simp [starts, brace]

theorem active (h : Quiet piece rest) : active (piece ++ rest) = piece ++ active rest := by
  induction piece with
  | nil => rfl
  | cons c piece ih =>
    rw [List.cons_append, active_cons (inert?_of_not_starts h.starts_append), ih h.tail, List.cons_append]

theorem active_right (h : Quiet piece rest) : Quiet piece (Reference.active rest) where
  within := h.within
  across last := by rw [h.across last]; rfl

theorem tags (h : Quiet piece rest) : tags (piece ++ rest) = tags rest := by
  induction piece with
  | nil => rfl
  | cons c piece ih => rw [List.cons_append, tags_cons (tag?_of_not_starts h.starts_append), ih h.tail]

theorem found (h : Quiet piece rest) : found (piece ++ rest) = found rest := by
  unfold Reference.found
  rw [h.active, h.active_right.tags]

end Quiet

theorem found_of_inert {c : Char} (h : inert? (c :: cs) = some ds) : found (c :: cs) = found ds := by
  unfold found
  rw [active_of_inert h]

/-! ## Tags -/

/-- Behind its brace a text opens a tag, says `word` and goes on with `body`. -/
def Opens (word piece body : List Char) : Prop :=
  ∃ minus blanks, piece = '%' :: (minus ++ (blanks ++ (word ++ body))) ∧ (minus = [] ∨ minus = ['-']) ∧
    ∀ c ∈ blanks, Text.isBlank c = true

/-- Can this be the first word of a tag? -/
def isWord : List Char → Bool
  | c :: _ => !Text.isBlank c && c != '-'
  | [] => false

/-- A first word at which the scan passes by. -/
def isOther (word : List Char) : Bool :=
  isWord word &&
    ["raw", "include", "extends", "import"].all fun (known : String) => Text.differs known.toList word

theorem skipBlanks_append {blanks : List Char} (blank : ∀ c ∈ blanks, Text.isBlank c = true) (cs : List Char) :
    skipBlanks (blanks ++ cs) = skipBlanks cs := List.dropWhile_append_of_pos blank

theorem skipBlanks_word {word : List Char} (is_word : isWord word = true) (cs : List Char) :
    skipBlanks (word ++ cs) = word ++ cs := by
  cases word with
  | nil => cases is_word
  | cons c word =>
    simp only [isWord, Bool.and_eq_true, Bool.not_eq_true'] at is_word
    exact List.dropWhile_cons_of_neg (by simp [is_word.1])

theorem opened?_of_opens {word body : List Char} (opens : Opens word piece body) (is_word : isWord word = true)
    (rest : List Char) : opened? ('\x7b' :: (piece ++ rest)) = some (word ++ (body ++ rest)) := by
  obtain ⟨minus, blanks, rfl, minus_or_not, blank⟩ := opens
  have skipped : skipBlanks (blanks ++ (word ++ (body ++ rest))) = word ++ (body ++ rest) := by
    rw [skipBlanks_append blank, skipBlanks_word is_word]
  simp only [List.append_assoc, List.cons_append]
  rcases minus_or_not with rfl | rfl
  · have no_minus : ∀ cs, blanks ++ (word ++ (body ++ rest)) ≠ '-' :: cs := by
      intro cs same
      cases blanks with
      | cons b blanks =>
        cases same
        exact absurd (blank '-' List.mem_cons_self) (by decide)
      | nil =>
        cases word with
        | nil => cases is_word
        | cons c word =>
          cases same
          cases is_word
    rw [List.nil_append]
    generalize blanks ++ (word ++ (body ++ rest)) = cs at skipped no_minus
    unfold opened?
    split
    · next same => cases same; exact absurd rfl (no_minus _)
    · next same => cases same; rw [skipped]
    · next other => exact absurd rfl (other _)
  · simp only [opened?, List.cons_append, List.nil_append, skipped]

theorem inert?_of_opens {word body : List Char} (opens : Opens word piece body) (is_word : isWord word = true)
    (rest : List Char) : inert? ('\x7b' :: (piece ++ rest)) =
      ((Text.after? "raw".toList (word ++ (body ++ rest))).bind closed?).bind (findAfter? (plainTag? "endraw")) := by
  have plain : plainTag? "raw" ('\x7b' :: (piece ++ rest)) =
      (Text.after? "raw".toList (word ++ (body ++ rest))).bind closed? := by
    rw [plainTag?, opened?_of_opens opens is_word, Option.bind_some]
  rw [← plain]
  obtain ⟨_, _, rfl, _⟩ := opens
  rfl

theorem found_of_other {word body : List Char} (opens : Opens word piece body) (other : isOther word = true)
    (quiet : Quiet piece rest) : found ('\x7b' :: (piece ++ rest)) = found rest := by
  simp only [isOther, Bool.and_eq_true, List.all_cons, List.all_nil, Bool.and_true] at other
  obtain ⟨is_word, raw, incl, ext, imp⟩ := other
  have not_inert : inert? ('\x7b' :: (piece ++ rest)) = none := by
    rw [inert?_of_opens opens is_word, Text.after?_of_differs raw, Option.bind_none, Option.bind_none]
  have no_tag : tag? ('\x7b' :: (piece ++ active rest)) = none := by
    rw [tag?_eq, opened?_of_opens opens is_word, Option.bind_some, keyword?, Text.after?_of_differs incl,
      Text.after?_of_differs ext, Text.after?_of_differs imp]
    rfl
  unfold found
  rw [active_cons not_inert, quiet.active, tags_cons no_tag, quiet.active_right.tags]

end Reference
end Pageweave
