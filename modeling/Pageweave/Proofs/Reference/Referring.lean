import Pageweave.Proofs.Reference.Scanning
/-!
# Referring tags

What the scan makes of a tag that names other templates: its quoted names, if they are not empty and, in a list, hold no
closing bracket, and whether `ignore missing` stands behind them, with blanks before each word.
-/
namespace Pageweave.Reference

variable {cs ds piece rest : List Char} {r : Reference}

theorem upTo?_append {close : Char} {inner : List Char} (apart : close ∉ inner) (rest : List Char) :
    upTo? close (inner ++ close :: rest) = some (inner, rest) := by
  have passes : ∀ c ∈ inner, decide (c ≠ close) = true := fun c listed =>
    decide_eq_true fun same => apart (same ▸ listed)
  unfold upTo?
  rw [List.dropWhile_append_of_pos passes, List.takeWhile_append_of_pos passes]
  simp

def isQuote (c : Char) : Bool := c = '"' || c = '\''

theorem quoted?_eq_some {text : List Char} (h : quoted? cs = some (text, ds)) : ∃ q, cs = q :: (text ++ q :: ds) := by
  unfold quoted? at h
  simp only at h
  split at h
  · split at h
    · rename_i found
      obtain ⟨rfl, rfl⟩ := Prod.mk.inj (Option.some.inj h)
      exact ⟨'"', by rw [upTo?_eq_some found]⟩
    · cases h
  · split at h
    · rename_i found
      obtain ⟨rfl, rfl⟩ := Prod.mk.inj (Option.some.inj h)
      exact ⟨'\'', by rw [upTo?_eq_some found]⟩
    · cases h
  · cases h

theorem length_lt_of_quoted? {name : List Char} (h : quoted? cs = some (name, ds)) : ds.length < cs.length := by
  obtain ⟨q, rfl⟩ := quoted?_eq_some h
  simp only [List.length_cons, List.length_append]
  omega

theorem quoted?_of_quoted {q : Char} {name : List Char} (quote : isQuote q = true) (apart : q ∉ name)
    (some_char : name ≠ []) (rest : List Char) : quoted? (q :: (name ++ q :: rest)) = some (name, rest) := by
  obtain ⟨c, name, rfl⟩ := List.exists_cons_of_ne_nil some_char
  simp only [isQuote, Bool.or_eq_true, decide_eq_true_eq] at quote
  rcases quote with rfl | rfl <;> simp only [quoted?, upTo?_append apart]

theorem quoted?_of_not_quote {c : Char} (other : isQuote c = false) (cs : List Char) : quoted? (c :: cs) = none := by
  unfold quoted?
  split
  · next same => cases same; cases other
  · next same => cases same; cases other
  · rfl

private theorem namesFuel_eq {fuel fuel' : Nat} (enough : cs.length < fuel) (enough' : cs.length < fuel') :
    namesFuel fuel cs = namesFuel fuel' cs := by
  induction fuel generalizing fuel' cs with
  | zero => omega
  | succ fuel ih =>
    obtain ⟨fuel', rfl⟩ := Nat.exists_eq_succ_of_ne_zero (Nat.ne_zero_of_lt enough')
    cases cs with
    | nil => rfl
    | cons c cs =>
      simp only [List.length_cons] at enough enough'
      unfold namesFuel
      cases found : quoted? (c :: cs) with
      | none => exact ih (by omega) (by omega)
      | some x =>
        obtain ⟨name, ds⟩ := x
        have less := length_lt_of_quoted? found
        simp only [List.length_cons] at less
        exact congrArg (String.ofList name :: ·) (ih (by omega) (by omega))

theorem namesIn_of_quoted {q : Char} {name : List Char} (quote : isQuote q = true) (apart : q ∉ name)
    (some_char : name ≠ []) (rest : List Char) :
    namesIn (q :: (name ++ q :: rest)) = String.ofList name :: namesIn rest := by
  have found := quoted?_of_quoted quote apart some_char rest
  have less := length_lt_of_quoted? found
  unfold namesIn
  rw [namesFuel, found]
  exact congrArg (String.ofList name :: ·) (namesFuel_eq less (Nat.lt_succ_self _))

theorem namesIn_cons {c : Char} (other : isQuote c = false) (cs : List Char) : namesIn (c :: cs) = namesIn cs := by
  unfold namesIn
  rw [namesFuel, quoted?_of_not_quote other]
  rfl

/-- A name of at least one character in its quotes. -/
def IsName (text : List Char) : Prop :=
  ∃ q name, text = q :: (name ++ [q]) ∧ isQuote q = true ∧ q ∉ name ∧ name ≠ []

/-- Texts with commas and blanks around them. -/
inductive Listed : List Char → List (List Char) → Prop
  | nil : Listed [] []
  | gap {c cs texts} : c = ',' ∨ Text.isBlank c = true → Listed cs texts → Listed (c :: cs) texts
  | item {text cs texts} : Listed cs texts → Listed (text ++ cs) (text :: texts)

namespace Listed

variable {front back : List Char} {texts more : List (List Char)}

theorem append (h : Listed front texts) (h' : Listed back more) : Listed (front ++ back) (texts ++ more) := by
  induction h with
  | nil => exact h'
  | gap between _ ih => exact .gap between ih
  | item _ ih =>
    rw [List.append_assoc]
    exact .item ih

theorem of_gaps (between : ∀ c ∈ front, c = ',' ∨ Text.isBlank c = true) : Listed front [] := by
  induction front with
  | nil => exact .nil
  | cons c front ih =>
    exact .gap (between c List.mem_cons_self) (ih fun d listed => between d (List.mem_cons_of_mem c listed))

theorem of_item (text : List Char) : Listed text [text] := by
  have item : Listed (text ++ []) [text] := .item .nil
  rwa [List.append_nil] at item

theorem not_mem {x : Char} (h : Listed front texts) (no_gap : x ≠ ',' ∧ Text.isBlank x = false)
    (apart : ∀ text ∈ texts, x ∉ text) : x ∉ front := by
  induction h with
  | nil => exact List.not_mem_nil
  | gap between _ ih =>
    rw [List.mem_cons, not_or]
    refine ⟨?_, ih apart⟩
    rintro rfl
    rcases between with rfl | blank
    · exact no_gap.1 rfl
    · rw [no_gap.2] at blank
      cases blank
  | item _ ih =>
    rw [List.mem_append, not_or]
    exact ⟨apart _ List.mem_cons_self, ih fun text listed => apart text (List.mem_cons_of_mem _ listed)⟩

theorem namesIn (h : Listed front texts) (names : ∀ text ∈ texts, IsName text) :
    namesIn ('[' :: (front ++ [']'])) = texts.map fun text => String.ofList (text.drop 1).dropLast := by
  rw [namesIn_cons rfl]
  induction h with
  | nil => rfl
  | @gap c cs texts between _ ih =>
    have other : isQuote c = false := by
      rcases between with rfl | blank
      · rfl
      · rw [← Bool.not_eq_true]
        intro quote
        simp only [isQuote, Bool.or_eq_true, decide_eq_true_eq] at quote
        rcases quote with rfl | rfl <;> cases blank
    rw [List.cons_append, namesIn_cons other, ih names]
  | @item text cs texts _ ih =>
    obtain ⟨q, name, rfl, quote, apart, some_char⟩ := names _ List.mem_cons_self
    have read := namesIn_of_quoted quote apart some_char (cs ++ [']'])
    have later := ih fun text listed => names text (List.mem_cons_of_mem _ listed)
    simp only [List.cons_append, List.append_assoc, List.nil_append, read, later, List.map_cons, List.drop_succ_cons,
      List.drop_zero, List.dropLast_concat]

end Listed

theorem namesIn_of_isName {text : List Char} (h : IsName text) :
    namesIn text = [String.ofList (text.drop 1).dropLast] := by
  obtain ⟨q, name, rfl, quote, apart, some_char⟩ := h
  rw [namesIn_of_quoted quote apart some_char]
  simp [namesIn, namesFuel]

/-- A text that a referring tag takes as a whole for what it refers to. -/
def IsTarget (target : List Char) : Prop := ∀ rest, target? (target ++ rest) = some (target, rest)

theorem isTarget_of_isName {text : List Char} (h : IsName text) : IsTarget text := by
  obtain ⟨q, name, rfl, quote, apart, -⟩ := h
  intro rest
  have read := upTo?_append apart rest
  simp only [isQuote, Bool.or_eq_true, decide_eq_true_eq] at quote
  rcases quote with rfl | rfl <;> simp [target?, read]

theorem isTarget_list {inner : List Char} (apart : ']' ∉ inner) : IsTarget ('[' :: (inner ++ [']'])) := by
  intro rest
  simp [target?, upTo?_append apart rest]

theorem skipBlanks_target (found : target? cs = some (piece, ds)) : skipBlanks cs = cs := by
  unfold target? at found
  split at found
  · rfl
  · rfl
  · rfl
  · cases found

theorem blanks?_append {blanks : List Char} (blank : ∀ c ∈ blanks, Text.isBlank c = true) (some_blank : blanks ≠ [])
    (cs : List Char) : blanks? (blanks ++ cs) = some (skipBlanks cs) := by
  obtain ⟨b, more, rfl⟩ := List.exists_cons_of_ne_nil some_blank
  rw [← skipBlanks_append blank]
  exact if_pos (blank b List.mem_cons_self)

theorem blankThen?_eq (word : String) (cs : List Char) :
    blankThen? word cs = (blanks? cs).bind (Text.after? word.toList) := by
  cases cs with
  | nil => rfl
  | cons c cs =>
    simp only [blankThen?, blanks?]
    split <;> rfl

theorem leave?_append {before between : List Char} (blank : ∀ c ∈ before, Text.isBlank c = true) (some_blank : before ≠ [])
    (blank' : ∀ c ∈ between, Text.isBlank c = true) (some_blank' : between ≠ []) (rest : List Char) :
    leave? (before ++ ("ignore".toList ++ (between ++ ("missing".toList ++ rest)))) = some rest := by
  have word : skipBlanks ("ignore".toList ++ (between ++ ("missing".toList ++ rest))) = _ := skipBlanks_word rfl _
  have word' : skipBlanks ("missing".toList ++ rest) = _ := skipBlanks_word rfl _
  rw [leave?, blankThen?_eq, blanks?_append blank some_blank, word, Option.bind_some, Text.after?_append,
    Option.bind_some, blankThen?_eq, blanks?_append blank' some_blank', word', Option.bind_some, Text.after?_append]

theorem leave?_of_other {blanks : List Char} {c : Char} (blank : ∀ c ∈ blanks, Text.isBlank c = true)
    (shown : Text.isBlank c = false) (other : c ≠ 'i') (rest : List Char) : leave? (blanks ++ c :: rest) = none := by
  have word : skipBlanks (c :: rest) = c :: rest := List.dropWhile_cons_of_neg (by simp [shown])
  have differs : Text.after? "ignore".toList (c :: rest) = none := by
    rw [show "ignore".toList = ['i', 'g', 'n', 'o', 'r', 'e'] from rfl, Text.after?, if_neg other.symm]
  rw [leave?, blankThen?_eq]
  cases blanks with
  | nil => simp [blanks?, shown]
  | cons b blanks => rw [blanks?_append blank (List.cons_ne_nil _ _), word, Option.bind_some, differs, Option.bind_none]

/-- What stands behind a keyword: blanks, what is referred to, and the rest of the tag. -/
structure Refers (body target after : List Char) : Prop where
  text : ∃ blanks, body = blanks ++ (target ++ after) ∧ blanks ≠ [] ∧ ∀ c ∈ blanks, Text.isBlank c = true
  whole : IsTarget target

theorem tag?_of_refers {word : String} {body target after : List Char} (opens : Opens word.toList piece body)
    (known : word ∈ ["include", "extends", "import"]) (refers : Refers body target after) (rest : List Char) :
    tag? ('\x7b' :: (piece ++ rest)) = match leave? (after ++ rest) with
      | some rest => some (⟨namesIn target, true⟩, rest)
      | none => some (⟨namesIn target, false⟩, after ++ rest) := by
  obtain ⟨⟨blanks, rfl, some_blank, blank⟩, whole⟩ := refers
  have is_word : isWord word.toList = true := by
    simp only [List.mem_cons, List.not_mem_nil, or_false] at known
    rcases known with rfl | rfl | rfl <;> rfl
  have keyword (cs : List Char) : keyword? (word.toList ++ cs) = some cs := by
    simp only [List.mem_cons, List.not_mem_nil, or_false] at known
    unfold keyword?
    rcases known with rfl | rfl | rfl
    · rw [Text.after?_append, Option.some_or]
    · rw [Text.after?_of_differs rfl, Option.none_or, Text.after?_append, Option.some_or]
    · rw [Text.after?_of_differs rfl, Text.after?_of_differs rfl, Option.none_or, Option.none_or, Text.after?_append]
  have read := whole (after ++ rest)
  rw [tag?_eq, opened?_of_opens opens is_word, Option.bind_some, keyword, Option.bind_some, List.append_assoc,
    blanks?_append blank some_blank, List.append_assoc, skipBlanks_target read, Option.bind_some, read]
  rfl

/-- A referring tag yields one reference. -/
theorem found_of_refers {word : String} {body target after left : List Char} {ignores : Bool}
    (opens : Opens word.toList piece body) (known : word ∈ ["include", "extends", "import"])
    (refers : Refers body target after) (quiet : Quiet piece rest) (suffix : left <:+ piece)
    (leaves : ∀ rest, (leave? (after ++ rest) = some (left ++ rest) ∧ ignores = true) ∨
      (leave? (after ++ rest) = none ∧ left = after ∧ ignores = false)) :
    found ('\x7b' :: (piece ++ rest)) = ⟨namesIn target, ignores⟩ :: found rest := by
  have is_word : isWord word.toList = true ∧ Text.differs "raw".toList word.toList = true := by
    simp only [List.mem_cons, List.not_mem_nil, or_false] at known
    rcases known with rfl | rfl | rfl <;> exact ⟨rfl, rfl⟩
  have not_inert : inert? ('\x7b' :: (piece ++ rest)) = none := by
    rw [inert?_of_opens opens is_word.1, Text.after?_of_differs is_word.2, Option.bind_none, Option.bind_none]
  have tag := tag?_of_refers opens known refers (active rest)
  have read : tag? ('\x7b' :: (piece ++ active rest)) = some (⟨namesIn target, ignores⟩, left ++ active rest) := by
    rcases leaves (active rest) with ⟨found, rfl⟩ | ⟨found, rfl, rfl⟩
    · rw [tag, found]
    · rw [tag, found]
  unfold found
  rw [active_cons not_inert, quiet.active, tags_of_tag read, (quiet.active_right.of_suffix suffix).tags]

end Pageweave.Reference
