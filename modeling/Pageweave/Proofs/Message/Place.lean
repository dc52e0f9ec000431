import Mathlib.Data.List.Infix
import Pageweave.Compiled
import Pageweave.Proofs.Reference.Scanning
/-!
# The place that a message names

A message is searched for the first place in it. Texts that are spelled out between quotes are searched on their own,
since no place goes beyond a quote. So if none of them has a place in it, only a text that does not match the grammar
leaves one: the line at which reading it stopped.
-/
namespace Pageweave

open Text

namespace Compiled

variable {a b cs : List Char} {c : Char}

/-- A character that no place goes beyond. -/
def isStop (c : Char) : Bool := c ≠ '-' && c ≠ '>' && c ≠ ':' && !isBlank c && !isDecimal c

/-- No place starts in this text. -/
def Placeless (cs : List Char) : Prop := ∀ back ∈ cs.tails, place? back = none

instance (cs : List Char) : Decidable (Placeless cs) := List.decidableBAll _ cs.tails

theorem isStop_eq_true (stop : isStop c = true) :
    c ≠ '-' ∧ c ≠ '>' ∧ c ≠ ':' ∧ isBlank c = false ∧ isDecimal c = false := by
  simpa [isStop, and_assoc] using stop

theorem takeWhile_append_stop {p : Char → Bool} (other : p c = false) :
    (a ++ c :: b).takeWhile p = a.takeWhile p := by
  induction a with
  | nil => simp [other]
  | cons x a ih =>
    rw [List.cons_append, List.takeWhile_cons, List.takeWhile_cons, ih]

theorem dropWhile_append_stop {p : Char → Bool} (other : p c = false) :
    (a ++ c :: b).dropWhile p = a.dropWhile p ++ c :: b := by
  induction a with
  | nil => simp [other]
  | cons x a ih =>
    rw [List.cons_append, List.dropWhile_cons, List.dropWhile_cons, ih]
    split <;> rfl

theorem after?_append_stop {mark : List Char} (absent : c ∉ mark) :
    after? mark (a ++ c :: b) = (after? mark a).map (· ++ c :: b) := by
  induction mark generalizing a with
  | nil => cases a <;> rfl
  | cons m mark ih =>
    obtain ⟨other, absent⟩ : c ≠ m ∧ c ∉ mark := by simpa using absent
    cases a with
    | nil => simp [after?, Ne.symm other]
    | cons x a =>
      simp only [List.cons_append, after?]
      split
      · exact ih absent
      · rfl

theorem numeral?_append_stop (stop : isStop c = true) :
    numeral? (a ++ c :: b) = (numeral? a).map fun d => (d.1, d.2 ++ c :: b) := by
  obtain ⟨-, -, -, -, no_digit⟩ := isStop_eq_true stop
  unfold numeral?
  rw [takeWhile_append_stop no_digit, dropWhile_append_stop no_digit]
  simp only
  split <;> rfl

theorem place?_append_stop (stop : isStop c = true) : place? (a ++ c :: b) = place? a := by
  obtain ⟨no_minus, no_arrow, no_colon, no_blank, -⟩ := isStop_eq_true stop
  have no_mark : c ∉ "-->".toList := by simp [no_minus, no_arrow]
  unfold place?
  rw [after?_append_stop no_mark]
  cases after? "-->".toList a with
  | none => rfl
  | some rest =>
    have trimmed : trimLeft (rest ++ c :: b) = trimLeft rest ++ c :: b := dropWhile_append_stop no_blank
    simp only [Option.map_some, Option.bind_eq_bind, Option.bind_some, trimmed, numeral?_append_stop stop]
    cases numeral? (trimLeft rest) with
    | none => rfl
    | some line =>
      obtain ⟨digits, behind⟩ := line
      simp only [Option.map_some, Option.bind_some]
      cases behind with
      | nil => simp [no_colon]
      | cons x behind =>
        by_cases colon : x = ':'
        · subst colon
          simp only [List.cons_append, numeral?_append_stop stop]
          cases numeral? behind <;> rfl
        · simp [colon]

theorem place?_of_not_minus (other : c ≠ '-') (cs : List Char) : place? (c :: cs) = none := by
  have marked : after? "-->".toList (c :: cs) = none := by simp [after?, Ne.symm other]
  rw [place?, marked]
  rfl

theorem placeless_cons_iff : Placeless (c :: cs) ↔ place? (c :: cs) = none ∧ Placeless cs := by
  simp [Placeless]

theorem placeless_nil : Placeless [] := by decide

theorem lineIn?_of_none (none_here : place? (c :: cs) = none) : lineIn? (c :: cs) = lineIn? cs := by
  rw [lineIn?, none_here]

theorem lineIn?_append_stop (quiet : Placeless a) (stop : isStop c = true) (b : List Char) :
    lineIn? (a ++ c :: b) = lineIn? b := by
  induction a with
  | nil =>
    rw [List.nil_append, lineIn?_of_none (place?_of_not_minus (isStop_eq_true stop).1 b)]
  | cons x a ih =>
    obtain ⟨here, later⟩ := placeless_cons_iff.mp quiet
    have none_here : place? (x :: (a ++ c :: b)) = none := by
      rw [← List.cons_append, place?_append_stop stop, here]
    rw [List.cons_append, lineIn?_of_none none_here]
    exact ih later

theorem lineIn?_of_placeless (quiet : Placeless cs) : lineIn? cs = none := by
  induction cs with
  | nil => rfl
  | cons c cs ih =>
    obtain ⟨here, later⟩ := placeless_cons_iff.mp quiet
    rw [lineIn?_of_none here]
    exact ih later

theorem placeless_append_cons (quiet : Placeless a) (stop : isStop c = true) (quiet' : Placeless b) :
    Placeless (a ++ c :: b) := by
  induction a with
  | nil => exact placeless_cons_iff.mpr ⟨place?_of_not_minus (isStop_eq_true stop).1 b, quiet'⟩
  | cons x a ih =>
    obtain ⟨here, later⟩ := placeless_cons_iff.mp quiet
    apply placeless_cons_iff.mpr
    constructor
    · exact (place?_append_stop stop).trans here
    · exact ih later

theorem isDecimal_of_isDigit (digit : c.isDigit = true) : isDecimal c = true := by
  have inside : 48 ≤ c.toNat ∧ c.toNat ≤ 57 := by
    simpa [Char.isDigit, UInt32.le_iff_toNat_le] using digit
  have here : (decide (0x30 ≤ c.toNat) && decide (c.toNat < 0x30 + 10)) = true := by
    simp
    omega
  simp [isDecimal, zeros, here]

theorem numeral?_append {ds : List Char} (some_digit : ds ≠ []) (digits : ∀ d ∈ ds, d.isDigit = true)
    (rest : List Char) (ends : rest.head?.any isDecimal = false) : numeral? (ds ++ rest) = some (ds, rest) := by
  have all : ∀ d ∈ ds, isDecimal d = true := fun d listed => isDecimal_of_isDigit (digits d listed)
  have ends' : rest.takeWhile isDecimal = [] ∧ rest.dropWhile isDecimal = rest := by
    cases rest with
    | nil => exact ⟨rfl, rfl⟩
    | cons r rest =>
      have other : isDecimal r = false := by simpa using ends
      simp [other]
  unfold numeral?
  rw [List.takeWhile_append_of_pos all, List.dropWhile_append_of_pos all, ends'.1, ends'.2, List.append_nil]
  simp [some_digit]

theorem digitsValue_toDigits (n : Nat) : Template.Reading.digitsValue (Nat.toDigits 10 n) = n := by
  have same (ds : List Char) : Template.Reading.digitsValue ds = Nat.ofDigitChars 10 ds 0 := by
    rw [Nat.ofDigitChars_eq_foldl]
    simp [Template.Reading.digitsValue, Nat.mul_comm]
  rw [same, Nat.ofDigitChars_ten_toDigits]

theorem isDigit_of_mem_toDigits {n : Nat} {d : Char} (listed : d ∈ Nat.toDigits 10 n) : d.isDigit = true :=
  Nat.isDigit_of_mem_toDigits (by decide) (by decide) listed

theorem word?_toDigits (n : Nat) : word? (Nat.toDigits 10 n) = if n < Nat.pow 2 64 then some n else none := by
  have all : (Nat.toDigits 10 n).all Char.isDigit = true := List.all_eq_true.mpr fun _ => isDigit_of_mem_toDigits
  simp [word?, all, digitsValue_toDigits]

theorem isBlank_of_isDigit (digit : c.isDigit = true) : isBlank c = false := by
  have inside : 48 ≤ c.toNat ∧ c.toNat ≤ 57 := by
    simpa [Char.isDigit, UInt32.le_iff_toNat_le] using digit
  simp [isBlank]
  omega

/-- The place of a line and a column. -/
theorem place?_print (line column : Nat) :
    place? ("--> ".toList ++ (Nat.toDigits 10 line ++ ':' :: Nat.toDigits 10 column)) =
      some (Nat.toDigits 10 line) := by
  have trimmed (rest : List Char) : trimLeft (' ' :: (Nat.toDigits 10 line ++ rest)) = Nat.toDigits 10 line ++ rest := by
    obtain ⟨d, ds, digits⟩ := List.exists_cons_of_ne_nil (Nat.toDigits_ne_nil (n := line) (b := 10))
    have first : isBlank d = false := isBlank_of_isDigit (isDigit_of_mem_toDigits (digits ▸ List.mem_cons_self))
    have space : isBlank ' ' = true := by decide
    simp [trimLeft, digits, space, first]
  have marked (rest : List Char) : after? "-->".toList ("--> ".toList ++ rest) = some (' ' :: rest) := rfl
  have columns := numeral?_append Nat.toDigits_ne_nil (fun _ => isDigit_of_mem_toDigits (n := column)) [] rfl
  rw [List.append_nil] at columns
  have colon : isDecimal ':' = false := by decide
  have lines := numeral?_append Nat.toDigits_ne_nil (fun _ => isDigit_of_mem_toDigits (n := line))
    (':' :: Nat.toDigits 10 column) (by simp [colon])
  unfold place?
  rw [marked]
  simp only [trimmed, lines, columns, Option.bind_eq_bind, Option.bind_some]

theorem lineIn?_print (line column : Nat) :
    lineIn? ("--> ".toList ++ (Nat.toDigits 10 line ++ ':' :: Nat.toDigits 10 column)) =
      if line < Nat.pow 2 64 then some line else none := by
  have first := place?_print line column
  change place? ('-' :: ("-> ".toList ++ (Nat.toDigits 10 line ++ ':' :: Nat.toDigits 10 column))) = _ at first
  change lineIn? ('-' :: ("-> ".toList ++ (Nat.toDigits 10 line ++ ':' :: Nat.toDigits 10 column))) = _
  rw [lineIn?, first]
  exact word?_toDigits line

theorem lineIn?_arrow (cs : List Char) : lineIn? ("\n  -> ".toList ++ cs) = lineIn? cs := by
  have plain {c : Char} (other : c ≠ '-') (cs : List Char) : lineIn? (c :: cs) = lineIn? cs :=
    lineIn?_of_none (place?_of_not_minus other cs)
  have arrow : place? ('-' :: '>' :: ' ' :: cs) = none := rfl
  calc lineIn? ('\n' :: ' ' :: ' ' :: '-' :: '>' :: ' ' :: cs)
      = lineIn? ('-' :: '>' :: ' ' :: cs) := by rw [plain (by decide), plain (by decide), plain (by decide)]
    _ = lineIn? cs := by rw [lineIn?_of_none arrow, plain (by decide), plain (by decide)]

/-- A text between stops has a place in it just if one of the parts has. -/
theorem placeless_between {front inside back : List Char} {q : Char} (quiet : Placeless front) (stop : isStop q = true)
    (quiet' : Placeless inside) (quiet'' : Placeless back) : Placeless (front ++ q :: (inside ++ q :: back)) :=
  placeless_append_cons quiet stop (placeless_append_cons quiet' stop quiet'')

theorem placeless_cons (other : c ≠ '-') (quiet : Placeless cs) : Placeless (c :: cs) :=
  placeless_cons_iff.mpr ⟨place?_of_not_minus other cs, quiet⟩

theorem placeless_list {items : List String} (quiet : ∀ t ∈ items, Placeless t.toList) :
    Placeless (Template.Dump.list items).toList := by
  have inside : Placeless (", ".intercalate items).toList := by
    induction items with
    | nil => exact placeless_nil
    | cons t items ih =>
      have first := quiet t List.mem_cons_self
      have later := ih fun u listed => quiet u (List.mem_cons_of_mem t listed)
      cases items with
      | nil => simpa using first
      | cons u items =>
        rw [String.intercalate_cons_cons]
        simpa using placeless_append_cons first (c := ',') (by decide) (placeless_cons (by decide : ' ' ≠ '-') later)
  have closed := placeless_append_cons inside (by decide : isStop ']' = true) placeless_nil
  have whole := placeless_cons (by decide : '[' ≠ '-') closed
  simpa [Template.Dump.list] using whole

end Compiled

namespace Template

open Compiled

/-- The names, or the number, that a fault spells out. -/
def SourceFault.mentioned : SourceFault → List String
  | .malformed _ _ => []
  | .integerOutOfBounds text => [text]
  | .blockTwice name => [name]
  | .macroTwice name => [name]

/-- What the message of a fault spells out. -/
def LibraryFault.mentioned : LibraryFault → List String
  | .unread name why => name :: why.mentioned
  | .circular name chain => name :: chain.map Text.visible
  | .noParent name parent => [name, parent]
  | .noMacros name file => [name, file]

/-- The line at which reading stopped, if that is the fault. -/
def LibraryFault.line? : LibraryFault → Option Nat
  | .unread _ (.malformed line _) => some line
  | _ => none

theorem Fault.ends_of_spelled {sentence front inside back : String} {c d : Char}
    (spelled : sentence = front ++ inside ++ back) (starts : front.toList.head? = some c)
    (ends : back.toList.getLast? = some d) :
    sentence.toList.head? = some c ∧ sentence.toList.getLast? = some d := by
  simp [spelled, starts, ends]

theorem Fault.text_pair {first inner : String} {c d : Char} (starts : inner.toList.head? = some c)
    (ends : inner.toList.getLast? = some d) (no_blank : isBlank c = false) (no_blank' : isBlank d = false)
    (other : first.toList.head? ≠ some c) : Fault.text [first, inner] = first ++ "\n  -> " ++ inner := by
  obtain ⟨cs, chars⟩ := List.head?_eq_some_iff.mp starts
  obtain ⟨ds, chars'⟩ := List.getLast?_eq_some_iff.mp ends
  have trimmed : Text.trim inner = inner := by
    have left : trimLeft inner.toList = inner.toList := by simp [trimLeft, chars, no_blank]
    have right : trimRight inner.toList = inner.toList := by simp [trimRight, chars', no_blank']
    rw [Text.trim, trimBoth, left, right, String.ofList_toList]
  have some_text : inner ≠ "" := by
    rintro rfl
    simp at starts
  have apart : first ≠ inner := by
    rintro rfl
    exact other starts
  have kept : Fault.distinct [first, inner] = [first, inner] := by simp [Fault.distinct, apart]
  have shown : ([inner].map Text.trim).filter (· ≠ "") = [inner] := by simp [trimmed, some_text]
  simp only [Fault.text, shown, kept]
  rfl

theorem SourceFault.toList_malformed (line column : Nat) :
    (SourceFault.malformed line column).message.toList =
      "--> ".toList ++ (Nat.toDigits 10 line ++ ':' :: Nat.toDigits 10 column) := by
  have chars (n : Nat) : (toString n).toList = Nat.toDigits 10 n := by
    rw [Nat.toString_eq_repr, Nat.toList_repr]
  have colon : ":".toList = [':'] := rfl
  change ("--> " ++ toString line ++ ":" ++ toString column).toList = _
  simp only [String.toList_append, chars, colon, List.append_assoc, List.singleton_append]

theorem LibraryFault.toList_unread (name : String) (why : SourceFault) :
    (LibraryFault.unread name why).message.toList =
      "Failed to parse ".toList ++ '\'' :: (name.toList ++ '\'' :: ("\n  -> ".toList ++ why.message.toList)) := by
  obtain ⟨c, d, starts, ends, no_blank, no_blank', other⟩ : ∃ c d, why.message.toList.head? = some c ∧
      why.message.toList.getLast? = some d ∧ isBlank c = false ∧ isBlank d = false ∧ c ≠ 'F' := by
    cases why with
    | malformed line column =>
      obtain ⟨ds, d, digits⟩ := (List.eq_nil_or_concat' (Nat.toDigits 10 column)).resolve_left Nat.toDigits_ne_nil
      have digit : d.isDigit = true := isDigit_of_mem_toDigits (n := column) (by simp [digits])
      refine ⟨'-', d, ?_, ?_, by decide, isBlank_of_isDigit digit, by decide⟩
      · rw [SourceFault.toList_malformed]
        rfl
      · rw [SourceFault.toList_malformed, digits, ← List.cons_append, ← List.append_assoc, ← List.append_assoc,
          List.getLast?_concat]
    | integerOutOfBounds text =>
      have spelled : (SourceFault.integerOutOfBounds text).message = "Integer out of bounds: `" ++ text ++ "`" := rfl
      obtain ⟨starts, ends⟩ := Fault.ends_of_spelled spelled rfl rfl
      exact ⟨'I', '`', starts, ends, by decide, by decide, by decide⟩
    | blockTwice name =>
      have spelled : (SourceFault.blockTwice name).message = "Block `" ++ name ++ "` is duplicated" := rfl
      obtain ⟨starts, ends⟩ := Fault.ends_of_spelled spelled rfl rfl
      exact ⟨'B', 'd', starts, ends, by decide, by decide, by decide⟩
    | macroTwice name =>
      have spelled : (SourceFault.macroTwice name).message = "Macro `" ++ name ++ "` is duplicated" := rfl
      obtain ⟨starts, ends⟩ := Fault.ends_of_spelled spelled rfl rfl
      exact ⟨'M', 'd', starts, ends, by decide, by decide, by decide⟩
  have first : ("Failed to parse '" ++ name ++ "'").toList.head? ≠ some c := by
    simpa using Ne.symm other
  change (Fault.text ["Failed to parse '" ++ name ++ "'", why.message]).toList = _
  rw [Fault.text_pair starts ends no_blank no_blank' first]
  simp

theorem placeless_sourceFault {why : SourceFault} (other : ∀ line column, why ≠ .malformed line column)
    (quiet : ∀ t ∈ why.mentioned, Placeless t.toList) : Placeless ("\n  -> ".toList ++ why.message.toList) := by
  have tick : isStop '`' = true := by decide
  cases why with
  | malformed line column => exact absurd rfl (other line column)
  | integerOutOfBounds text =>
    have whole := placeless_between (by decide : Placeless "\n  -> Integer out of bounds: ".toList) tick
      (quiet text (by simp [SourceFault.mentioned])) placeless_nil
    change Placeless ("\n  -> ".toList ++ ("Integer out of bounds: `" ++ text ++ "`").toList)
    simpa using whole
  | blockTwice name =>
    have whole := placeless_between (by decide : Placeless "\n  -> Block ".toList) tick
      (quiet name (by simp [SourceFault.mentioned])) (by decide : Placeless " is duplicated".toList)
    change Placeless ("\n  -> ".toList ++ ("Block `" ++ name ++ "` is duplicated").toList)
    simpa using whole
  | macroTwice name =>
    have whole := placeless_between (by decide : Placeless "\n  -> Macro ".toList) tick
      (quiet name (by simp [SourceFault.mentioned])) (by decide : Placeless " is duplicated".toList)
    change Placeless ("\n  -> ".toList ++ ("Macro `" ++ name ++ "` is duplicated").toList)
    simpa using whole

/-- A message about texts that read has no place of its own. -/
theorem placeless_message {fault : LibraryFault} (other : ∀ name why, fault ≠ .unread name why)
    (quiet : ∀ t ∈ fault.mentioned, Placeless t.toList) : Placeless fault.message.toList := by
  have quote : isStop '\'' = true := by decide
  have tick : isStop '`' = true := by decide
  cases fault with
  | unread name why => exact absurd rfl (other name why)
  | circular name chain =>
    have list := placeless_list fun t listed => quiet t (List.mem_cons_of_mem name listed)
    have whole := placeless_between (by decide : Placeless "Circular extend detected for template ".toList) quote
      (quiet name (by simp [LibraryFault.mentioned]))
      (placeless_between (by decide : Placeless ". Inheritance chain: ".toList) tick list placeless_nil)
    change Placeless ("Circular extend detected for template '" ++ name ++ "'. Inheritance chain: `" ++
      Dump.list (chain.map Text.visible) ++ "`").toList
    simpa using whole
  | noParent name parent =>
    have whole := placeless_between (by decide : Placeless "Template ".toList) quote
      (quiet name (by simp [LibraryFault.mentioned]))
      (placeless_between (by decide : Placeless " is inheriting from ".toList) quote
        (quiet parent (by simp [LibraryFault.mentioned]))
        (by decide : Placeless ", which doesn't exist or isn't loaded.".toList))
    change Placeless ("Template '" ++ name ++ "' is inheriting from '" ++ parent ++
      "', which doesn't exist or isn't loaded.").toList
    simpa using whole
  | noMacros name file =>
    have whole := placeless_between (by decide : Placeless "Template ".toList) tick
      (quiet name (by simp [LibraryFault.mentioned]))
      (placeless_between (by decide : Placeless " loads macros from ".toList) tick
        (quiet file (by simp [LibraryFault.mentioned])) (by decide : Placeless " which isn't present in Tera".toList))
    change Placeless ("Template `" ++ name ++ "` loads macros from `" ++ file ++
      "` which isn't present in Tera").toList
    simpa using whole

/-- The place in the message about a text that does not read is the one at which reading it stopped. -/
theorem lineIn?_unread {name : String} {why : SourceFault} (own : Placeless name.toList)
    (quiet : ∀ t ∈ why.mentioned, Placeless t.toList) : lineIn? (LibraryFault.unread name why).message.toList =
      (LibraryFault.unread name why).line?.filter (· < Nat.pow 2 64) := by
  have quote : isStop '\'' = true := by decide
  rw [LibraryFault.toList_unread, lineIn?_append_stop (by decide) quote, lineIn?_append_stop own quote]
  cases why with
  | malformed line column =>
    rw [lineIn?_arrow, SourceFault.toList_malformed, lineIn?_print]
    simp [LibraryFault.line?, Option.filter]
  | integerOutOfBounds | blockTwice | macroTwice => exact lineIn?_of_placeless (placeless_sourceFault nofun quiet)

/-- If nothing that a message spells out has a place in it, its line is the one at which reading stopped. -/
theorem lineIn?_message {fault : LibraryFault} (quiet : ∀ t ∈ fault.mentioned, Placeless t.toList) :
    lineIn? fault.message.toList = fault.line?.filter (· < Nat.pow 2 64) := by
  cases fault with
  | unread name why =>
    exact lineIn?_unread (quiet name List.mem_cons_self) fun t listed => quiet t (List.mem_cons_of_mem name listed)
  | circular | noParent | noMacros => exact lineIn?_of_placeless (placeless_message nofun quiet)

end Template
end Pageweave
