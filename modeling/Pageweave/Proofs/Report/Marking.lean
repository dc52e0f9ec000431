import Mathlib.Algebra.Group.Nat.Defs
import Mathlib.Data.List.DropRight
import Pageweave.Proofs.Report.Excerpt
import Pageweave.Proofs.Text.Lines
/-!
# The line that a report marks

The window around a line is computed within words and within the lines of the source. It holds each line that is near
enough, under its own number. A report on a line of the source shows the window around it with one mark, in front of
that line; any other report shows no line of the source.
-/
namespace Pageweave.Report

variable {source : String} {line size : Nat} {cs : List Char} {entry : Nat × String}

/-- A number, if a word of 64 bits holds it. -/
def fit? (n : Nat) : Option Nat := if n < 2 ^ 64 then some n else none

/-- The stretch of a list between two places, if it has such places in this order. -/
def stretch? {α : Type} (first last : Nat) (xs : List α) : Option (List α) :=
  if first ≤ last ∧ last ≤ xs.length then some ((xs.take last).drop first) else none

/-- The window as it is computed with words: nothing if a bound does not fit or lies beyond the lines. -/
def window? (source : String) (line size : Nat) : Option (List (Nat × String)) := do
  let all := Text.lines source.toList
  if line = 0 || all.length < line then return []
  let first := line - (← fit? (size + 1))
  let last := min (← fit? (line + size)) all.length
  let shown ← stretch? first last all
  return shown.mapIdx fun i cs => (first + i + 1, String.ofList (withoutReturns cs))

/-- A source in memory has less than 2⁶³ bytes, so no bound of a window is too large. -/
theorem window?_eq (short : Text.byteSize source.toList < 2 ^ 63) (small : size < 2 ^ 63) :
    window? source line size = some (window source line size) := by
  have few := Text.length_lines_le source.toList
  unfold window? window
  by_cases outside : (decide (line = 0) || decide ((Text.lines source.toList).length < line)) = true
  · simp only [outside, if_true]
    rfl
  · obtain ⟨positive, inside⟩ : line ≠ 0 ∧ line ≤ (Text.lines source.toList).length := by simpa using outside
    -- a line takes a byte at least, so there are less than 2⁶³ of them
    have back : fit? (size + 1) = some (size + 1) := if_pos (by omega)
    have forth : fit? (line + size) = some (line + size) := if_pos (by omega)
    have within : stretch? (line - (size + 1)) (min (line + size) (Text.lines source.toList).length)
        (Text.lines source.toList) = some _ := if_pos (by omega)
    simp only [outside, back, forth, within, Option.bind_eq_bind, Option.bind_some, Bool.false_eq_true, if_false]
    rfl

/-- The text of a line, without the carriage returns at its end. -/
def HasLine (source : String) (n : Nat) (text : String) : Prop :=
  text.toList.getLast? ≠ some '\r' ∧ ∃ k, Text.IsLine source.toList n (text.toList ++ List.replicate k '\r')

theorem getLast?_withoutReturns (cs : List Char) : (withoutReturns cs).getLast? ≠ some '\r' := by
  intro returned
  obtain ⟨kept, last⟩ := List.getLast?_eq_some_iff.mp returned
  have some_char : cs.rdropWhile (· = '\r') ≠ [] := by
    change withoutReturns cs ≠ []
    simp [last]
  have other := List.rdropWhile_last_not (· = '\r') cs some_char
  change ¬decide ((withoutReturns cs).getLast _ = '\r') = true at other
  simp [last] at other

theorem exists_returns (cs : List Char) : ∃ k, withoutReturns cs ++ List.replicate k '\r' = cs := by
  have returns : cs.rtakeWhile (· = '\r') = List.replicate (cs.rtakeWhile (· = '\r')).length '\r' := by
    apply List.eq_replicate_of_mem
    intro c taken
    simpa using List.mem_rtakeWhile_imp taken
  refine ⟨(cs.rtakeWhile (· = '\r')).length, ?_⟩
  rw [← returns]
  exact List.rdropWhile_append_rtakeWhile

theorem withoutReturns_append (no_return : cs.getLast? ≠ some '\r') (k : Nat) :
    withoutReturns (cs ++ List.replicate k '\r') = cs := by
  have kept : cs.reverse.dropWhile (· = '\r') = cs.reverse := by
    rw [← List.head?_reverse] at no_return
    cases ends : cs.reverse with
    | nil => rfl
    | cons c rest =>
      rw [ends] at no_return
      have other : c ≠ '\r' := by simpa using no_return
      simp [other]
  simp [withoutReturns, kept]

theorem HasLine.unique {n : Nat} {text text' : String} (h : HasLine source n text) (h' : HasLine source n text') :
    text = text' := by
  obtain ⟨no_return, k, there⟩ := h
  obtain ⟨no_return', k', there'⟩ := h'
  have same := congrArg withoutReturns (there.unique there')
  rw [withoutReturns_append no_return, withoutReturns_append no_return'] at same
  exact String.toList_inj.mp same

theorem map_fst_rows (n : Nat) (ls : List (List Char)) : (rows n ls).map Prod.fst = List.range' (n + 1) ls.length := by
  induction ls generalizing n with
  | nil => rfl
  | cons cs ls ih => rw [rows_cons, List.map_cons, ih, List.length_cons, List.range'_succ]

theorem map_fst_window (positive : 0 < line) (inside : line ≤ (Text.lines source.toList).length) :
    (window source line size).map Prod.fst = List.range' (max 1 (line - size))
      (min (Text.lines source.toList).length (line + size) + 1 - max 1 (line - size)) := by
  have first : line - (size + 1) + 1 = max 1 (line - size) := by omega
  have count : (((Text.lines source.toList).take (line + size)).drop (line - (size + 1))).length =
      min (Text.lines source.toList).length (line + size) + 1 - max 1 (line - size) := by
    simp only [List.length_drop, List.length_take]
    omega
  rw [window_eq_rows positive inside, map_fst_rows, first, count]

theorem hasLine_of_lines {i : Nat} (there : (Text.lines source.toList)[i]? = some cs) :
    HasLine source (i + 1) (String.ofList (withoutReturns cs)) := by
  obtain ⟨k, own⟩ := Text.exists_isLine there
  obtain ⟨m, returns⟩ := exists_returns cs
  refine ⟨by simpa using getLast?_withoutReturns cs, m + k, ?_⟩
  rw [String.toList_ofList, ← List.replicate_append_replicate, ← List.append_assoc, returns]
  exact own

theorem exists_hasLine_iff {n : Nat} :
    (∃ text, HasLine source n text) ↔ 0 < n ∧ n ≤ (Text.lines source.toList).length := by
  constructor
  · rintro ⟨_, -, k, there⟩
    exact ⟨there.getElem?_pieces.1, there.le_length_lines⟩
  · rintro ⟨positive, inside⟩
    obtain ⟨i, rfl⟩ : ∃ i, n = i + 1 := ⟨n - 1, by omega⟩
    exact ⟨_, hasLine_of_lines (List.getElem?_eq_getElem inside)⟩

theorem hasLine_of_mem_window (listed : entry ∈ window source line size) : HasLine source entry.1 entry.2 := by
  obtain ⟨positive, inside⟩ : 0 < line ∧ line ≤ (Text.lines source.toList).length := by
    have some_line : window source line size ≠ [] := List.ne_nil_of_mem listed
    rw [Ne, window_eq_nil_iff] at some_line
    omega
  rw [window_eq_rows positive inside] at listed
  obtain ⟨i, short, rfl⟩ := List.mem_mapIdx.mp listed
  apply hasLine_of_lines
  have there := List.getElem?_eq_getElem short
  rw [List.getElem?_drop, List.getElem?_take] at there
  split at there
  · exact there
  · cases there

/-- A window shows exactly the lines that are near enough. -/
theorem mem_window_iff (positive : 0 < line) (inside : line ≤ (Text.lines source.toList).length) {n : Nat}
    {text : String} : (n, text) ∈ window source line size ↔
      (max 1 (line - size) ≤ n ∧ n ≤ min (Text.lines source.toList).length (line + size)) ∧ HasLine source n text := by
  have near : n ∈ (window source line size).map Prod.fst ↔
      max 1 (line - size) ≤ n ∧ n ≤ min (Text.lines source.toList).length (line + size) := by
    rw [map_fst_window positive inside, List.mem_range'_1]
    omega
  rw [← near]
  constructor
  · exact fun listed => ⟨List.mem_map_of_mem listed, hasLine_of_mem_window listed⟩
  · rintro ⟨listed, own⟩
    obtain ⟨⟨_, text'⟩, listed', rfl⟩ := List.mem_map.mp listed
    rw [own.unique (hasLine_of_mem_window listed')]
    exact listed'

/-- A line of a report that shows a line of the source, with a mark in front or a blank. -/
def row (mark : Char) (entry : Nat × String) : List Char :=
  mark :: ' ' :: (Text.padLeft 4 (toString entry.1)).toList ++ " | ".toList ++ entry.2.toList

theorem toList_numbered (number : Option Nat) (entry : Nat × String) :
    (numbered number entry).toList = row (if number = some entry.1 then '>' else ' ') entry ++ ['\n'] := by
  unfold numbered row
  split <;> simp

theorem not_mem_number (n : Nat) : '\n' ∉ (Text.padLeft 4 (toString n)).toList := by
  have no_digit : '\n' ∉ Nat.toDigits 10 n := fun listed =>
    absurd (Nat.isDigit_of_mem_toDigits (by decide) (by decide) listed) (by decide)
  simp [Text.padLeft, no_digit]

theorem plain_row {mark : Char} (other : mark ≠ '\n') (own : HasLine source entry.1 entry.2) :
    '\n' ∉ row mark entry ∧ (row mark entry).getLast? ≠ some '\r' := by
  obtain ⟨no_return, k, there⟩ := own
  have no_feed : '\n' ∉ entry.2.toList := fun listed => there.not_mem (List.mem_append_left _ listed)
  have no_feed' := not_mem_number entry.1
  unfold row
  -- of the number nothing but its lack of feeds matters
  generalize (Text.padLeft 4 (toString entry.1)).toList = number at no_feed' ⊢
  constructor
  · simp [no_feed, no_feed', Ne.symm other]
  · rw [List.getLast?_append, List.getLast?_append]
    cases last : entry.2.toList.getLast? with
    | none => simp
    | some c => simpa [last] using no_return

/-- A report on a parse error is the same for all sources up to the excerpt. -/
theorem toList_report (key : Key) (message : String) (number : Option Nat) :
    ∃ heading, ∀ text, ((PageError.parse key message number).report text).toList =
      heading ++ '\n' :: ((excerpt text number).toList ++ parseAdvice.toList) := by
  obtain ⟨place, same⟩ : ∃ place, ∀ text, (PageError.parse key message number).report text =
      "ERROR: Template Parse Error\n\nTemplate: " ++ key.name ++ "\n" ++ place ++ "Error: " ++ message ++ "\n" ++
        excerpt text number ++ parseAdvice := ⟨_, fun _ => rfl⟩
  refine ⟨("ERROR: Template Parse Error\n\nTemplate: " ++ key.name ++ "\n" ++ place ++ "Error: " ++ message).toList, ?_⟩
  intro text
  simp [same]

theorem excerpt_none (number : Option Nat) : excerpt none number = "" := rfl

theorem lines_excerpt (positive : 0 < line) (inside : line ≤ (Text.lines source.toList).length) (back : List Char) :
    Text.lines ((excerpt (some source) (some line)).toList ++ back) =
      [] :: (window source line margin).map (fun entry => row (if line = entry.1 then '>' else ' ') entry) ++
        Text.lines back := by
  let shown := (window source line margin).map fun entry => row (if line = entry.1 then '>' else ' ') entry
  have whole : (excerpt (some source) (some line)).toList ++ back =
      [] ++ '\n' :: (shown.flatMap (· ++ ['\n']) ++ back) := by
    rw [excerpt_of_inside positive inside]
    simp [shown, toList_numbered, List.flatMap_map]
  have plain : ∀ r ∈ shown, '\n' ∉ r ∧ r.getLast? ≠ some '\r' := by
    intro r listed
    obtain ⟨entry, there, rfl⟩ := List.mem_map.mp listed
    refine plain_row ?_ (hasLine_of_mem_window there)
    split <;> decide
  rw [whole, Text.lines_cons List.not_mem_nil, Text.lines_flatMap plain]
  rfl

/-- A source adds the window around a line of it to a report, in front of the advice and under a blank line. -/
theorem lines_report (key : Key) (message : String) (positive : 0 < line)
    (inside : line ≤ (Text.lines source.toList).length) :
    ∃ heading before text after,
      HasLine source line text ∧ window source line margin = before ++ (line, text) :: after ∧
      Text.lines ((PageError.parse key message (some line)).report none).toList =
        heading ++ Text.lines parseAdvice.toList ∧
      Text.lines ((PageError.parse key message (some line)).report (some source)).toList =
        heading ++ [] :: (before.map (row ' ') ++ row '>' (line, text) :: after.map (row ' ')) ++
          Text.lines parseAdvice.toList := by
  obtain ⟨heading, report⟩ := toList_report key message (some line)
  have there := List.getElem?_eq_getElem (l := Text.lines source.toList) (i := line - 1) (by omega)
  obtain ⟨before, after, entries, less, greater⟩ := window_eq_append margin positive there
  have own := hasLine_of_mem_window (entries ▸ List.mem_append_right before List.mem_cons_self)
  have unmarked (rest : List (Nat × String)) (other : ∀ entry ∈ rest, line ≠ entry.1) :
      rest.map (fun entry => row (if line = entry.1 then '>' else ' ') entry) = rest.map (row ' ') :=
    List.map_congr_left fun entry listed => by rw [if_neg (other entry listed)]
  refine ⟨Text.lines (heading ++ ['\n']), before, _, after, own, entries, ?_, ?_⟩
  · rw [report none, Text.lines_append, excerpt_none, String.toList_empty, List.nil_append]
  · rw [report (some source), Text.lines_append, lines_excerpt positive inside, entries, List.map_append,
      List.map_cons, if_pos rfl, unmarked before fun e listed => Nat.ne_of_gt (less e listed),
      unmarked after fun e listed => Nat.ne_of_lt (greater e listed), List.append_assoc]

theorem report_of_outside (key : Key) (message : String) {number : Option Nat}
    (outside : ∀ line ∈ number, line = 0 ∨ (Text.lines source.toList).length < line) :
    (PageError.parse key message number).report (some source) = (PageError.parse key message number).report none := by
  obtain ⟨heading, report⟩ := toList_report key message number
  have nothing : excerpt (some source) number = "" := by
    cases number with
    | none => rw [excerpt, Option.getD_none, window_eq_nil_iff.mpr (.inl rfl)]
    | some line => exact excerpt_of_outside (outside line rfl)
  rw [← String.toList_inj, report, report, nothing, excerpt_none]

/-- The bounds of a window are computed without a sum beyond 64 bits or a place beyond the lines. A window on a line
that is not there is empty, and any other shows the lines from `size` before to `size` behind its line, as far as there
are such lines, in their order and without the carriage returns at their ends. A report on a line of the source shows
the window around it in front of the advice, with a mark before this line and no other. Any other report shows what it
shows without a source. -/
theorem only_its_line_is_marked :
    (∀ (source : String) (line size : Nat),
      let n := (Text.lines source.toList).length
      (Text.byteSize source.toList < 2 ^ 63 → size < 2 ^ 63 →
        window? source line size = some (window source line size)) ∧
      (line = 0 ∨ n < line → window source line size = []) ∧
      (0 < line → line ≤ n →
        (window source line size).map Prod.fst =
          List.range' (max 1 (line - size)) (min n (line + size) + 1 - max 1 (line - size)) ∧
        ∀ number text, (number, text) ∈ window source line size ↔
          (max 1 (line - size) ≤ number ∧ number ≤ min n (line + size)) ∧ HasLine source number text) ∧
      ∀ number, (∃ text, HasLine source number text) ↔ 0 < number ∧ number ≤ n) ∧
    (∀ (key : Key) (message source : String) (line : Nat), 0 < line → line ≤ (Text.lines source.toList).length →
      let shown := fun source? => Text.lines ((PageError.parse key message (some line)).report source?).toList
      let advice := Text.lines parseAdvice.toList
      ∃ heading before text after,
        HasLine source line text ∧ window source line margin = before ++ (line, text) :: after ∧
        shown none = heading ++ advice ∧
        shown (some source) =
          heading ++ [] :: (before.map (row ' ') ++ row '>' (line, text) :: after.map (row ' ')) ++ advice) ∧
    ∀ (key : Key) (message source : String) (number : Option Nat),
      (∀ line ∈ number, line = 0 ∨ (Text.lines source.toList).length < line) →
      (PageError.parse key message number).report (some source) =
        (PageError.parse key message number).report none := by
  refine ⟨?_, ?_, ?_⟩
  · intro source line size
    refine ⟨window?_eq, window_eq_nil_iff.mpr, fun positive inside => ?_, fun number => exists_hasLine_iff⟩
    exact ⟨map_fst_window positive inside, fun number text => mem_window_iff positive inside⟩
  · intro key message source line positive inside
    exact lines_report key message positive inside
  · intro key message source number outside
    exact report_of_outside key message outside

/-- Lines with both kinds of ends, one that looks marked, an empty one, and no feed behind the last. -/
def brokenPage : String := "one\r\n> two\nthree \x7b% oops %\x7d\r\n\nfive"

theorem broken_page_only_its_line_is_marked :
    let shown := fun source? =>
      Text.lines ((PageError.parse ⟨"pages/broken"⟩ "unexpected tag" (some 3)).report source?).toList
    let advice := Text.lines parseAdvice.toList
    (Text.byteSize brokenPage.toList < 2 ^ 63 ∧ 1 < 2 ^ 63 ∧
      window? brokenPage 3 1 = some [(2, "> two"), (3, "three \x7b% oops %\x7d"), (4, "")]) ∧
    (5 < 6 ∧ window brokenPage 6 1 = []) ∧
    ((Text.lines brokenPage.toList).length = 5 ∧ (window brokenPage 3 1).map Prod.fst = [2, 3, 4] ∧
      ∃ heading before text after, HasLine brokenPage 3 text ∧
        window brokenPage 3 margin = before ++ (3, text) :: after ∧ shown none = heading ++ advice ∧
        shown (some brokenPage) =
          heading ++ [] :: (before.map (row ' ') ++ row '>' (3, text) :: after.map (row ' ')) ++ advice) ∧
    (PageError.parse ⟨"pages/broken"⟩ "unexpected tag" (some 6)).report (some brokenPage) =
      (PageError.parse ⟨"pages/broken"⟩ "unexpected tag" (some 6)).report none := by
  have five : (Text.lines brokenPage.toList).length = 5 := by decide
  have small : Text.byteSize brokenPage.toList < 2 ^ 63 := by decide
  have around : window brokenPage 3 1 = [(2, "> two"), (3, "three \x7b% oops %\x7d"), (4, "")] := by decide
  obtain ⟨windows, reports, others⟩ := only_its_line_is_marked
  obtain ⟨words, -, near, -⟩ := windows brokenPage 3 1
  have beyond : 6 = 0 ∨ (Text.lines brokenPage.toList).length < 6 := .inr (by omega)
  have inside : 3 ≤ (Text.lines brokenPage.toList).length := by omega
  refine ⟨⟨small, by decide, around ▸ words small (by decide)⟩, ⟨by decide, (windows brokenPage 6 1).2.1 beyond⟩,
    ⟨five, ?_, reports _ _ brokenPage 3 (by decide) inside⟩, ?_⟩
  · rw [(near (by decide) inside).1, five]
    rfl
  · exact others _ _ brokenPage (some 6) fun line same => Option.some.inj same ▸ beyond

end Pageweave.Report
