import Pageweave.Proofs.Text.Pieces
/-!
# The lines of a text

A line ends in front of a line feed, or at the end of the text if something is left there. Where the lines of a text are
read off, a carriage return in front of the feed is left out. Texts that end in a feed keep their lines whatever
follows.
-/
namespace Pageweave.Text

variable {cs line line' : List Char} {n : Nat}

/-- The lines of a text by their numbers, from 1 on, with all that stands in front of the feed. -/
inductive IsLine : (cs : List Char) → (n : Nat) → (line : List Char) → Prop
  /-- A last line that no feed ends is not empty. -/
  | unended {line : List Char} (plain : '\n' ∉ line) (some_char : line ≠ []) : IsLine line 1 line
  | ended {line : List Char} (plain : '\n' ∉ line) (rest : List Char) : IsLine (line ++ '\n' :: rest) 1 line
  | behind {first rest line : List Char} {n : Nat} (plain : '\n' ∉ first) (later : IsLine rest n line) :
    IsLine (first ++ '\n' :: rest) (n + 1) line

/-- A text is a line without a feed, or such a line, a feed and a text again. -/
@[elab_as_elim]
theorem feed_induction {motive : List Char → Prop} (unended : ∀ line, '\n' ∉ line → motive line)
    (ended : ∀ line rest, '\n' ∉ line → motive rest → motive (line ++ '\n' :: rest)) (cs : List Char) : motive cs := by
  -- The pieces between the feeds carry the induction; the text itself is not cut at its head.
  have of_pieces (ps : List (List Char)) (plain : ∀ p ∈ ps, '\n' ∉ p) : motive (joined '\n' ps) := by
    induction ps with
    | nil => exact unended [] List.not_mem_nil
    | cons p ps ih =>
      obtain ⟨first, rest⟩ := List.forall_mem_cons.mp plain
      by_cases alone : ps = []
      · subst alone
        exact unended p first
      · rw [joined_cons '\n' p alone]
        exact ended p _ first (ih rest)
  rw [← joined_pieces '\n' cs]
  exact of_pieces _ fun p => not_mem_of_mem_pieces

theorem IsLine.not_mem (h : IsLine cs n line) : '\n' ∉ line := by
  induction h with
  | unended plain => exact plain
  | ended plain => exact plain
  | behind _ _ ih => exact ih

theorem IsLine.getElem?_pieces (h : IsLine cs n line) : 0 < n ∧ (pieces '\n' cs)[n - 1]? = some line := by
  induction h with
  | unended plain => simp [pieces_of_not_mem plain]
  | ended plain rest => simp [pieces_append, pieces_of_not_mem plain]
  | @behind first rest line n plain _ ih =>
    obtain ⟨m, rfl⟩ : ∃ m, n = m + 1 := ⟨n - 1, by omega⟩
    refine ⟨Nat.succ_pos _, ?_⟩
    rw [pieces_append, pieces_of_not_mem plain]
    simpa using ih.2

theorem IsLine.unique (h : IsLine cs n line) (h' : IsLine cs n line') : line = line' :=
  Option.some.inj (h.getElem?_pieces.2.symm.trans h'.getElem?_pieces.2)

/-- What is read off in front of a line feed. -/
def withoutReturn (line : List Char) : List Char :=
  match line.reverse with
  | '\r' :: rest => rest.reverse
  | _ => line

theorem withoutReturn_concat (line : List Char) : withoutReturn (line ++ ['\r']) = line := by
  simp [withoutReturn]

theorem withoutReturn_of_ne (no_return : line.getLast? ≠ some '\r') : withoutReturn line = line := by
  unfold withoutReturn
  split
  · rename_i rest ends
    rw [← List.head?_reverse, ends] at no_return
    exact absurd rfl no_return
  · rfl

theorem eq_withoutReturn (line : List Char) : line = withoutReturn line ∨ line = withoutReturn line ++ ['\r'] := by
  by_cases returned : line.getLast? = some '\r'
  · obtain ⟨kept, rfl⟩ := List.getLast?_eq_some_iff.mp returned
    rw [withoutReturn_concat]
    exact .inr rfl
  · exact .inl (withoutReturn_of_ne returned).symm

theorem lines_eq {ps : List (List Char)} {last : List Char} (cut : pieces '\n' cs = ps ++ [last]) :
    lines cs = ps.map withoutReturn ++ if last = [] then [] else [last] := by
  unfold lines
  simp only [cut, List.dropLast_concat, List.getLast?_concat]
  cases last with
  | nil => exact (List.append_nil _).symm
  | cons c rest => rfl

theorem lines_unended (plain : '\n' ∉ line) : lines line = if line = [] then [] else [line] := by
  have cut : pieces '\n' line = [] ++ [line] := pieces_of_not_mem plain
  exact lines_eq cut

theorem lines_ended (plain : '\n' ∉ line) : lines (line ++ ['\n']) = [withoutReturn line] := by
  have cut : pieces '\n' (line ++ ['\n']) = [line] ++ [[]] := by
    rw [pieces_append, pieces_of_not_mem plain]
    rfl
  exact lines_eq cut

/-- Lines up to a feed do not depend on what follows. -/
theorem lines_append (front back : List Char) :
    lines (front ++ '\n' :: back) = lines (front ++ ['\n']) ++ lines back := by
  obtain ⟨ps, last, cut⟩ := (List.eq_nil_or_concat (pieces '\n' back)).resolve_left (pieces_ne_nil '\n' back)
  rw [List.concat_eq_append] at cut
  have ended : pieces '\n' (front ++ ['\n']) = pieces '\n' front ++ [[]] := pieces_append '\n' front []
  have whole : pieces '\n' (front ++ '\n' :: back) = (pieces '\n' front ++ ps) ++ [last] := by
    rw [pieces_append, cut, List.append_assoc]
  rw [lines_eq whole, lines_eq ended, lines_eq cut]
  simp

theorem lines_cons (plain : '\n' ∉ line) (rest : List Char) :
    lines (line ++ '\n' :: rest) = withoutReturn line :: lines rest := by
  rw [lines_append, lines_ended plain, List.singleton_append]

theorem lines_flatMap {ls : List (List Char)} (plain : ∀ line ∈ ls, '\n' ∉ line ∧ line.getLast? ≠ some '\r')
    (back : List Char) : lines (ls.flatMap (· ++ ['\n']) ++ back) = ls ++ lines back := by
  induction ls with
  | nil => rfl
  | cons line ls ih =>
    obtain ⟨first, rest⟩ := List.forall_mem_cons.mp plain
    have next : (line :: ls).flatMap (· ++ ['\n']) ++ back = line ++ '\n' :: (ls.flatMap (· ++ ['\n']) ++ back) := by
      simp
    rw [next, lines_cons first.1, withoutReturn_of_ne first.2, ih rest, List.cons_append]

/-- A line that is read off stands in the text under its number, possibly with a return behind it. -/
theorem exists_isLine {i : Nat} (there : (lines cs)[i]? = some line) :
    ∃ k, IsLine cs (i + 1) (line ++ List.replicate k '\r') := by
  induction cs using feed_induction generalizing i with
  | unended text plain =>
    rw [lines_unended plain] at there
    split at there
    · cases there
    · rename_i some_char
      obtain ⟨rfl, rfl⟩ : i = 0 ∧ text = line := by
        cases i <;> simp_all
      exact ⟨0, by simpa using .unended plain some_char⟩
  | ended first rest plain ih =>
    rw [lines_cons plain] at there
    cases i with
    | zero =>
      -- a return that was left out in front of the feed belongs to the line in the text
      obtain rfl : withoutReturn first = line := by simpa using there
      rcases eq_withoutReturn first with same | returned
      · exact ⟨0, by simpa [← same] using .ended plain rest⟩
      · exact ⟨1, by simpa [← returned] using .ended plain rest⟩
    | succ i =>
      obtain ⟨k, later⟩ := ih there
      exact ⟨k, .behind plain later⟩

/-- A text has a line for each line end, and one more if something follows the last of them. -/
theorem length_lines (cs : List Char) :
    (lines cs).length = cs.count '\n' + if cs.getLast?.all (· = '\n') then 0 else 1 := by
  induction cs using feed_induction with
  | unended line plain =>
    rw [lines_unended plain, List.count_eq_zero.mpr plain]
    cases last : line.getLast? with
    | none =>
      obtain rfl := List.getLast?_eq_none_iff.mp last
      rfl
    | some c =>
      have other : c ≠ '\n' := fun same => plain (same ▸ List.mem_of_getLast? last)
      have some_char : line ≠ [] := by
        rintro rfl
        cases last
      simp [some_char, other]
  | ended line rest plain ih =>
    have feeds : (line ++ '\n' :: rest).count '\n' = rest.count '\n' + 1 := by
      rw [List.count_append, List.count_eq_zero.mpr plain, List.count_cons_self, Nat.zero_add]
    have ends : (line ++ '\n' :: rest).getLast?.all (· = '\n') = rest.getLast?.all (· = '\n') := by
      rw [List.getLast?_append, List.getLast?_cons]
      cases rest.getLast? <;> rfl
    rw [lines_cons plain, List.length_cons, ih, feeds, ends]
    omega

theorem IsLine.le_length_lines (h : IsLine cs n line) : n ≤ (lines cs).length := by
  induction h with
  | unended plain some_char => simp [lines_unended plain, some_char]
  | ended plain rest => simp [lines_cons plain]
  | behind plain _ ih => simpa [lines_cons plain] using ih

theorem length_lines_le (cs : List Char) : (lines cs).length ≤ byteSize cs := by
  induction cs using feed_induction with
  | unended line plain =>
    rw [lines_unended plain]
    split
    · exact Nat.zero_le _
    · rename_i some_char
      exact byteSize_pos some_char
  | ended line rest plain ih =>
    have one : '\n'.utf8Size = 1 := by decide
    rw [lines_cons plain, List.length_cons, byteSize_append, byteSize_cons, one]
    omega

end Pageweave.Text
