import Pageweave.Proofs.Text.Pieces
import Pageweave.Report
/-!
# The lines that a report shows

The lines around a place are a stretch of the source's lines, numbered as they stand in it. One of them is marked if the
place is on a line of the source; otherwise none is shown.
-/
namespace Pageweave.Report

variable {source : String} {line size n : Nat} {ls : List (List Char)} {entry : Nat × String}

/-- Lines that follow on line `n`, with their numbers. -/
def rows (n : Nat) (ls : List (List Char)) : List (Nat × String) :=
  ls.mapIdx fun i cs => (n + i + 1, String.ofList (withoutReturns cs))

@[simp] theorem rows_nil (n : Nat) : rows n [] = [] := rfl

@[simp] theorem rows_cons (n : Nat) (cs : List Char) (ls : List (List Char)) :
    rows n (cs :: ls) = (n + 1, String.ofList (withoutReturns cs)) :: rows (n + 1) ls := by
  have next (i : Nat) : n + (i + 1) + 1 = n + 1 + i + 1 := by omega
  simp [rows, List.mapIdx_cons, next]

theorem rows_append (n : Nat) (front back : List (List Char)) :
    rows n (front ++ back) = rows n front ++ rows (n + front.length) back := by
  induction front generalizing n with
  | nil => rfl
  | cons cs front ih =>
    rw [List.cons_append, rows_cons, ih, rows_cons, List.cons_append, List.length_cons, Nat.add_right_comm,
      Nat.add_assoc n front.length 1]

theorem number_of_mem_rows (listed : entry ∈ rows n ls) : n < entry.1 ∧ entry.1 ≤ n + ls.length := by
  obtain ⟨i, inside, rfl⟩ := List.mem_mapIdx.mp listed
  constructor
  · exact Nat.lt_succ_of_le (Nat.le_add_right n i)
  · exact Nat.add_lt_add_left inside n

theorem window_eq_nil_iff :
    window source line size = [] ↔ line = 0 ∨ (Text.lines source.toList).length < line := by
  unfold window
  simp only
  split
  · rename_i outside
    simpa using outside
  · rename_i inside
    have shown : line - (size + 1) < min (line + size) (Text.lines source.toList).length := by
      simp at inside
      omega
    simpa [Nat.not_le.mpr shown] using inside

/-- A window is the stretch of lines from `size` before to `size` behind its line, as far as there are such lines. -/
theorem window_eq_rows (positive : 0 < line) (inside : line ≤ (Text.lines source.toList).length) :
    window source line size =
      rows (line - (size + 1)) (((Text.lines source.toList).take (line + size)).drop (line - (size + 1))) := by
  have there : ¬(line = 0 ∨ (Text.lines source.toList).length < line) := by omega
  have last : (Text.lines source.toList).take (min (line + size) (Text.lines source.toList).length) =
      (Text.lines source.toList).take (line + size) := List.take_eq_take_iff.mpr (by omega)
  simp [window, rows, there, last]

theorem window_eq_append {cs : List Char} (size : Nat) (positive : 0 < line)
    (there : (Text.lines source.toList)[line - 1]? = some cs) :
    ∃ before after, window source line size = before ++ (line, String.ofList (withoutReturns cs)) :: after ∧
      (∀ entry ∈ before, entry.1 < line) ∧ ∀ entry ∈ after, line < entry.1 := by
  have inside : line - 1 < (Text.lines source.toList).length := (List.getElem?_eq_some_iff.mp there).1
  rw [window_eq_rows positive (by omega)]
  let first := line - (size + 1)
  let shown := ((Text.lines source.toList).take (line + size)).drop first
  let m := line - 1 - first
  obtain ⟨short, here⟩ : ∃ short : m < shown.length, shown[m] = cs := by
    apply List.getElem?_eq_some_iff.mp
    rw [List.getElem?_drop, List.getElem?_take_of_lt (by omega), show first + m = line - 1 by omega, there]
  have cut : shown = shown.take m ++ cs :: shown.drop (m + 1) := by
    rw [← here, ← List.drop_eq_getElem_cons short, List.take_append_drop]
  have taken : (shown.take m).length = m := List.length_take_of_le (Nat.le_of_lt short)
  refine ⟨rows first (shown.take m), rows line (shown.drop (m + 1)), ?_, ?_, ?_⟩
  · change rows first shown = _
    rw [cut, rows_append, rows_cons, taken, ← cut, show first + m + 1 = line by omega]
  · intro entry listed
    have bound := (number_of_mem_rows listed).2
    omega
  · intro entry listed
    exact (number_of_mem_rows listed).1

/-- The text shows the line with a mark in front of it, between lines without a mark. -/
def Marks (text source : String) (line : Nat) : Prop :=
  ∃ (before : List (Nat × String)) (cs : List Char) (after : List (Nat × String)),
    0 < line ∧ (Text.lines source.toList)[line - 1]? = some cs ∧
    (∀ entry ∈ before, entry.1 < line) ∧ (∀ entry ∈ after, line < entry.1) ∧
    text = "\n" ++ String.join (before.map (numbered none)) ++
      numbered (some line) (line, String.ofList (withoutReturns cs)) ++ String.join (after.map (numbered none))

theorem numbered_of_ne (other : entry.1 ≠ line) : numbered (some line) entry = numbered none entry := by
  simp [numbered, Ne.symm other]

theorem excerpt_of_outside (outside : line = 0 ∨ (Text.lines source.toList).length < line) :
    excerpt (some source) (some line) = "" := by
  have nothing : window source line margin = [] := window_eq_nil_iff.mpr outside
  simp [excerpt, nothing]

theorem excerpt_of_inside (positive : 0 < line) (inside : line ≤ (Text.lines source.toList).length) :
    excerpt (some source) (some line) =
      "\n" ++ String.join ((window source line margin).map (numbered (some line))) := by
  have some_line : window source line margin ≠ [] := by
    rw [Ne, window_eq_nil_iff]
    omega
  obtain ⟨e, es, entries⟩ := List.exists_cons_of_ne_nil some_line
  simp [excerpt, entries]

/-- A line of the source is marked among the lines around it. -/
theorem marks_excerpt (positive : 0 < line) (inside : line ≤ (Text.lines source.toList).length) :
    Marks (excerpt (some source) (some line)) source line := by
  have there := List.getElem?_eq_getElem (l := Text.lines source.toList) (i := line - 1) (by omega)
  obtain ⟨before, after, shown, less, greater⟩ := window_eq_append margin positive there
  have plain (entries : List (Nat × String)) (other : ∀ entry ∈ entries, entry.1 ≠ line) :
      entries.map (numbered (some line)) = entries.map (numbered none) :=
    List.map_congr_left fun entry listed => numbered_of_ne (other entry listed)
  refine ⟨before, _, after, positive, there, less, greater, ?_⟩
  rw [excerpt_of_inside positive inside, shown, List.map_append, List.map_cons,
    plain before fun e listed => Nat.ne_of_lt (less e listed),
    plain after fun e listed => Nat.ne_of_gt (greater e listed)]
  simp [String.join_append, String.join_cons, String.append_assoc]

end Pageweave.Report
