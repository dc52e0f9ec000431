import Mathlib.Order.Bounds.Defs
import Mathlib.Order.Lattice.Nat
import Pageweave.Text.EditDistance
/-!
# The least number of edits

An edit inserts, deletes or replaces one character anywhere. Texts that are so many edits apart can be laid side by side
with no more places at which they differ. The fewest such places of two texts follow from those of the texts without
their last characters, and the table of the edit distance is filled in just so.
-/
namespace Pageweave.Text

variable {a b c p q u v : List Char} {m n : Nat} {x y : Char}

inductive Edit : List Char → List Char → Prop where
  | insert (front back : List Char) (x : Char) : Edit (front ++ back) (front ++ x :: back)
  | delete (front back : List Char) (x : Char) : Edit (front ++ x :: back) (front ++ back)
  | replace (front back : List Char) (x y : Char) : Edit (front ++ x :: back) (front ++ y :: back)

/-- So many edits lead from one text to another. -/
inductive Edits : Nat → List Char → List Char → Prop where
  | nil (a : List Char) : Edits 0 a a
  | snoc {n : Nat} {a b c : List Char} (before : Edits n a b) (last : Edit b c) : Edits (n + 1) a c

/-- Two texts side by side, and the number of places at which they differ. -/
inductive Aligned : List Char → List Char → Nat → Prop where
  | nil : Aligned [] [] 0
  | keep {p q : List Char} {n : Nat} (x : Char) (front : Aligned p q n) : Aligned (p ++ [x]) (q ++ [x]) n
  | replace {p q : List Char} {n : Nat} (x y : Char) (front : Aligned p q n) :
    Aligned (p ++ [x]) (q ++ [y]) (n + 1)
  | insert {p q : List Char} {n : Nat} (y : Char) (front : Aligned p q n) : Aligned p (q ++ [y]) (n + 1)
  | delete {p q : List Char} {n : Nat} (x : Char) (front : Aligned p q n) : Aligned (p ++ [x]) q (n + 1)

theorem Aligned.append (front : Aligned p q m) (back : Aligned u v n) : Aligned (p ++ u) (q ++ v) (m + n) := by
  induction back with
  | nil => simpa using front
  | keep x _ ih =>
    rw [← List.append_assoc, ← List.append_assoc]
    exact .keep x ih
  | replace x y _ ih =>
    rw [← List.append_assoc, ← List.append_assoc]
    exact .replace x y ih
  | insert y _ ih =>
    rw [← List.append_assoc]
    exact .insert y ih
  | delete x _ ih =>
    rw [← List.append_assoc]
    exact .delete x ih

theorem Aligned.refl (a : List Char) : Aligned a a 0 := by
  induction a with
  | nil => exact .nil
  | cons x a ih => exact (Aligned.keep x .nil).append ih

theorem Aligned.of_nil (b : List Char) : Aligned [] b b.length := by
  induction b with
  | nil => exact .nil
  | cons y b ih =>
    rw [List.length_cons, Nat.add_comm]
    exact (Aligned.insert y .nil).append ih

theorem Aligned.to_nil (a : List Char) : Aligned a [] a.length := by
  induction a with
  | nil => exact .nil
  | cons x a ih =>
    rw [List.length_cons, Nat.add_comm]
    exact (Aligned.delete x .nil).append ih

private theorem eq_of_append_eq_snoc (h : u ++ v = q ++ [y]) :
    (v = [] ∧ u = q ++ [y]) ∨ ∃ w, v = w ++ [y] ∧ u ++ w = q := by
  rcases List.eq_nil_or_concat v with rfl | ⟨w, z, rfl⟩
  · exact .inl ⟨rfl, by simpa using h⟩
  · rw [List.concat_eq_append, ← List.append_assoc] at h
    obtain ⟨front, last⟩ := List.append_inj' h rfl
    exact .inr ⟨w, by rw [List.concat_eq_append, last], front⟩

theorem Aligned.exists_split (h : Aligned a (u ++ v) n) :
    ∃ p q i j, a = p ++ q ∧ n = i + j ∧ Aligned p u i ∧ Aligned q v j := by
  have whole {a u : List Char} {n : Nat} (h : Aligned a u n) :
      ∃ p q i j, a = p ++ q ∧ n = i + j ∧ Aligned p u i ∧ Aligned q [] j :=
    ⟨a, [], n, 0, (List.append_nil a).symm, rfl, h, .nil⟩
  generalize same : u ++ v = b at h
  induction h generalizing v with
  | nil =>
    obtain ⟨rfl, rfl⟩ := List.append_eq_nil_iff.mp same
    exact whole .nil
  | keep x front ih =>
    rcases eq_of_append_eq_snoc same with ⟨rfl, rfl⟩ | ⟨w, rfl, shorter⟩
    · exact whole (.keep x front)
    · obtain ⟨p, q, i, j, rfl, rfl, left, right⟩ := ih shorter
      exact ⟨p, q ++ [x], i, j, List.append_assoc .., rfl, left, .keep x right⟩
  | replace x y front ih =>
    rcases eq_of_append_eq_snoc same with ⟨rfl, rfl⟩ | ⟨w, rfl, shorter⟩
    · exact whole (.replace x y front)
    · obtain ⟨p, q, i, j, rfl, rfl, left, right⟩ := ih shorter
      exact ⟨p, q ++ [x], i, j + 1, List.append_assoc .., rfl, left, .replace x y right⟩
  | insert y front ih =>
    rcases eq_of_append_eq_snoc same with ⟨rfl, rfl⟩ | ⟨w, rfl, shorter⟩
    · exact whole (.insert y front)
    · obtain ⟨p, q, i, j, rfl, rfl, left, right⟩ := ih shorter
      exact ⟨p, q, i, j + 1, rfl, rfl, left, .insert y right⟩
  | delete x _ ih =>
    obtain ⟨p, q, i, j, rfl, rfl, left, right⟩ := ih same
    exact ⟨p, q ++ [x], i, j + 1, List.append_assoc .., rfl, left, .delete x right⟩

theorem Aligned.length_left_le (h : Aligned a b n) : a.length ≤ b.length + n := by
  induction h <;> simp only [List.length_nil, List.length_append, List.length_singleton] <;> omega

theorem Aligned.length_right_le (h : Aligned a b n) : b.length ≤ a.length + n := by
  induction h <;> simp only [List.length_nil, List.length_append, List.length_singleton] <;> omega

/-- An edit makes at most one more place at which a text differs from another. -/
theorem Aligned.edit (h : Aligned a b n) (edit : Edit b c) : ∃ m ≤ n + 1, Aligned a c m := by
  cases edit with
  | insert front back x =>
    obtain ⟨p, q, i, j, rfl, rfl, left, right⟩ := h.exists_split
    refine ⟨i + (1 + j), by omega, left.append ?_⟩
    exact (Aligned.of_nil [x]).append right
  | delete front back x =>
    obtain ⟨p, q, i, j, rfl, rfl, left, right⟩ := h.exists_split
    obtain ⟨s, t, k, l, rfl, rfl, here, behind⟩ := right.exists_split (u := [x])
    have short : s.length ≤ 1 + k := here.length_left_le
    exact ⟨i + (s.length + l), by omega, left.append ((Aligned.to_nil s).append behind)⟩
  | replace front back x y =>
    obtain ⟨p, q, i, j, rfl, rfl, left, right⟩ := h.exists_split
    obtain ⟨s, t, k, l, rfl, rfl, here, behind⟩ := right.exists_split (u := [x])
    have short : s.length ≤ 1 + k := here.length_left_le
    obtain ⟨r, few, there⟩ : ∃ r ≤ k + 1, Aligned s [y] r := by
      rcases List.eq_nil_or_concat s with rfl | ⟨s, z, rfl⟩
      · exact ⟨1, by omega, .of_nil [y]⟩
      · rw [List.length_concat] at short
        rw [List.concat_eq_append]
        exact ⟨s.length + 1, by omega, .replace z y (.to_nil s)⟩
    exact ⟨i + (r + l), by omega, left.append (there.append behind)⟩

theorem Edits.exists_aligned (h : Edits n a b) : ∃ m ≤ n, Aligned a b m := by
  induction h with
  | nil a => exact ⟨0, Nat.le_refl 0, .refl a⟩
  | snoc _ last ih =>
    obtain ⟨m, few, aligned⟩ := ih
    obtain ⟨k, one_more, aligned⟩ := aligned.edit last
    exact ⟨k, by omega, aligned⟩

theorem Edits.append_right (h : Edits n a b) (back : List Char) : Edits n (a ++ back) (b ++ back) := by
  induction h with
  | nil a => exact .nil _
  | snoc _ last ih =>
    refine .snoc ih ?_
    cases last with
    | insert front rest x => simpa using Edit.insert front (rest ++ back) x
    | delete front rest x => simpa using Edit.delete front (rest ++ back) x
    | replace front rest x y => simpa using Edit.replace front (rest ++ back) x y

theorem Aligned.edits (h : Aligned a b n) : Edits n a b := by
  induction h with
  | nil => exact .nil []
  | keep x _ ih => exact ih.append_right [x]
  | replace x y _ ih => exact .snoc (ih.append_right [x]) (.replace _ [] x y)
  | @insert p q n y _ ih => exact .snoc ih (by simpa using Edit.insert q [] y)
  | @delete p q n x _ ih => exact .snoc (ih.append_right [x]) (by simpa using Edit.delete q [] x)

/-- The fewest places at which two texts differ side by side. -/
noncomputable def apart (a b : List Char) : Nat := sInf {n | Aligned a b n}

theorem aligned_apart (a b : List Char) : Aligned a b (apart a b) := by
  have some_way : Aligned a b (a.length + b.length) := by
    simpa using (Aligned.to_nil a).append (Aligned.of_nil b)
  exact Nat.sInf_mem ⟨_, some_way⟩

theorem Aligned.apart_le (h : Aligned a b n) : apart a b ≤ n := Nat.sInf_le h

theorem apart_nil_left (b : List Char) : apart [] b = b.length := by
  have at_least := (aligned_apart [] b).length_right_le
  rw [List.length_nil, Nat.zero_add] at at_least
  exact Nat.le_antisymm (Aligned.of_nil b).apart_le at_least

theorem apart_nil_right (a : List Char) : apart a [] = a.length := by
  have at_least := (aligned_apart a []).length_left_le
  rw [List.length_nil, Nat.zero_add] at at_least
  exact Nat.le_antisymm (Aligned.to_nil a).apart_le at_least

theorem Aligned.snoc_cases (h : Aligned (p ++ [x]) (q ++ [y]) n) :
    (x = y ∧ Aligned p q n) ∨
      ∃ m, n = m + 1 ∧ (Aligned p q m ∨ Aligned (p ++ [x]) q m ∨ Aligned p (q ++ [y]) m) := by
  generalize here : p ++ [x] = a at h
  generalize there : q ++ [y] = b at h
  cases h with
  | nil => simp at here
  | keep z front =>
    obtain ⟨rfl, last⟩ := List.append_inj' here rfl
    obtain ⟨rfl, last'⟩ := List.append_inj' there rfl
    exact .inl ⟨(List.singleton_inj.mp last).trans (List.singleton_inj.mp last').symm, front⟩
  | replace z w front =>
    obtain ⟨rfl, -⟩ := List.append_inj' here rfl
    obtain ⟨rfl, -⟩ := List.append_inj' there rfl
    exact .inr ⟨_, rfl, .inl front⟩
  | insert z front =>
    obtain ⟨rfl, -⟩ := List.append_inj' there rfl
    exact .inr ⟨_, rfl, .inr (.inl (here ▸ front))⟩
  | delete z front =>
    obtain ⟨rfl, -⟩ := List.append_inj' here rfl
    exact .inr ⟨_, rfl, .inr (.inr (there ▸ front))⟩

theorem apart_snoc (p q : List Char) (x y : Char) :
    apart (p ++ [x]) (q ++ [y]) =
      min (min (apart (p ++ [x]) q + 1) (apart p (q ++ [y]) + 1)) (if y = x then apart p q else apart p q + 1) := by
  apply Nat.le_antisymm
  · have inserted := ((aligned_apart (p ++ [x]) q).insert y).apart_le
    have deleted := ((aligned_apart p (q ++ [y])).delete x).apart_le
    have replaced := ((aligned_apart p q).replace x y).apart_le
    split
    · rename_i same
      subst same
      have kept := ((aligned_apart p q).keep y).apart_le
      omega
    · omega
  · rcases (aligned_apart (p ++ [x]) (q ++ [y])).snoc_cases with ⟨rfl, both⟩ | ⟨m, last, front⟩
    · have fewest := both.apart_le
      rw [if_pos rfl]
      omega
    · have capped : (if y = x then apart p q else apart p q + 1) ≤ apart p q + 1 := by split <;> omega
      rcases front with front | front | front
      · have fewest := front.apart_le
        omega
      · have fewest := front.apart_le
        omega
      · have fewest := front.apart_le
        omega

/-- The part of a row behind the entry for `q`: a text against what `q` becomes with more and more of another. -/
noncomputable def rowBehind (p q : List Char) : List Char → List Nat
  | [] => []
  | y :: ys => apart p (q ++ [y]) :: rowBehind p (q ++ [y]) ys

theorem editRow_eq (p q text : List Char) (x : Char) :
    editRow x text (apart p q) (apart (p ++ [x]) q) (rowBehind p q text) = rowBehind (p ++ [x]) q text := by
  induction text generalizing q with
  | nil => rfl
  | cons y ys ih =>
    simp only [rowBehind, editRow]
    rw [← apart_snoc, ih]

theorem editRows_eq (text p cs : List Char) :
    editRows text cs (apart p [] :: rowBehind p [] text) = apart (p ++ cs) [] :: rowBehind (p ++ cs) [] text := by
  induction cs generalizing p with
  | nil => rw [List.append_nil, editRows]
  | cons x cs ih =>
    have first : apart p [] + 1 = apart (p ++ [x]) [] := by
      rw [apart_nil_right, apart_nil_right, List.length_append, List.length_singleton]
    rw [editRows, first, editRow_eq, ih, List.append_assoc, List.singleton_append]

theorem range'_eq_rowBehind (q text : List Char) :
    List.range' (q.length + 1) text.length = rowBehind [] q text := by
  induction text generalizing q with
  | nil => rfl
  | cons y ys ih =>
    have longer : (q ++ [y]).length = q.length + 1 := List.length_append
    rw [List.length_cons, List.range'_succ, rowBehind, apart_nil_left, ← ih, longer]

theorem getLast?_row (p q text : List Char) :
    (apart p q :: rowBehind p q text).getLast? = some (apart p (q ++ text)) := by
  induction text generalizing q with
  | nil => rw [List.append_nil]; rfl
  | cons y ys ih => rw [rowBehind, List.getLast?_cons_cons, ih, List.append_assoc, List.singleton_append]

theorem editDistance_eq_apart (a b : List Char) : editDistance a b = apart a b := by
  have first : List.range (b.length + 1) = apart [] [] :: rowBehind [] [] b := by
    rw [List.range_eq_range', List.range'_succ, apart_nil_left, ← range'_eq_rowBehind]
    rfl
  rw [editDistance, first, editRows_eq, getLast?_row]
  rfl

/-- The edit distance is the least number of edits that lead from one text to the other. -/
theorem editDistance_isLeast (a b : List Char) : IsLeast {n | Edits n a b} (editDistance a b) := by
  rw [editDistance_eq_apart]
  refine ⟨(aligned_apart a b).edits, fun n leads => ?_⟩
  obtain ⟨m, few, aligned⟩ := Edits.exists_aligned leads
  exact Nat.le_trans aligned.apart_le few

example : editDistance "kitten".toList "sitting".toList = 3 := by decide

end Pageweave.Text
