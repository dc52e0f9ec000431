import Pageweave.Text.Blank
/-!
# Cutting a text and joining it again

Cutting at a separator and joining with it undo each other, as far as the separator is in none of the pieces. A text
that ends early ends in one of the pieces, and a cut at a byte is a cut between two characters.
-/
namespace Pageweave.Text

variable {sep : Char} {cs front back : List Char} {p : List Char} {ps : List (List Char)}

theorem after?_eq_some {text : List Char} (h : after? text cs = some back) : cs = text ++ back := by
  induction text generalizing cs with
  | nil => simpa [after?] using h
  | cons c text ih =>
    cases cs with
    | nil => cases h
    | cons d cs =>
      unfold after? at h
      split at h
      · next same => rw [same, ih h, List.cons_append]
      · cases h

theorem after?_append (word cs : List Char) : after? word (word ++ cs) = some cs := by
  induction word with
  | nil => rfl
  | cons c word ih => simpa [after?] using ih

theorem cutAt?_of_not_mem {mark : Char} (absent : mark ∉ cs) : cutAt? [mark] cs = none := by
  induction cs with
  | nil => rfl
  | cons c cs ih =>
    simp only [List.mem_cons, not_or] at absent
    simp [cutAt?, after?, absent.1, ih absent.2]

theorem cutAt?_append_mark {mark : Char} (absent : mark ∉ front) (back : List Char) :
    cutAt? [mark] (front ++ mark :: back) = some (front, back) := by
  induction front with
  | nil => simp [cutAt?, after?]
  | cons c front ih =>
    simp only [List.mem_cons, not_or] at absent
    simp [cutAt?, after?, absent.1, ih absent.2]

theorem pieces_eq_splitOn (sep : Char) (cs : List Char) : pieces sep cs = cs.splitOn sep := by
  induction cs with
  | nil => rfl
  | cons c cs ih =>
    rw [List.splitOn_cons_eq_if_modifyHead, ← ih, pieces]
    by_cases here : c = sep
    · simp [here]
    · simp only [here, if_false, beq_iff_eq]
      cases cut : pieces sep cs with
      | nil =>
        rw [cut] at ih
        exact absurd ih.symm (List.splitOn_ne_nil sep cs)
      | cons q qs => rfl

theorem joined_eq_intercalate (sep : Char) (ps : List (List Char)) : joined sep ps = [sep].intercalate ps := by
  induction ps with
  | nil => rfl
  | cons p ps ih =>
    cases ps with
    | nil => simp [joined]
    | cons q qs =>
      rw [joined, ih, List.intercalate_cons_cons]
      simp

theorem pieces_ne_nil (sep : Char) (cs : List Char) : pieces sep cs ≠ [] := by
  rw [pieces_eq_splitOn]
  exact List.splitOn_ne_nil sep cs

theorem pieces_of_not_mem (absent : sep ∉ cs) : pieces sep cs = [cs] := by
  rw [pieces_eq_splitOn]
  exact List.splitOn_eq_singleton absent

theorem pieces_append (sep : Char) (front back : List Char) :
    pieces sep (front ++ sep :: back) = pieces sep front ++ pieces sep back := by
  simp only [pieces_eq_splitOn]
  exact List.splitOn_append_cons_self front back

theorem joined_pieces (sep : Char) (cs : List Char) : joined sep (pieces sep cs) = cs := by
  rw [joined_eq_intercalate, pieces_eq_splitOn]
  exact List.intercalate_splitOn sep

theorem pieces_joined (absent : ∀ p ∈ ps, sep ∉ p) (some_piece : ps ≠ []) : pieces sep (joined sep ps) = ps := by
  rw [joined_eq_intercalate, pieces_eq_splitOn]
  exact List.splitOn_intercalate sep absent some_piece

theorem mem_joined {c : Char} (listed : p ∈ ps) (there : c ∈ p) : c ∈ joined sep ps := by
  induction ps with
  | nil => exact absurd listed List.not_mem_nil
  | cons q qs ih =>
    rw [joined_eq_intercalate] at ih ⊢
    rcases List.mem_cons.mp listed with rfl | later
    · cases qs with
      | nil => simpa using there
      | cons r rs => simp [List.intercalate_cons_cons, there]
    · cases qs with
      | nil => exact absurd later List.not_mem_nil
      | cons r rs => simp [List.intercalate_cons_cons, ih later]

theorem mem_of_mem_joined {c : Char} (there : c ∈ joined sep ps) : c = sep ∨ ∃ p ∈ ps, c ∈ p := by
  induction ps with
  | nil => exact absurd there List.not_mem_nil
  | cons p ps ih =>
    cases ps with
    | nil => exact .inr ⟨p, List.mem_cons_self, there⟩
    | cons q qs =>
      rw [joined, List.mem_append, List.mem_cons] at there
      rcases there with first | same | later
      · exact .inr ⟨p, List.mem_cons_self, first⟩
      · exact .inl same
      · rcases ih later with same | ⟨r, listed, inside⟩
        · exact .inl same
        · exact .inr ⟨r, List.mem_cons_of_mem p listed, inside⟩

theorem mem_of_mem_pieces {c : Char} (listed : p ∈ pieces sep cs) (there : c ∈ p) : c ∈ cs := by
  have joined_up : c ∈ joined sep (pieces sep cs) := mem_joined listed there
  rwa [joined_pieces] at joined_up

theorem not_mem_of_mem_pieces (listed : p ∈ pieces sep cs) : sep ∉ p := by
  induction cs generalizing p with
  | nil =>
    obtain rfl : p = [] := by simpa [pieces] using listed
    exact List.not_mem_nil
  | cons c cs ih =>
    unfold pieces at listed
    split at listed
    · rcases List.mem_cons.mp listed with rfl | later
      · exact List.not_mem_nil
      · exact ih later
    · rename_i other
      split at listed
      · rename_i nothing
        exact absurd nothing (pieces_ne_nil sep cs)
      · rename_i q qs cut
        rw [cut] at ih
        rcases List.mem_cons.mp listed with rfl | later
        · have rest : sep ∉ q := ih List.mem_cons_self
          simp [rest, Ne.symm other]
        · exact ih (List.mem_cons_of_mem q later)

theorem joined_cons (sep : Char) (p : List Char) (some_piece : ps ≠ []) :
    joined sep (p :: ps) = p ++ sep :: joined sep ps := by
  cases ps with
  | nil => exact absurd rfl some_piece
  | cons q qs => rfl

theorem joined_concat (sep : Char) (p : List Char) (some_piece : ps ≠ []) :
    joined sep (ps ++ [p]) = joined sep ps ++ sep :: p := by
  induction ps with
  | nil => exact absurd rfl some_piece
  | cons q ps ih =>
    by_cases alone : ps = []
    · subst alone
      rfl
    · rw [List.cons_append, joined_cons sep q (by simp), ih alone, joined_cons sep q alone]
      simp

theorem joined_append (sep : Char) (front : List (List Char)) (last more : List Char) :
    joined sep (front ++ [last]) ++ more = joined sep (front ++ [last ++ more]) := by
  by_cases alone : front = []
  · subst alone
    rfl
  · rw [joined_concat sep last alone, joined_concat sep (last ++ more) alone]
    simp

theorem prefix_joined (short : cs <+: joined sep ps) :
    ∃ front last, cs = joined sep (front ++ [last]) ∧ (∀ p ∈ front, p ∈ ps) ∧
      (last = [] ∨ ∃ p ∈ ps, last <+: p) := by
  induction ps generalizing cs with
  | nil =>
    obtain rfl : cs = [] := List.prefix_nil.mp short
    exact ⟨[], [], rfl, nofun, .inl rfl⟩
  | cons p ps ih =>
    have within (inside : cs <+: p) : ∃ front last, cs = joined sep (front ++ [last]) ∧
        (∀ q ∈ front, q ∈ p :: ps) ∧ (last = [] ∨ ∃ q ∈ p :: ps, last <+: q) :=
      ⟨[], cs, rfl, nofun, .inr ⟨p, List.mem_cons_self, inside⟩⟩
    by_cases alone : ps = []
    · subst alone
      exact within short
    rw [joined_cons sep p alone] at short
    by_cases inside : cs <+: p
    · exact within inside
    have longer : p ++ [sep] <+: cs := by
      have whole : p ++ [sep] <+: p ++ sep :: joined sep ps := by simp
      rcases List.prefix_or_prefix_of_prefix short whole with early | late
      · rcases List.prefix_concat_iff.mp early with same | early
        · exact same ▸ List.prefix_refl _
        · exact absurd early inside
      · exact late
    obtain ⟨later, rfl⟩ := longer
    have rest : later <+: joined sep ps := by simpa using short
    obtain ⟨front, last, rfl, listed, begins⟩ := ih rest
    refine ⟨p :: front, last, ?_, ?_, ?_⟩
    · rw [List.cons_append, joined_cons sep p (by simp)]
      simp
    · intro q hq
      rcases List.mem_cons.mp hq with rfl | older
      · exact List.mem_cons_self
      · exact List.mem_cons_of_mem p (listed q older)
    · rcases begins with nothing | ⟨q, hq, begins⟩
      · exact .inl nothing
      · exact .inr ⟨q, List.mem_cons_of_mem p hq, begins⟩

theorem toUTF8_eq (s : String) : s.toUTF8.data.toList = s.toList.flatMap String.utf8EncodeChar := by
  have whole : s.toUTF8 = (s.toList.flatMap String.utf8EncodeChar).toByteArray := by
    rw [← List.utf8Encode, ← String.toByteArray_ofList, String.ofList_toList]
    rfl
  rw [whole]
  simp

theorem byteSize_cons (c : Char) (cs : List Char) : byteSize (c :: cs) = c.utf8Size + byteSize cs := rfl

theorem byteSize_append (front back : List Char) : byteSize (front ++ back) = byteSize front + byteSize back := by
  induction front with
  | nil => simp [byteSize]
  | cons c front ih =>
    rw [List.cons_append, byteSize_cons, byteSize_cons, ih, Nat.add_assoc]

theorem byteSize_pos (some_char : cs ≠ []) : 0 < byteSize cs := by
  cases cs with
  | nil => exact absurd rfl some_char
  | cons c cs =>
    have one := Char.utf8Size_pos c
    rw [byteSize_cons]
    omega

theorem splitAtByte_append (front back : List Char) : splitAtByte (front ++ back) (byteSize front) = some (front, back) := by
  induction front with
  | nil =>
    rw [List.nil_append]
    cases back <;> rfl
  | cons c front ih =>
    have one := Char.utf8Size_pos c
    obtain ⟨n, size⟩ : ∃ n, c.utf8Size + byteSize front = n + 1 := ⟨c.utf8Size + byteSize front - 1, by omega⟩
    have left : n + 1 - c.utf8Size = byteSize front := by omega
    rw [List.cons_append, byteSize_cons, size, splitAtByte, if_pos (by omega), left, ih]
    rfl

theorem append_of_splitAtByte {n : Nat} (cut : splitAtByte cs n = some (front, back)) :
    cs = front ++ back ∧ byteSize front = n := by
  induction cs, n using splitAtByte.induct generalizing front with
  | case1 cs =>
    have same : [] = front ∧ cs = back := by simpa [splitAtByte] using cut
    obtain ⟨rfl, rfl⟩ := same
    exact ⟨rfl, rfl⟩
  | case2 => simp [splitAtByte] at cut
  | case3 n c cs fits ih =>
    rw [splitAtByte, if_pos fits] at cut
    obtain ⟨⟨f, b⟩, inner, same⟩ := Option.map_eq_some_iff.mp cut
    obtain ⟨rfl, rfl⟩ := Prod.mk.inj same
    obtain ⟨rfl, size⟩ := ih inner
    refine ⟨rfl, ?_⟩
    rw [byteSize_cons, size]
    omega
  | case4 n c cs wide =>
    rw [splitAtByte, if_neg wide] at cut
    cases cut

/-- No cut is made inside a character or behind the end. -/
theorem splitAtByte_eq_none_iff {n : Nat} : splitAtByte cs n = none ↔
    byteSize cs < n ∨
      ∃ front c back, cs = front ++ c :: back ∧ byteSize front < n ∧ n < byteSize front + c.utf8Size := by
  induction cs, n using splitAtByte.induct with
  | case1 cs => simp [splitAtByte]
  | case2 => simp [splitAtByte, byteSize]
  | case3 c cs n fits ih =>
    rw [splitAtByte, if_pos fits, Option.map_eq_none_iff, ih, byteSize_cons]
    apply or_congr
    · omega
    · constructor
      · rintro ⟨front, d, back, rfl, after_front, before_back⟩
        refine ⟨c :: front, d, back, rfl, ?_, ?_⟩
        · rw [byteSize_cons]
          omega
        · rw [byteSize_cons]
          omega
      · rintro ⟨front, d, back, whole, after_front, before_back⟩
        cases front with
        | nil =>
          obtain ⟨rfl, rfl⟩ := List.cons.inj whole
          simp only [byteSize, List.foldr_nil, Nat.zero_add] at before_back
          omega
        | cons b front =>
          obtain ⟨rfl, rfl⟩ := List.cons.inj whole
          rw [byteSize_cons] at after_front before_back
          exact ⟨front, d, back, rfl, by omega, by omega⟩
  | case4 c cs n wide =>
    have inside : ∃ front d back, c :: cs = front ++ d :: back ∧ byteSize front < n + 1 ∧
        n + 1 < byteSize front + d.utf8Size := by
      refine ⟨[], c, cs, rfl, ?_, ?_⟩
      · exact Nat.succ_pos n
      · simp only [byteSize, List.foldr_nil, Nat.zero_add]
        omega
    rw [splitAtByte, if_neg wide]
    exact iff_of_true rfl (.inr inside)

end Pageweave.Text
