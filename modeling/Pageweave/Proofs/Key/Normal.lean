import Pageweave.Key
import Pageweave.Proofs.Path.Joining
import Pageweave.Proofs.Text.Letters
/-!
# Normal keys

The key of a name is made of segments that hold no mark and are not idle; only the last of them may be what an
extension left over. So a contained key with an extension behind it leads along names, down to one file.
-/
namespace Pageweave.Key

open Text

variable {s name stem extension last : List Char} {ss front : List (List Char)}

/-- One segment of a flat name. -/
def IsSegment (s : List Char) : Prop := s ≠ [] ∧ s ≠ ['.'] ∧ '/' ∉ s ∧ '\\' ∉ s

instance (s : List Char) : Decidable (IsSegment s) := inferInstanceAs (Decidable (_ ∧ _))

/-- The segments that a flat name is joined of. -/
def flatSegments (name : List Char) : List (List Char) :=
  (pieces '/' (name.map fun c => if c = '\\' then '/' else c)).filter isSegment

theorem flat_eq_joined (name : List Char) : flat name = joined '/' (flatSegments name) := rfl

/-- All pieces of a name, with slashes of either kind between them. -/
def cuts (name : List Char) : List (List Char) := pieces '/' (name.map fun c => if c = '\\' then '/' else c)

theorem flatSegments_eq (name : List Char) : flatSegments name = (cuts name).filter isSegment := rfl

theorem cuts_ne_nil (name : List Char) : cuts name ≠ [] := pieces_ne_nil '/' _

theorem cuts_append {mark : Char} (slash : mark = '/' ∨ mark = '\\') (front back : List Char) :
    cuts (front ++ mark :: back) = cuts front ++ cuts back := by
  have same : (if mark = '\\' then '/' else mark) = '/' := by
    rcases slash with rfl | rfl <;> rfl
  simp only [cuts, List.map_append, List.map_cons, same, pieces_append]

theorem exists_cuts_eq (name : List Char) : ∃ before last, cuts name = before ++ [last] :=
  (List.eq_nil_or_concat' (cuts name)).resolve_left (cuts_ne_nil name)

theorem cuts_extend {name more : List Char} {before : List (List Char)} {last : List Char}
    (cut : cuts name = before ++ [last]) (unmarked : ∀ c ∈ more, c ≠ '/' ∧ c ≠ '\\') :
    cuts (name ++ more) = before ++ [last ++ more] := by
  let slashed (cs : List Char) := cs.map fun c => if c = '\\' then '/' else c
  have kept : slashed more = more := by
    conv_rhs => rw [← List.map_id more]
    apply List.map_congr_left
    intro c there
    simp [(unmarked c there).2]
  have absent : ∀ p ∈ before ++ [last], '/' ∉ p := fun p there => not_mem_of_mem_pieces (cut ▸ there)
  have whole : slashed (name ++ more) = joined '/' (before ++ [last ++ more]) := by
    have apart : slashed (name ++ more) = slashed name ++ slashed more := List.map_append
    have front : slashed name = joined '/' (before ++ [last]) := by
      rw [← cut]
      exact (joined_pieces '/' _).symm
    rw [apart, front, kept, joined_append]
  change pieces '/' (slashed (name ++ more)) = _
  rw [whole]
  apply pieces_joined ?_ (by simp)
  intro p listed
  rcases List.mem_append.mp listed with older | newest
  · exact absent p (List.mem_append_left _ older)
  · rw [List.mem_singleton.mp newest, List.mem_append, not_or]
    exact ⟨absent last (by simp), fun mark => (unmarked '/' mark).1 rfl⟩

theorem isSegment_iff : isSegment s = true ↔ s ≠ [] ∧ s ≠ ['.'] := by
  simp [isSegment]

theorem isSegment_of_mem_flatSegments (listed : s ∈ flatSegments name) : IsSegment s := by
  obtain ⟨cut, kept⟩ := List.mem_filter.mp listed
  obtain ⟨some_char, no_dot⟩ := isSegment_iff.mp kept
  refine ⟨some_char, no_dot, not_mem_of_mem_pieces cut, fun there => ?_⟩
  obtain ⟨c, -, same⟩ := List.mem_map.mp (mem_of_mem_pieces cut there)
  by_cases mark : c = '\\'
  · simp [mark] at same
  · simp [mark] at same

theorem flatSegments_append {mark : Char} (slash : mark = '/' ∨ mark = '\\') (front back : List Char) :
    flatSegments (front ++ mark :: back) = flatSegments front ++ flatSegments back := by
  simp only [flatSegments_eq, cuts_append slash, List.filter_append]

theorem flatSegments_of_isSegment (h : IsSegment s) : flatSegments s = [s] := by
  obtain ⟨some_char, no_dot, no_slash, no_backslash⟩ := h
  have same : s.map (fun c => if c = '\\' then '/' else c) = s := by
    conv_rhs => rw [← List.map_id s]
    apply List.map_congr_left
    intro c there
    have other : c ≠ '\\' := fun mark => no_backslash (mark ▸ there)
    simp [other]
  have kept : isSegment s = true := isSegment_iff.mpr ⟨some_char, no_dot⟩
  simp [flatSegments, same, pieces_of_not_mem no_slash, kept]

theorem flatSegments_joined (all : ∀ s ∈ front, IsSegment s) (last : List Char) :
    flatSegments (joined '/' (front ++ [last])) = front ++ flatSegments last := by
  induction front with
  | nil => rfl
  | cons s front ih =>
    have first : flatSegments s = [s] := flatSegments_of_isSegment (all s List.mem_cons_self)
    have rest := ih fun q listed => all q (List.mem_cons_of_mem s listed)
    rw [List.cons_append, joined_cons '/' s (by simp), flatSegments_append (.inl rfl), first, rest]
    rfl

/-- Segments joined are flat. -/
theorem flat_joined (all : ∀ s ∈ ss, IsSegment s) : flat (joined '/' ss) = joined '/' ss := by
  rcases List.eq_nil_or_concat' ss with rfl | ⟨front, last, rfl⟩
  · rfl
  · have before : ∀ s ∈ front, IsSegment s := fun s listed => all s (List.mem_append_left _ listed)
    have whole : flatSegments last = [last] := flatSegments_of_isSegment (all last (by simp))
    rw [flat_eq_joined, flatSegments_joined before, whole]

theorem stem?_eq_some (cut : stem? extension name = some stem) :
    stem = name ∨ stem ≠ [] ∧ ∃ suffix, name = stem ++ '.' :: suffix ∧ sameLetters suffix extension = true := by
  simp only [stem?] at cut
  split at cut
  · exact .inl (Option.some.inj cut).symm
  · rename_i long
    obtain ⟨⟨front, back⟩, split_up, same⟩ := Option.map_eq_some_iff.mp cut
    obtain ⟨whole, size⟩ := append_of_splitAtByte split_up
    simp only at same
    split at same
    · rename_i ends
      subst same
      right
      constructor
      · rintro rfl
        have none : byteSize [] = 0 := rfl
        omega
      · unfold isSuffix at ends
        split at ends
        · rename_i suffix
          exact ⟨suffix, whole, ends⟩
        · cases ends
    · exact .inl same.symm

theorem stem?_of_sameLetters {suffix : List Char} (some_char : stem ≠ []) (letters : sameLetters suffix extension = true) :
    stem? extension (stem ++ '.' :: suffix) = some stem := by
  have size : byteSize ('.' :: suffix) = byteSize extension + 1 := by
    rw [byteSize_cons, byteSize_of_sameLetters letters, Nat.add_comm]
    rfl
  have room := byteSize_pos some_char
  have cut : byteSize stem + byteSize ('.' :: suffix) - (byteSize extension + 1) = byteSize stem := by omega
  simp only [stem?, byteSize_append]
  rw [if_neg (by omega), cut, splitAtByte_append]
  simp [isSuffix, letters]

variable {e given : String} {k : Key}

/-- The pieces of a normal key: segments, and what an extension left of the last one. -/
structure HasPieces (k : Key) (front : List (List Char)) (last : List Char) : Prop where
  name_eq : k.name.toList = joined '/' (front ++ [last])
  isSegment : ∀ s ∈ front, IsSegment s
  no_slash : '/' ∉ last
  no_backslash : '\\' ∉ last

/-- The key of any name is normal. -/
theorem hasPieces_of_ofName? (made : ofName? e given = some k) : ∃ front last, k.HasPieces front last := by
  obtain ⟨stem, cut, rfl⟩ := Option.map_eq_some_iff.mp made
  have begins : stem <+: joined '/' (flatSegments given.toList) := by
    rw [← flat_eq_joined]
    rcases stem?_eq_some cut with rfl | ⟨-, suffix, whole, -⟩
    · exact List.prefix_refl _
    · rw [whole]
      exact List.prefix_append _ _
  obtain ⟨front, last, same, listed, ends⟩ := prefix_joined begins
  have before : ∀ s ∈ front, IsSegment s := fun s there => isSegment_of_mem_flatSegments (listed s there)
  have name_eq : (Key.mk (String.ofList stem)).name.toList = joined '/' (front ++ [last]) := by
    rw [String.toList_ofList, same]
  refine ⟨front, last, ?_⟩
  rcases ends with rfl | ⟨p, there, inside⟩
  · exact ⟨name_eq, before, List.not_mem_nil, List.not_mem_nil⟩
  · obtain ⟨-, -, no_slash, no_backslash⟩ := isSegment_of_mem_flatSegments there
    exact ⟨name_eq, before, fun mark => no_slash (inside.subset mark), fun mark => no_backslash (inside.subset mark)⟩

/-- Segments, the last of them ending in the extension in whatever case, are the name of the key that lacks it. -/
theorem ofName?_joined {suffix : List Char} (before : ∀ s ∈ front, IsSegment s) (some_char : last ≠ [])
    (whole : IsSegment (last ++ '.' :: suffix)) (letters : sameLetters suffix e.toList = true) :
    ofName? e (String.ofList (joined '/' (front ++ [last ++ '.' :: suffix]))) =
      some ⟨String.ofList (joined '/' (front ++ [last]))⟩ := by
  have all : ∀ s ∈ front ++ [last ++ '.' :: suffix], IsSegment s := by
    intro s listed
    rcases List.mem_append.mp listed with older | newest
    · exact before s older
    · exact List.mem_singleton.mp newest ▸ whole
  have some_stem : joined '/' (front ++ [last]) ≠ [] := by
    obtain ⟨c, cs, rfl⟩ := List.exists_cons_of_ne_nil some_char
    have there : c ∈ joined '/' (front ++ [c :: cs]) := mem_joined (p := c :: cs) (by simp) List.mem_cons_self
    exact List.ne_nil_of_mem there
  rw [ofName?, String.toList_ofList, flat_joined all, ← joined_append, stem?_of_sameLetters some_stem letters]
  rfl

namespace HasPieces

theorem no_slash_of_mem (h : k.HasPieces front last) (listed : s ∈ front ++ [last]) : '/' ∉ s := by
  rcases List.mem_append.mp listed with older | newest
  · exact (h.isSegment s older).2.2.1
  · exact List.mem_singleton.mp newest ▸ h.no_slash

theorem segments_eq (h : k.HasPieces front last) : k.segments = front ++ [last] := by
  rw [segments, h.name_eq, pieces_joined (fun s listed => h.no_slash_of_mem listed) (by simp)]

theorem name_eq_empty_iff (h : k.HasPieces front last) : k.name = "" ↔ front = [] ∧ last = [] := by
  constructor
  · rintro empty
    have cut : [[]] = front ++ [last] := by
      rw [← h.segments_eq, segments, empty]
      rfl
    cases front with
    | nil => simpa using cut.symm
    | cons s front => simp at cut
  · rintro ⟨rfl, rfl⟩
    rw [← String.toList_inj, h.name_eq]
    rfl

/-- A key ends in a slash if nothing is left of its last piece. -/
theorem getLast?_eq_slash_iff (h : k.HasPieces front last) (some_name : k.name ≠ "") :
    k.name.toList.getLast? = some '/' ↔ last = [] := by
  rw [h.name_eq]
  constructor
  · intro slash
    rcases List.eq_nil_or_concat' last with rfl | ⟨cs, c, rfl⟩
    · rfl
    · rw [← List.nil_append (cs ++ [c]), ← joined_append, List.getLast?_append] at slash
      have same : c = '/' := by simpa using slash
      exact absurd (by simp [same]) h.no_slash
  · rintro rfl
    have before : front ≠ [] := fun nothing => some_name (h.name_eq_empty_iff.mpr ⟨nothing, rfl⟩)
    rw [joined_concat '/' [] before]
    simp

theorem isContained_iff (h : k.HasPieces front last) :
    k.isContained = true ↔
      ¬(front = [] ∧ last = []) ∧ (∀ s ∈ front, s ≠ ['.', '.']) ∧ last ≠ ['.', '.'] := by
  simp only [isContained, Bool.and_eq_true, decide_eq_true_eq, ne_eq, h.name_eq_empty_iff, h.segments_eq,
    List.all_eq_true, List.mem_append, List.mem_singleton]
  constructor
  · rintro ⟨some_name, all⟩
    exact ⟨some_name, fun s there => all s (.inl there), all last (.inr rfl)⟩
  · rintro ⟨some_name, before, ends⟩
    refine ⟨some_name, ?_⟩
    rintro s (there | rfl)
    · exact before s there
    · exact ends

end HasPieces

/-- An extension that belongs to the last name of a path: not empty, without a slash and no dot in front. -/
structure FitsName (e : String) : Prop where
  ne_empty : e.toList ≠ []
  no_dot : e.toList.head? ≠ some '.'
  no_slash : '/' ∉ e.toList

instance (e : String) : Decidable (FitsName e) :=
  decidable_of_iff (e.toList ≠ [] ∧ e.toList.head? ≠ some '.' ∧ '/' ∉ e.toList)
    ⟨fun ⟨a, b, c⟩ => ⟨a, b, c⟩, fun ⟨a, b, c⟩ => ⟨a, b, c⟩⟩

theorem toList_fileName (k : Key) (e : String) : (k.fileName e).toList = k.name.toList ++ '.' :: e.toList := by
  simp [fileName]

theorem FitsName.isName (fits : FitsName e) (no_slash : '/' ∉ last) : Path.IsName (last ++ '.' :: e.toList) := by
  obtain ⟨c, cs, ext⟩ := List.exists_cons_of_ne_nil fits.ne_empty
  have other : c ≠ '.' := by
    rintro rfl
    exact fits.no_dot (by simp [ext])
  have long : 2 ≤ (last ++ '.' :: e.toList).length := by
    simp [ext]
    omega
  have mark := fits.no_slash
  refine ⟨by simp, ?_, ?_, ?_⟩
  · intro same
    simp [same] at long
  · intro same
    cases last with
    | nil => simp [ext, other] at same
    | cons d ds =>
      have size := congrArg List.length same
      simp [ext] at size
      omega
  · simpa [no_slash] using mark

namespace HasPieces

theorem isName (h : k.HasPieces front last) (contained : k.isContained = true) (fits : FitsName e) :
    ∀ s ∈ front ++ [last ++ '.' :: e.toList], Path.IsName s := by
  obtain ⟨-, climbs, -⟩ := h.isContained_iff.mp contained
  intro s listed
  rcases List.mem_append.mp listed with older | newest
  · obtain ⟨some_char, no_dot, no_slash, -⟩ := h.isSegment s older
    exact ⟨some_char, no_dot, climbs s older, no_slash⟩
  · exact List.mem_singleton.mp newest ▸ fits.isName h.no_slash

theorem relativePath_eq (h : k.HasPieces front last) (contained : k.isContained = true) (fits : FitsName e) :
    k.relativePath e = String.ofList (joined '/' (front ++ [last ++ '.' :: e.toList])) := by
  have all := h.isName contained fits
  rw [relativePath, toList_fileName, h.name_eq, joined_append, Path.pieces_names all (by simp),
    Path.ofParts_eq all (by simp)]

end HasPieces
end Pageweave.Key
