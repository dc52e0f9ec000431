import Pageweave.Error
import Pageweave.Proofs.Key.Filing
/-!
# Names that have no key

The extension is cut off by its length in bytes, whether the name ends in it or not. A name has a key unless this cut
falls inside one of its characters, and then it has none. Names of one-byte characters are never torn, and neither are
the names of listed files, which end in the extension.
-/
namespace Pageweave

namespace Text

variable {cs : List Char}

theorem byteSize_le_of_suffix {back : List Char} (suffix : back <:+ cs) : byteSize back ≤ byteSize cs := by
  obtain ⟨front, rfl⟩ := suffix
  rw [byteSize_append]
  omega

end Text

namespace Key

open Text

variable {e name : String} {ps : List Path.Part}

/-- The bytes of the extension and its dot, counted from the end, end inside a character of the flat name. -/
def IsTorn (extension name : String) : Prop :=
  ∃ front c back, flat name.toList = front ++ c :: back ∧
    byteSize back < byteSize extension.toList + 1 ∧ byteSize extension.toList + 1 < byteSize (c :: back)

theorem stem?_eq_none_iff {extension name : List Char} : stem? extension name = none ↔
    ∃ front c back, name = front ++ c :: back ∧
      byteSize back < byteSize extension + 1 ∧ byteSize extension + 1 < byteSize (c :: back) := by
  have whole (front : List Char) (c : Char) (back : List Char) :
      byteSize (front ++ c :: back) = byteSize front + c.utf8Size + byteSize back := by
    rw [byteSize_append, byteSize_cons, Nat.add_assoc]
  simp only [stem?]
  split
  · rename_i short
    simp only [reduceCtorEq, false_iff, not_exists, not_and]
    rintro front c back rfl - after_cut
    rw [whole] at short
    rw [byteSize_cons] at after_cut
    omega
  · rename_i long
    rw [Option.map_eq_none_iff, splitAtByte_eq_none_iff, or_iff_right (by omega)]
    constructor
    · rintro ⟨front, c, back, rfl, after_front, before_back⟩
      rw [whole] at after_front before_back long
      refine ⟨front, c, back, rfl, ?_, ?_⟩
      · omega
      · rw [byteSize_cons]
        omega
    · rintro ⟨front, c, back, rfl, before_cut, after_cut⟩
      rw [byteSize_cons] at after_cut
      rw [whole] at long ⊢
      exact ⟨front, c, back, rfl, by omega, by omega⟩

theorem ofName?_eq_none_iff : ofName? e name = none ↔ IsTorn e name := by
  rw [ofName?, Option.map_eq_none_iff, stem?_eq_none_iff]
  exact Iff.rfl

instance (extension name : String) : Decidable (IsTorn extension name) :=
  decidable_of_iff _ ofName?_eq_none_iff

theorem named_eq_ok {k : Key} : named e name = .ok k ↔ ofName? e name = some k := by
  rw [named]
  cases ofName? e name <;> simp

theorem named_eq_error_iff : named e name = .error .malformedName ↔ IsTorn e name := by
  rw [← ofName?_eq_none_iff, named]
  cases ofName? e name <;> simp

theorem named_eq_ok_iff : (∃ k, named e name = .ok k) ↔ ¬ IsTorn e name := by
  rw [← ofName?_eq_none_iff, named]
  cases ofName? e name <;> simp

theorem not_isTorn_of_flat_eq {stem suffix : List Char} (cut : flat name.toList = stem ++ suffix)
    (size : byteSize suffix = byteSize e.toList + 1) : ¬ IsTorn e name := by
  rintro ⟨front, c, back, whole, before_cut, after_cut⟩
  have ends : suffix <:+ flat name.toList := ⟨stem, cut.symm⟩
  have tail : c :: back <:+ flat name.toList := ⟨front, whole.symm⟩
  rcases List.suffix_or_suffix_of_suffix ends tail with inside | outside
  · rcases List.suffix_cons_iff.mp inside with rfl | behind
    · omega
    · have small := byteSize_le_of_suffix behind
      omega
  · have large := byteSize_le_of_suffix outside
    omega

/-- Only characters of more than one byte can be torn. -/
theorem IsTorn.exists_wide (torn : IsTorn e name) : ∃ c ∈ name.toList, 1 < c.utf8Size := by
  obtain ⟨front, c, back, whole, before_cut, after_cut⟩ := torn
  rw [byteSize_cons] at after_cut
  have wide : 1 < c.utf8Size := by omega
  have there : c ∈ joined '/' (flatSegments name.toList) := by
    rw [← flat_eq_joined, whole]
    simp
  rcases mem_of_mem_joined there with rfl | ⟨s, listed, inside⟩
  · exact absurd wide (by decide)
  · have cut : s ∈ pieces '/' (name.toList.map fun c => if c = '\\' then '/' else c) :=
      (List.mem_filter.mp listed).1
    obtain ⟨d, held, same⟩ := List.mem_map.mp (mem_of_mem_pieces cut inside)
    by_cases mark : d = '\\'
    · rw [if_pos mark] at same
      rw [← same] at wide
      exact absurd wide (by decide)
    · rw [if_neg mark] at same
      exact ⟨c, same ▸ held, wide⟩

/-- A path is read as a torn name, or there is no fault. -/
theorem ofParts_eq_malformed_iff : ofParts e ps = .malformed ↔ Path.hasExtension e.toList ps = true ∧
    ∃ s names, names? ps = some (s :: names) ∧ IsTorn e (String.ofList (joined '/' (s :: names))) := by
  unfold ofParts
  cases has : Path.hasExtension e.toList ps with
  | false => simp
  | true =>
    cases read : names? ps with
    | none => simp
    | some names =>
      cases names with
      | nil => simp
      | cons s names =>
        have made : OfPath.ofOption (ofName? e (String.ofList (joined '/' (s :: names)))) = .malformed ↔
            IsTorn e (String.ofList (joined '/' (s :: names))) := by
          rw [← ofName?_eq_none_iff]
          cases ofName? e (String.ofList (joined '/' (s :: names))) <;> simp [OfPath.ofOption]
        simp [made]

theorem flat_append {found : List Char} (some_char : found ≠ []) (unmarked : ∀ c ∈ found, c ≠ '/' ∧ c ≠ '\\')
    (front : List Char) : ∃ stem, flat (front ++ '.' :: found) = stem ++ '.' :: found := by
  obtain ⟨before, last, cut⟩ := exists_cuts_eq front
  have unmarked_dotted : ∀ c ∈ '.' :: found, c ≠ '/' ∧ c ≠ '\\' := by
    intro c there
    rcases List.mem_cons.mp there with rfl | inside
    · decide
    · exact unmarked c inside
  have segment : isSegment (last ++ '.' :: found) = true := by
    obtain ⟨c, cs, rfl⟩ := List.exists_cons_of_ne_nil some_char
    refine isSegment_iff.mpr ⟨by simp, fun dot => ?_⟩
    have size := congrArg List.length dot
    simp at size
    omega
  refine ⟨joined '/' (before.filter isSegment ++ [last]), ?_⟩
  rw [joined_append, flat_eq_joined, flatSegments_eq, cuts_extend cut unmarked_dotted, List.filter_append,
    List.filter_cons, if_pos segment, List.filter_nil]

/-- A file that carries the extension is never torn. -/
theorem ofParts_ne_malformed (some_char : e ≠ "") (unmarked : ∀ c ∈ e.toList, c ≠ '/' ∧ c ≠ '\\')
    (ps : List Path.Part) : ofParts e ps ≠ .malformed := by
  intro malformed
  obtain ⟨has, s, names, read, torn⟩ := ofParts_eq_malformed_iff.mp malformed
  obtain ⟨stem, found, -, last, -, letters⟩ := hasExtension_iff.mp has
  have size : byteSize found = byteSize e.toList := byteSize_of_sameLetters letters
  have some_found : found ≠ [] := by
    rintro rfl
    have some_size : 0 < byteSize e.toList := byteSize_pos (by simpa using some_char)
    rw [← size] at some_size
    exact absurd some_size (by decide)
  have unmarked_found : ∀ c ∈ found, c ≠ '/' ∧ c ≠ '\\' := by
    intro c there
    constructor
    · rintro rfl
      exact (unmarked '/' ((mem_of_sameLetters (.inr (.inl rfl)) letters).mp there)).1 rfl
    · rintro rfl
      exact (unmarked '\\' ((mem_of_sameLetters (.inr (.inr rfl)) letters).mp there)).2 rfl
  obtain ⟨front, rfl⟩ := Path.fileName?_eq_some_iff.mp last
  obtain ⟨before, same⟩ := names?_append read
  rw [same, ← joined_append] at torn
  obtain ⟨stem', flat_eq⟩ := flat_append some_found unmarked_found (joined '/' (before ++ [stem]))
  have cut : flat (String.ofList (joined '/' (before ++ [stem]) ++ '.' :: found)).toList = stem' ++ '.' :: found := by
    rw [String.toList_ofList, flat_eq]
  have cut_size : byteSize ('.' :: found) = byteSize e.toList + 1 := by
    rw [byteSize_cons, size, Nat.add_comm]
    rfl
  exact not_isTorn_of_flat_eq cut cut_size torn

end Key
end Pageweave
