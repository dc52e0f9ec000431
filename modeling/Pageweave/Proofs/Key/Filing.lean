import Pageweave.Proofs.Key.Normal
/-!
# Keys of files

Names that lead to a file are read as a key: the last one has to end in the extension, and the key lacks it. The key
that a file was made for is read back if the extension holds no dot and no mark that separates segments, and if
something is left of the last piece.
-/
namespace Pageweave.Key

open Text

variable {e : String} {k : Key} {s last found : List Char} {front names : List (List Char)} {ps : List Path.Part}

/-- An extension in which nothing is cut: neither at a dot nor at a slash of either kind. -/
def IsUnmarked (e : String) : Prop := ∀ c ∈ e.toList, c ≠ '.' ∧ c ≠ '/' ∧ c ≠ '\\'

instance (e : String) : Decidable (IsUnmarked e) := List.decidableBAll _ e.toList

theorem hasExtension_iff {ps : List Path.Part} {extension : List Char} :
    Path.hasExtension extension ps = true ↔
      ∃ stem found, stem ≠ [] ∧ Path.fileName? ps = some (stem ++ '.' :: found) ∧ '.' ∉ found ∧
        sameLetters found extension = true := by
  unfold Path.hasExtension
  cases last : Path.fileName? ps with
  | none => simp
  | some s =>
    constructor
    · intro has
      cases ends : Path.extension? s with
      | none => simp [ends] at has
      | some found =>
        obtain ⟨stem, some_char, rfl, no_dot⟩ := Path.extension?_eq_some_iff.mp ends
        exact ⟨stem, found, some_char, rfl, no_dot, by simpa [ends] using has⟩
    · rintro ⟨stem, found, some_char, whole, no_dot, same⟩
      obtain rfl : s = stem ++ '.' :: found := Option.some.inj whole
      have ends : Path.extension? (stem ++ '.' :: found) = some found :=
        Path.extension?_eq_some_iff.mpr ⟨stem, some_char, rfl, no_dot⟩
      simp [ends, same]

theorem names?_eq_some_iff : names? ps = some names ↔ ps.filter (· ≠ .here) = names.map .name := by
  induction ps generalizing names with
  | nil => simp [names?, eq_comm]
  | cons p ps ih =>
    cases p with
    | root => cases names <;> simp [names?]
    | here => simpa [names?] using ih
    | up => cases names <;> simp [names?]
    | name s => cases names <;> simp [names?, ih, and_comm]

theorem names?_map (names : List (List Char)) : names? (names.map .name) = some names := by
  apply names?_eq_some_iff.mpr
  simp

theorem names?_append {before : List Path.Part} (read : names? (before ++ [.name s]) = some names) :
    ∃ front, names = front ++ [s] := by
  have along := names?_eq_some_iff.mp read
  rw [List.filter_append] at along
  obtain ⟨front, last, rfl, -, ends⟩ := List.map_eq_append_iff.mp along.symm
  refine ⟨front, ?_⟩
  obtain ⟨t, rfl, same⟩ : ∃ t, last = [t] ∧ Path.Part.name t = .name s := by simpa using ends
  rw [Path.Part.name.inj same]

theorem exists_names_of_ofParts (read : ofParts e ps = .key k) :
    ∃ names, names? ps = some names ∧ ofName? e (String.ofList (joined '/' names)) = some k := by
  unfold ofParts at read
  split at read
  · split at read
    · rename_i s rest found
      refine ⟨s :: rest, found, ?_⟩
      cases made : ofName? e (String.ofList (joined '/' (s :: rest))) <;> simp_all [OfPath.ofOption]
    · cases read
  · cases read

theorem ofParts_names_iff :
    ofParts e ((front ++ [s]).map .name) = .key k ↔
      Path.hasExtension e.toList ((front ++ [s]).map .name) = true ∧
        ofName? e (String.ofList (joined '/' (front ++ [s]))) = some k := by
  obtain ⟨first, rest, cons⟩ : ∃ first rest, front ++ [s] = first :: rest := List.exists_cons_of_ne_nil (by simp)
  unfold ofParts
  rw [names?_map, cons]
  cases has : Path.hasExtension e.toList ((first :: rest).map .name) with
  | false => simp
  | true =>
    cases made : ofName? e (String.ofList (joined '/' (first :: rest))) with
    | none => simp [made, OfPath.ofOption]
    | some q => simp [made, OfPath.ofOption]

theorem hasExtension_of_ofParts (read : ofParts e ps = .key k) : Path.hasExtension e.toList ps = true := by
  by_contra lacks
  simp [ofParts, lacks] at read

theorem isSegment_dotted (some_char : last ≠ []) (no_slash : '/' ∉ last ++ '.' :: found)
    (no_backslash : '\\' ∉ last ++ '.' :: found) : IsSegment (last ++ '.' :: found) := by
  refine ⟨by simp, ?_, no_slash, no_backslash⟩
  intro same
  have short := congrArg List.length same
  have room := List.length_pos_iff.mpr some_char
  simp only [List.length_append, List.length_cons, List.length_nil] at short
  omega

/-- The key of a file is read back from the names that lead to it. -/
theorem ofParts_of_isUnmarked (unmarked : IsUnmarked e) (before : ∀ s ∈ front, IsSegment s)
    (some_char : last ≠ []) (no_slash : '/' ∉ last) (no_backslash : '\\' ∉ last) :
    ofParts e ((front ++ [last ++ '.' :: e.toList]).map .name) = .key ⟨String.ofList (joined '/' (front ++ [last]))⟩ := by
  have no_dot : '.' ∉ e.toList := fun there => (unmarked '.' there).1 rfl
  have no_mark : '/' ∉ e.toList := fun there => (unmarked '/' there).2.1 rfl
  have no_other : '\\' ∉ e.toList := fun there => (unmarked '\\' there).2.2 rfl
  have whole : IsSegment (last ++ '.' :: e.toList) := by
    apply isSegment_dotted some_char
    · simp [no_slash, no_mark]
    · simp [no_backslash, no_other]
  have ends : Path.fileName? ((front ++ [last ++ '.' :: e.toList]).map .name) = some (last ++ '.' :: e.toList) := by
    rw [List.map_append]
    exact Path.fileName?_append _ _
  apply ofParts_names_iff.mpr
  constructor
  · exact hasExtension_iff.mpr ⟨last, e.toList, some_char, ends, no_dot, sameLetters_refl _⟩
  · exact ofName?_joined before some_char whole (sameLetters_refl _)

/-- A backslash in the extension cuts the last piece of a key, so its segments are others. -/
theorem flatSegments_of_backslash (pieces : k.HasPieces front last) (some_char : last ≠ []) (no_slash : '/' ∉ e.toList)
    (mark : '\\' ∈ e.toList) :
    ∃ more, flatSegments (joined '/' (front ++ [last ++ '.' :: e.toList])) = front ++ more ∧ more ≠ [] ∧
      more ≠ [last] := by
  obtain ⟨before, behind, whole, absent⟩ := List.eq_append_cons_of_mem mark
  have no_slash_before : '/' ∉ before := fun there => no_slash (by simp [whole, there])
  have first : IsSegment (last ++ '.' :: before) := by
    apply isSegment_dotted some_char
    · simp [pieces.no_slash, no_slash_before]
    · simp [pieces.no_backslash, absent]
  have cut : last ++ '.' :: e.toList = (last ++ '.' :: before) ++ '\\' :: behind := by simp [whole]
  refine ⟨(last ++ '.' :: before) :: flatSegments behind, ?_, by simp, by simp⟩
  rw [flatSegments_joined pieces.isSegment, cut, flatSegments_append (.inr rfl), flatSegments_of_isSegment first,
    List.singleton_append]

theorem no_backslash_of_ofName? (pieces : k.HasPieces front last) (some_char : last ≠ []) (no_slash : '/' ∉ e.toList)
    (read : ofName? e (String.ofList (joined '/' (front ++ [last ++ '.' :: e.toList]))) = some k) :
    '\\' ∉ e.toList := by
  intro mark
  obtain ⟨more, segments, some_more, other⟩ := flatSegments_of_backslash pieces some_char no_slash mark
  have plain : ∀ s ∈ front ++ more, IsSegment s := fun s listed =>
    isSegment_of_mem_flatSegments (segments ▸ listed)
  obtain ⟨stem, cut, same⟩ := Option.map_eq_some_iff.mp read
  rw [String.toList_ofList, flat_eq_joined, segments] at cut
  rcases stem?_eq_some cut with unchanged | ⟨-, suffix, ends, letters⟩
  · have joined_eq : joined '/' (front ++ [last]) = joined '/' (front ++ more) := by
      rw [← pieces.name_eq, ← same, String.toList_ofList, unchanged]
    have pieces_eq := congrArg (Text.pieces '/') joined_eq
    rw [pieces_joined (fun s listed => pieces.no_slash_of_mem listed) (by simp),
      pieces_joined (fun s listed => (plain s listed).2.2.1) (by simp [some_more])] at pieces_eq
    exact other (List.append_cancel_left pieces_eq).symm
  · have held : '\\' ∈ suffix := (mem_of_sameLetters (.inr (.inr rfl)) letters).mpr mark
    have there : '\\' ∈ joined '/' (front ++ more) := by
      rw [ends]
      simp [held]
    rcases mem_of_mem_joined there with slash | ⟨s, listed, inside⟩
    · cases slash
    · exact (plain s listed).2.2.2 inside

end Pageweave.Key
