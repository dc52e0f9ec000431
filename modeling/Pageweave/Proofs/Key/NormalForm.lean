import Pageweave.Layout
import Pageweave.Locator
import Pageweave.Proofs.Key.Tearing
/-!
# When a key is in normal form

Segments are picked before the extension is dropped, and not again behind it. So a key is made of segments unless the
extension stands behind nothing, or behind one dot, in the last piece of the name. Then this rest stays as the last
piece of the key, which ends in a slash or in a single dot.
-/
namespace Pageweave

namespace Key

open Text

variable {e given : String} {k q : Key} {front : List (List Char)} {last : List Char}

/-- A key that is empty or made of segments. -/
def IsNormal (k : Key) : Prop := k.name = "" ∨ ∀ s ∈ k.segments, IsSegment s

instance (k : Key) : Decidable k.IsNormal := inferInstanceAs (Decidable (_ ∨ _))

theorem segments_of_joined {ss : List (List Char)} (some_segment : ss ≠ []) (all : ∀ s ∈ ss, IsSegment s)
    (same : k.name.toList = joined '/' ss) : k.segments = ss := by
  rw [segments, same, pieces_joined (fun s listed => (all s listed).2.2.1) some_segment]

theorem isNormal_iff_joined :
    k.IsNormal ↔ k.name = "" ∨ ∃ ss, ss ≠ [] ∧ (∀ s ∈ ss, IsSegment s) ∧ k.name.toList = joined '/' ss := by
  apply or_congr_right
  constructor
  · intro all
    exact ⟨k.segments, pieces_ne_nil '/' _, all, (joined_pieces '/' _).symm⟩
  · rintro ⟨ss, some_segment, all, same⟩
    rwa [segments_of_joined some_segment all same]

theorem isNormal_of_joined {ss : List (List Char)} (all : ∀ s ∈ ss, IsSegment s)
    (same : k.name.toList = joined '/' ss) : k.IsNormal := by
  by_cases nothing : ss = []
  · subst nothing
    exact .inl (String.toList_eq_nil_iff.mp same)
  · exact isNormal_iff_joined.mpr (.inr ⟨ss, nothing, all, same⟩)

theorem IsNormal.marks (normal : k.IsNormal) :
    k.name.toList.head? ≠ some '/' ∧ k.name.toList.getLast? ≠ some '/' ∧ '\\' ∉ k.name.toList := by
  rcases isNormal_iff_joined.mp normal with empty | ⟨ss, some_segment, all, same⟩
  · simp [empty]
  rw [same]
  refine ⟨?_, ?_, ?_⟩
  · obtain ⟨s, rest, rfl⟩ := List.exists_cons_of_ne_nil some_segment
    obtain ⟨some_char, -, no_slash, -⟩ := all s List.mem_cons_self
    obtain ⟨c, cs, rfl⟩ := List.exists_cons_of_ne_nil some_char
    have first : (joined '/' ((c :: cs) :: rest)).head? = some c := by
      cases rest <;> simp [joined]
    rw [first]
    rintro slash
    exact no_slash (by simp [Option.some.inj slash])
  · obtain ⟨before, s, rfl⟩ := (List.eq_nil_or_concat' ss).resolve_left some_segment
    obtain ⟨some_char, -, no_slash, -⟩ := all s (by simp)
    obtain ⟨cs, c, rfl⟩ := (List.eq_nil_or_concat' s).resolve_left some_char
    rw [← joined_append]
    intro slash
    have same_char : c = '/' := by simpa using slash
    exact no_slash (by simp [same_char])
  · intro mark
    rcases mem_of_mem_joined mark with slash | ⟨s, listed, inside⟩
    · cases slash
    · exact (all s listed).2.2.2 inside

theorem HasPieces.isNormal_iff (h : k.HasPieces front last) :
    k.IsNormal ↔ k.name = "" ∨ last ≠ [] ∧ last ≠ ['.'] := by
  apply or_congr_right
  rw [h.segments_eq]
  constructor
  · intro all
    obtain ⟨some_char, no_dot, -, -⟩ := all last (by simp)
    exact ⟨some_char, no_dot⟩
  · rintro ⟨some_char, no_dot⟩ s listed
    rcases List.mem_append.mp listed with older | newest
    · exact h.isSegment s older
    · rw [List.mem_singleton.mp newest]
      exact ⟨some_char, no_dot, h.no_slash, h.no_backslash⟩

/-- The extension ends a name behind something, but in its own piece behind nothing or a single dot. -/
def LeavesIdle (e given : String) : Prop :=
  ∃ front idle suffix, (idle = [] ∨ idle = ['.']) ∧ ¬(front = [] ∧ idle = []) ∧ sameLetters suffix e.toList = true ∧
    flat given.toList = joined '/' (front ++ [idle ++ '.' :: suffix])

/-- Where an extension leaves an idle piece, that piece is the last of the key. -/
theorem LeavesIdle.last_eq (leaves : LeavesIdle e given) (made : ofName? e given = some k)
    (pieces : k.HasPieces front last) : k.name ≠ "" ∧ (last = [] ∨ last = ['.']) := by
  obtain ⟨before, idle, suffix, is_idle, something, letters, whole⟩ := leaves
  have some_char : joined '/' (before ++ [idle]) ≠ [] := by
    by_cases alone : before = []
    · subst alone
      exact fun nothing => something ⟨rfl, nothing⟩
    · rw [joined_concat '/' idle alone]
      simp
  have stem : stem? e.toList (flat given.toList) = some (joined '/' (before ++ [idle])) := by
    rw [whole, ← joined_append, stem?_of_sameLetters some_char letters]
  have name_eq : k.name.toList = joined '/' (before ++ [idle]) := by
    obtain ⟨stem', cut, rfl⟩ := Option.map_eq_some_iff.mp made
    rw [stem] at cut
    rw [String.toList_ofList, ← Option.some.inj cut]
  refine ⟨fun empty => some_char (by simp [← name_eq, empty]), ?_⟩
  have no_slash : '/' ∉ idle := by
    rcases is_idle with rfl | rfl <;> simp
  have ends : k.segments.getLast? = some idle := by
    by_cases alone : before = []
    · subst alone
      rw [segments, name_eq]
      simp [joined, pieces_of_not_mem no_slash]
    · rw [segments, name_eq, joined_concat '/' idle alone, pieces_append, pieces_of_not_mem no_slash,
        List.getLast?_concat]
  rw [pieces.segments_eq, List.getLast?_concat] at ends
  rwa [Option.some.inj ends]

theorem leavesIdle_of_last (made : ofName? e given = some k) (pieces : k.HasPieces front last) (some_name : k.name ≠ "")
    (idle : last = [] ∨ last = ['.']) : LeavesIdle e given := by
  obtain ⟨stem, cut, name⟩ := Option.map_eq_some_iff.mp made
  have stem_eq : stem = joined '/' (front ++ [last]) := by
    rw [← pieces.name_eq, ← name, String.toList_ofList]
  rcases stem?_eq_some cut with unchanged | ⟨-, suffix, whole, letters⟩
  · have name_eq : k.name.toList = joined '/' (flatSegments given.toList) := by
      rw [← flat_eq_joined, ← unchanged, ← name, String.toList_ofList]
    have normal := isNormal_of_joined (fun s listed => isSegment_of_mem_flatSegments listed) name_eq
    obtain ⟨some_char, no_dot⟩ := (pieces.isNormal_iff.mp normal).resolve_left some_name
    exact absurd idle (not_or.mpr ⟨some_char, no_dot⟩)
  · refine ⟨front, last, suffix, idle, fun nothing => some_name (pieces.name_eq_empty_iff.mpr nothing), letters, ?_⟩
    rw [whole, stem_eq, joined_append]

theorem isNormal_iff (made : ofName? e given = some k) : k.IsNormal ↔ ¬LeavesIdle e given := by
  obtain ⟨front, last, pieces⟩ := hasPieces_of_ofName? made
  rw [pieces.isNormal_iff]
  constructor
  · intro normal leaves
    obtain ⟨some_name, idle⟩ := leaves.last_eq made pieces
    exact (not_or.mpr (normal.resolve_left some_name)) idle
  · intro not_left
    by_cases empty : k.name = ""
    · exact .inl empty
    · right
      rw [← not_or]
      exact fun idle => not_left (leavesIdle_of_last made pieces empty idle)

theorem isNormal_iff_of_named (made : named e given = .ok k) : k.IsNormal ↔ ¬LeavesIdle e given := by
  unfold named at made
  split at made
  · rename_i q found
    exact Except.ok.inj made ▸ isNormal_iff found
  · cases made

theorem isNormal_iff_of_ofParts {ps : List Path.Part} (read : ofParts e ps = .key k) :
    ∃ names, names? ps = some names ∧ (k.IsNormal ↔ ¬LeavesIdle e (String.ofList (joined '/' names))) := by
  obtain ⟨names, along, made⟩ := exists_names_of_ofParts read
  exact ⟨names, along, isNormal_iff made⟩

theorem isNormal_iff_of_forExtension {y y' : Layout} (made : y.forExtension e = .ok y') :
    y'.template.IsNormal ↔ ¬LeavesIdle e (Names.layouts ++ "/" ++ y.id) := by
  unfold Layout.forExtension Layout.templateKey at made
  cases found : named e (Names.layouts ++ "/" ++ y.id) with
  | error fault =>
    rw [found] at made
    cases made
  | ok q =>
    rw [found] at made
    obtain rfl := Except.ok.inj made
    exact isNormal_iff_of_named found

/-- A key is normal, and so has slashes between segments only and no backslash, unless the extension leaves an idle piece
of its name; all pieces before the last are segments even then. This holds for the keys of names, of layouts and of
files, so for all that a locator, the cache or an included text is asked by. -/
theorem normal_unless_left_idle (e given : String) :
    (∀ k, ofName? e given = some k →
      (k.IsNormal ↔ ¬LeavesIdle e given) ∧ ∃ front last, k.HasPieces front last ∧
        (LeavesIdle e given ↔ k.name ≠ "" ∧ (last = [] ∨ last = ['.']))) ∧
      (∀ k : Key, k.IsNormal →
        (k.name = "" ∨ ∃ ss, ss ≠ [] ∧ (∀ s ∈ ss, IsSegment s) ∧ k.name.toList = joined '/' ss) ∧
          k.name.toList.head? ≠ some '/' ∧ k.name.toList.getLast? ≠ some '/' ∧ '\\' ∉ k.name.toList) ∧
      (∀ (l : Locator) k, l.key given = .ok k → (k.IsNormal ↔ ¬LeavesIdle l.extension given)) ∧
      (∀ y y' : Layout, y.forExtension e = .ok y' →
        (y'.template.IsNormal ↔ ¬LeavesIdle e (Names.layouts ++ "/" ++ y.id))) ∧
      ∀ ps k, ofParts e ps = .key k →
        ∃ names, names? ps = some names ∧ (k.IsNormal ↔ ¬LeavesIdle e (String.ofList (joined '/' names))) := by
  refine ⟨fun k made => ⟨isNormal_iff made, ?_⟩, fun k normal => ⟨isNormal_iff_joined.mp normal, normal.marks⟩,
    fun l k made => isNormal_iff_of_named made, fun y y' made => isNormal_iff_of_forExtension made,
    fun ps k read => isNormal_iff_of_ofParts read⟩
  obtain ⟨front, last, pieces⟩ := hasPieces_of_ofName? made
  refine ⟨front, last, pieces, fun leaves => leaves.last_eq made pieces, ?_⟩
  rintro ⟨some_name, idle⟩
  exact leavesIdle_of_last made pieces some_name idle

theorem home_normal_unless_left_idle :
    ofName? "html" "pages/home.html" = some ⟨"pages/home"⟩ ∧ ¬LeavesIdle "html" "pages/home.html" ∧
      ofName? "html" "a/.html" = some ⟨"a/"⟩ ∧ LeavesIdle "html" "a/.html" := by
  have home : ofName? "html" "pages/home.html" = some ⟨"pages/home"⟩ := by decide +kernel
  have bare : ofName? "html" "a/.html" = some ⟨"a/"⟩ := by decide +kernel
  refine ⟨home, ?_, bare, ?_⟩
  · exact ((normal_unless_left_idle "html" "pages/home.html").1 _ home).1.mp (by decide +kernel)
  · have left := ((normal_unless_left_idle "html" "a/.html").1 _ bare).1
    exact not_not.mp (mt left.mpr (by decide +kernel))

/-- The key of `a/.html` ends in a slash, and that of `a/..html` in an idle dot. -/
theorem bare_extension_not_normal :
    ofName? "html" "a/.html" = some ⟨"a/"⟩ ∧ ¬(⟨"a/"⟩ : Key).IsNormal ∧
      ofName? "html" "a/..html" = some ⟨"a/."⟩ ∧ ¬(⟨"a/."⟩ : Key).IsNormal := by
  decide +kernel

end Key
end Pageweave
