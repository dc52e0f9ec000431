import Pageweave.Proofs.Key.Normal
/-!
# Spellings of a name

A name is spelled in other ways with the other slash, with idle pieces in front of its last one, and with the extension
behind it. All these spellings are names of one key as long as the last piece is a segment and the extension is not there
already. In turn, such names of one key have the same segments.
-/
namespace Pageweave.Key

open Text

variable {e given other : String} {extended : Bool} {v w : List Char} {k q : Key}

/-- A character that separates pieces of a name. -/
def IsSlash (c : Char) : Prop := c = '/' ∨ c = '\\'

/-- One change to the way a name is spelled. -/
inductive Respells : (v w : List Char) → Prop
  | slash (front back : List Char) {m m' : Char} (old : IsSlash m) (new : IsSlash m') :
    Respells (front ++ m :: back) (front ++ m' :: back)
  | idleFirst (back : List Char) {idle : List Char} {m : Char} (is_idle : idle = [] ∨ idle = ['.']) (new : IsSlash m) :
    Respells back (idle ++ m :: back)
  | idleInside (front back : List Char) {idle : List Char} {m m' : Char} (is_idle : idle = [] ∨ idle = ['.'])
    (old : IsSlash m) (new : IsSlash m') :
    Respells (front ++ m :: back) (front ++ m :: (idle ++ m' :: back))

/-- The spellings of a name, without the extension behind it and with it. -/
inductive Spells (e : String) (given : List Char) : (extended : Bool) → (v : List Char) → Prop
  | plain : Spells e given false given
  | respelled {extended : Bool} {v w : List Char} (spelled : Spells e given extended v) (step : Respells v w) :
    Spells e given extended w
  | extended {v suffix : List Char} (spelled : Spells e given false v)
    (letters : sameLetters suffix e.toList = true) : Spells e given true (v ++ '.' :: suffix)

/-- A name that ends in a segment and not in the extension. -/
structure IsBare (e given : String) : Prop where
  ends : ∃ before last, cuts given.toList = before ++ [last] ∧ isSegment last = true
  no_extension : ∀ stem suffix, flat given.toList = stem ++ '.' :: suffix → sameLetters suffix e.toList = false

theorem Respells.cuts_eq (h : Respells v w) : ∃ front front' back, back ≠ [] ∧
    cuts v = front ++ back ∧ cuts w = front' ++ back ∧ front.filter isSegment = front'.filter isSegment := by
  have cuts_idle {idle : List Char} (is_idle : idle = [] ∨ idle = ['.']) :
      cuts idle = [idle] ∧ [idle].filter isSegment = [] := by
    rcases is_idle with rfl | rfl <;> exact ⟨rfl, rfl⟩
  cases h with
  | slash front back old new =>
    exact ⟨cuts front, cuts front, cuts back, cuts_ne_nil back, cuts_append old front back,
      cuts_append new front back, rfl⟩
  | idleFirst back is_idle new =>
    rename_i idle m
    obtain ⟨alone, vanishes⟩ := cuts_idle is_idle
    refine ⟨[], [idle], cuts v, cuts_ne_nil v, rfl, ?_, vanishes.symm⟩
    rw [cuts_append new, alone]
  | idleInside front back is_idle old new =>
    rename_i idle m m'
    obtain ⟨alone, vanishes⟩ := cuts_idle is_idle
    refine ⟨cuts front, cuts front ++ [idle], cuts back, cuts_ne_nil back, cuts_append old front back, ?_, ?_⟩
    · rw [cuts_append old, cuts_append new, alone, List.append_assoc]
    · rw [List.filter_append, vanishes, List.append_nil]

theorem Respells.flatSegments_eq (h : Respells v w) : flatSegments w = flatSegments v := by
  obtain ⟨front, front', back, -, cut, cut', same⟩ := h.cuts_eq
  simp only [Key.flatSegments_eq, cut, cut', List.filter_append, same]

theorem Respells.flat_eq (h : Respells v w) : flat w = flat v := by
  rw [flat_eq_joined, flat_eq_joined, h.flatSegments_eq]

theorem Respells.getLast?_eq (h : Respells v w) : (cuts w).getLast? = (cuts v).getLast? := by
  obtain ⟨front, front', back, some_piece, cut, cut', -⟩ := h.cuts_eq
  rw [cut, cut', List.getLast?_append_of_ne_nil front' some_piece, List.getLast?_append_of_ne_nil front some_piece]

theorem flat_extend {more last : List Char} (unmarked : ∀ c ∈ more, c ≠ '/' ∧ c ≠ '\\')
    (ends : (cuts v).getLast? = some last) (segment : isSegment last = true) :
    flat (v ++ '.' :: more) = flat v ++ '.' :: more := by
  obtain ⟨before, cut⟩ := List.getLast?_eq_some_iff.mp ends
  have dotted : ∀ c ∈ '.' :: more, c ≠ '/' ∧ c ≠ '\\' := by
    simpa using unmarked
  obtain ⟨some_char, -⟩ := isSegment_iff.mp segment
  have longer : isSegment (last ++ '.' :: more) = true := by
    simp [isSegment_iff, some_char, List.append_eq_singleton_iff]
  simp only [flat_eq_joined, flatSegments_eq, cuts_extend cut dotted, cut, List.filter_append, List.filter_cons,
    segment, longer, if_true, List.filter_nil, joined_append]

/-- The changes keep the flat name and its last piece, until the extension stands behind both. -/
theorem Spells.flat_eq (h : Spells e given.toList extended v) (bare : IsBare e given)
    (unmarked : ∀ c ∈ e.toList, c ≠ '/' ∧ c ≠ '\\') :
    (extended = false → flat v = flat given.toList ∧ (cuts v).getLast? = (cuts given.toList).getLast?) ∧
      (extended = true → ∃ suffix, flat v = flat given.toList ++ '.' :: suffix ∧
        sameLetters suffix e.toList = true) := by
  induction h with
  | plain => simp
  | respelled _ step ih =>
    rw [step.flat_eq, step.getLast?_eq]
    exact ih
  | @extended v suffix _ letters ih =>
    refine ⟨nofun, fun _ => ⟨suffix, ?_, letters⟩⟩
    obtain ⟨same, last_same⟩ := ih.1 rfl
    obtain ⟨before, last, cut, segment⟩ := bare.ends
    have ends : (cuts v).getLast? = some last := by simp [last_same, cut]
    have unmarked_suffix : ∀ c ∈ suffix, c ≠ '/' ∧ c ≠ '\\' := by
      intro c there
      constructor
      · intro slash
        rw [slash] at there
        exact (unmarked '/' ((mem_of_sameLetters (.inr (.inl rfl)) letters).mp there)).1 rfl
      · intro slash
        rw [slash] at there
        exact (unmarked '\\' ((mem_of_sameLetters (.inr (.inr rfl)) letters).mp there)).2 rfl
    rw [flat_extend unmarked_suffix ends segment, same]

namespace IsBare

theorem flat_ne_nil (bare : IsBare e given) : flat given.toList ≠ [] := by
  obtain ⟨before, last, cut, segment⟩ := bare.ends
  obtain ⟨c, cs, rfl⟩ := List.exists_cons_of_ne_nil (isSegment_iff.mp segment).1
  have there : c ∈ joined '/' (flatSegments given.toList) := by
    apply mem_joined (p := c :: cs) ?_ List.mem_cons_self
    simp [flatSegments_eq, cut, segment]
  exact List.ne_nil_of_mem there

theorem name_eq (bare : IsBare e given) (made : ofName? e given = some k) : k.name.toList = flat given.toList := by
  obtain ⟨stem, cut, rfl⟩ := Option.map_eq_some_iff.mp made
  rw [String.toList_ofList]
  rcases stem?_eq_some cut with unchanged | ⟨-, suffix, whole, letters⟩
  · exact unchanged
  · rw [bare.no_extension stem suffix whole] at letters
    cases letters

theorem segments_eq (bare : IsBare e given) (made : ofName? e given = some k) :
    k.segments = flatSegments given.toList := by
  obtain ⟨before, last, cut, segment⟩ := bare.ends
  have some_segment : flatSegments given.toList ≠ [] := by simp [flatSegments_eq, cut, segment]
  rw [segments, bare.name_eq made, flat_eq_joined]
  exact pieces_joined (fun s listed => (isSegment_of_mem_flatSegments listed).2.2.1) some_segment

end IsBare

theorem Spells.ofName?_eq (h : Spells e given.toList extended v) (bare : IsBare e given)
    (unmarked : ∀ c ∈ e.toList, c ≠ '/' ∧ c ≠ '\\') (made : ofName? e given = some k) :
    ofName? e (String.ofList v) = some k := by
  have kept := h.flat_eq bare unmarked
  cases extended with
  | false =>
    obtain ⟨same, -⟩ := kept.1 rfl
    rwa [ofName?, String.toList_ofList, same]
  | true =>
    obtain ⟨suffix, behind, letters⟩ := kept.2 rfl
    rw [ofName?, String.toList_ofList, behind, stem?_of_sameLetters bare.flat_ne_nil letters, Option.map_some,
      ← bare.name_eq made, String.ofList_toList]

/-- Names that end in a segment and not in the extension have the key of all their spellings, and two of them have one
key only if they are made of the same segments. -/
theorem spellings_share_key (unmarked : ∀ c ∈ e.toList, c ≠ '/' ∧ c ≠ '\\') (bare : IsBare e given)
    (made : ofName? e given = some k) :
    (∀ extended v, Spells e given.toList extended v → ofName? e (String.ofList v) = some k) ∧
      ∀ other q, IsBare e other → ofName? e other = some q →
        (k = q ↔ flatSegments given.toList = flatSegments other.toList) := by
  refine ⟨fun extended v spelled => spelled.ofName?_eq bare unmarked made, ?_⟩
  intro other q bare' made'
  constructor
  · intro same
    rw [← bare.segments_eq made, ← bare'.segments_eq made', same]
  · intro same
    have name_eq : k.name.toList = q.name.toList := by
      rw [bare.name_eq made, bare'.name_eq made', flat_eq_joined, flat_eq_joined, same]
    obtain ⟨name⟩ := k
    obtain ⟨name'⟩ := q
    rw [Key.mk.injEq]
    exact String.toList_inj.mp name_eq

theorem home_spellings_share_key :
    ofName? "html" "pages\\home" = some ⟨"pages/home"⟩ ∧
      Spells "html" "pages\\home".toList true ".//pages/./home.HTML".toList ∧
      ofName? "html" ".//pages/./home.HTML" = some ⟨"pages/home"⟩ := by
  have slash : IsSlash '/' := .inl rfl
  have bare : IsBare "html" "pages\\home" := by
    refine ⟨⟨["pages".toList], "home".toList, by decide +kernel, by decide +kernel⟩, ?_⟩
    intro stem suffix whole
    have dot : '.' ∈ flat "pages\\home".toList := by
      rw [whole]
      simp
    exact absurd dot (by decide +kernel)
  have turned : Spells "html" "pages\\home".toList false "pages/home".toList :=
    .respelled .plain (.slash "pages".toList "home".toList (.inr rfl) slash)
  have dotted : Spells "html" "pages\\home".toList false "pages/./home".toList :=
    .respelled turned (.idleInside "pages".toList "home".toList (.inr rfl) slash slash)
  have empty : Spells "html" "pages\\home".toList false "/pages/./home".toList :=
    .respelled dotted (.idleFirst _ (.inl rfl) slash)
  have behind : Spells "html" "pages\\home".toList true "/pages/./home.HTML".toList :=
    .extended empty (by decide +kernel)
  have spelled : Spells "html" "pages\\home".toList true ".//pages/./home.HTML".toList :=
    .respelled behind (.idleFirst _ (.inr rfl) slash)
  have made : ofName? "html" "pages\\home" = some ⟨"pages/home"⟩ := by decide +kernel
  have unmarked : ∀ c ∈ ['h', 't', 'm', 'l'], c ≠ '/' ∧ c ≠ '\\' := by simp
  exact ⟨made, spelled, (spellings_share_key (e := "html") unmarked bare made).1 true _ spelled⟩

end Pageweave.Key
