import Mathlib.Data.List.Basic
import Mathlib.Data.List.TakeWhile
import Mathlib.Tactic.SplitIfs
import Pageweave.Path
import Pageweave.Proofs.Text.Pieces
/-!
# Names behind a path

A name is what a path counts as one part. Names put behind a path become the parts behind its parts, whether or not the
path ends in a slash. The extension of a name is what follows its last dot, with something in front of that dot.
-/
namespace Pageweave.Path

open Text

variable {path part s : List Char} {names : List (List Char)} {ps : List Part}

/-- One part of a path that is neither the directory itself nor the one above. -/
def IsName (s : List Char) : Prop := s ≠ [] ∧ s ≠ ['.'] ∧ s ≠ ['.', '.'] ∧ '/' ∉ s

instance (s : List Char) : Decidable (IsName s) := inferInstanceAs (Decidable (_ ∧ _))

/-- What stands in front of a name that is put behind a path. -/
def lead (path : List Char) : List Char :=
  match path.getLast? with
  | none => []
  | some c => if c = '/' then path else path ++ ['/']

theorem IsName.ofText? (h : IsName s) : Part.ofText? s = some (.name s) := by
  obtain ⟨some_char, no_dot, no_dots, -⟩ := h
  simp [Part.ofText?, some_char, no_dot, no_dots]

theorem isAbsolute_cons (c : Char) (cs : List Char) : isAbsolute (c :: cs) = (c == '/') := by
  by_cases slash : c = '/'
  · subst slash
    rfl
  · simp [isAbsolute, slash]

theorem isAbsolute_append (some_char : s ≠ []) (more : List Char) : isAbsolute (s ++ more) = isAbsolute s := by
  obtain ⟨c, cs, rfl⟩ := List.exists_cons_of_ne_nil some_char
  rw [List.cons_append, isAbsolute_cons, isAbsolute_cons]

theorem IsName.relative (h : IsName s) : isAbsolute s = false := by
  obtain ⟨c, cs, rfl⟩ := List.exists_cons_of_ne_nil h.1
  have other : c ≠ '/' := by
    rintro rfl
    exact h.2.2.2 List.mem_cons_self
  simp [isAbsolute_cons, other]

theorem push_eq (relative : isAbsolute part = false) : push path part = lead path ++ part := by
  unfold push lead
  rw [relative]
  simp only [Bool.false_eq_true, if_false]
  cases path.getLast? with
  | none => rfl
  | some c =>
    by_cases slash : c = '/'
    · simp [slash]
    · simp [slash]

theorem lead_cases (path : List Char) :
    path = [] ∧ lead path = [] ∨
      ∃ front, lead path = front ++ ['/'] ∧ (path = front ++ ['/'] ∨ path = front ∧ path ≠ []) := by
  rcases List.eq_nil_or_concat' path with rfl | ⟨front, c, rfl⟩
  · exact .inl ⟨rfl, rfl⟩
  · right
    by_cases slash : c = '/'
    · subst slash
      exact ⟨front, by simp [lead], .inl rfl⟩
    · exact ⟨front ++ [c], by simp [lead, slash], .inr ⟨rfl, by simp⟩⟩

theorem isAbsolute_lead (some_char : path ≠ []) (part : List Char) : isAbsolute (lead path ++ part) = isAbsolute path := by
  rcases lead_cases path with ⟨nothing, -⟩ | ⟨front, leads, same | ⟨same, -⟩⟩
  · exact absurd nothing some_char
  · rw [leads, ← same, isAbsolute_append some_char]
  · rw [leads, ← same, List.append_assoc, isAbsolute_append some_char]

theorem isAbsolute_joined (all : ∀ s ∈ names, IsName s) : isAbsolute (joined '/' names) = false := by
  cases names with
  | nil => rfl
  | cons s rest =>
    have first : IsName s := all s List.mem_cons_self
    by_cases alone : rest = []
    · subst alone
      exact first.relative
    · rw [joined_cons '/' s alone, isAbsolute_append first.1]
      exact first.relative

theorem pieces_names (all : ∀ s ∈ names, IsName s) (some_name : names ≠ []) :
    pieces '/' (joined '/' names) = names :=
  pieces_joined (fun s listed => (all s listed).2.2.2) some_name

private theorem foldl_push (all : ∀ s ∈ names, IsName s) (some_name : names ≠ []) (path : List Char) :
    names.foldl push path = lead path ++ joined '/' names := by
  induction names generalizing path with
  | nil => exact absurd rfl some_name
  | cons s rest ih =>
    have first : IsName s := all s List.mem_cons_self
    rw [List.foldl_cons, push_eq first.relative]
    by_cases alone : rest = []
    · subst alone
      rfl
    rw [ih (fun q listed => all q (List.mem_cons_of_mem s listed)) alone, joined_cons '/' s alone]
    obtain ⟨front, c, rfl⟩ := (List.eq_nil_or_concat' s).resolve_left first.1
    have other : c ≠ '/' := by
      rintro rfl
      exact first.2.2.2 (by simp)
    have leads : lead (lead path ++ (front ++ [c])) = lead path ++ (front ++ [c]) ++ ['/'] := by
      unfold lead
      rw [← List.append_assoc]
      simp [other]
    rw [leads]
    simp

theorem ofParts_eq (all : ∀ s ∈ names, IsName s) (some_name : names ≠ []) : ofParts names = joined '/' names :=
  foldl_push all some_name []

theorem join_names (root : String) (all : ∀ s ∈ names, IsName s) :
    join root (String.ofList (joined '/' names)) = String.ofList (lead root.toList ++ joined '/' names) := by
  unfold join
  rw [String.toList_ofList, push_eq (isAbsolute_joined all)]

/-- The path of names behind a root. -/
def behind (root : String) (ns : List String) : String :=
  join root (String.ofList (joined '/' (ns.map String.toList)))

theorem behind_eq (root : String) {ns : List String} (all : ∀ n ∈ ns, IsName n.toList) :
    behind root ns = String.ofList (lead root.toList ++ joined '/' (ns.map String.toList)) := by
  apply join_names
  simpa using all

theorem filterMap_names (all : ∀ s ∈ names, IsName s) : names.filterMap Part.ofText? = names.map .name := by
  induction names with
  | nil => rfl
  | cons s rest ih =>
    have first : Part.ofText? s = some (.name s) := (all s List.mem_cons_self).ofText?
    rw [List.filterMap_cons_some first, ih fun q listed => all q (List.mem_cons_of_mem s listed), List.map_cons]

private theorem parts_append (front back : List Char) :
    parts (front ++ '/' :: back) = parts (front ++ ['/']) ++ (pieces '/' back).filterMap Part.ofText? := by
  obtain ⟨first, rest, cut⟩ := List.exists_cons_of_ne_nil (pieces_ne_nil '/' front)
  have same : isAbsolute (front ++ '/' :: back) = isAbsolute (front ++ ['/']) := by
    have once : front ++ '/' :: back = front ++ ['/'] ++ back := by simp
    rw [once, isAbsolute_append (by simp)]
  have whole : pieces '/' (front ++ '/' :: back) = first :: (rest ++ pieces '/' back) := by
    rw [pieces_append, cut, List.cons_append]
  have short : pieces '/' (front ++ ['/']) = first :: (rest ++ [[]]) := by
    rw [pieces_append, cut, List.cons_append]
    rfl
  have nothing : Part.ofText? [] = none := rfl
  simp [parts, whole, short, same, nothing]

private theorem parts_slash (some_char : path ≠ []) : parts (path ++ ['/']) = parts path := by
  obtain ⟨first, rest, cut⟩ := List.exists_cons_of_ne_nil (pieces_ne_nil '/' path)
  have same : isAbsolute (path ++ ['/']) = isAbsolute path := isAbsolute_append some_char _
  have short : pieces '/' (path ++ ['/']) = first :: (rest ++ [[]]) := by
    rw [pieces_append, cut, List.cons_append]
    rfl
  have nothing : Part.ofText? [] = none := rfl
  simp [parts, short, cut, same, nothing]

/-- Names behind a path are the parts behind its parts. -/
theorem parts_lead (path : List Char) (all : ∀ s ∈ names, IsName s) (some_name : names ≠ []) :
    parts (lead path ++ joined '/' names) = parts path ++ names.map .name := by
  rcases lead_cases path with ⟨rfl, leads⟩ | ⟨front, leads, ends⟩
  · obtain ⟨s, rest, rfl⟩ := List.exists_cons_of_ne_nil some_name
    have relative : isAbsolute (joined '/' (s :: rest)) = false := isAbsolute_joined all
    have first : IsName s := all s List.mem_cons_self
    have others := filterMap_names fun q listed => all q (List.mem_cons_of_mem s listed)
    have nothing : parts [] = [] := rfl
    rw [leads, List.nil_append, nothing, List.nil_append, parts, pieces_names all some_name]
    simp [relative, first.2.1, first.ofText?, others]
  · have behind : parts (lead path ++ joined '/' names) = parts (front ++ ['/']) ++ names.map .name := by
      rw [leads, List.append_assoc, List.singleton_append, parts_append, pieces_names all some_name,
        filterMap_names all]
    rw [behind]
    rcases ends with rfl | ⟨rfl, some_char⟩
    · rfl
    · rw [parts_slash some_char]

theorem below?_eq_some_iff {front rest : List Part} : below? front ps = some rest ↔ ps = front ++ rest := by
  induction front generalizing ps with
  | nil => simp [below?]
  | cons p front ih =>
    cases ps with
    | nil => simp [below?]
    | cons q ps =>
      by_cases same : p = q
      · simp [below?, same, ih]
      · simp [below?, same, Ne.symm same]

theorem isName_of_ofText? {piece : List Char} (read : Part.ofText? piece = some (.name s)) (no_slash : '/' ∉ piece) :
    IsName s := by
  unfold Part.ofText? at read
  split_ifs at read with idle up
  · cases read
  · obtain rfl : piece = s := by simpa using read
    obtain ⟨some_char, no_dot⟩ : piece ≠ [] ∧ piece ≠ ['.'] := by simpa using idle
    exact ⟨some_char, no_dot, up, no_slash⟩

theorem isName_of_mem_parts (listed : .name s ∈ parts path) : IsName s := by
  have from_piece {piece : List Char} (cut : piece ∈ pieces '/' path) (read : Part.ofText? piece = some (.name s)) :
      IsName s := isName_of_ofText? read (not_mem_of_mem_pieces cut)
  unfold parts at listed
  split at listed
  · exact absurd listed List.not_mem_nil
  · rename_i first rest cut
    rw [cut] at from_piece
    rcases List.mem_append.mp listed with front | behind
    · split_ifs at front
      · simp at front
      · simp at front
      · exact from_piece List.mem_cons_self (by simpa using front)
    · obtain ⟨piece, later, read⟩ := List.mem_filterMap.mp behind
      exact from_piece (List.mem_cons_of_mem first later) read

theorem extension?_eq_some_iff {found : List Char} :
    extension? s = some found ↔ ∃ stem, stem ≠ [] ∧ s = stem ++ '.' :: found ∧ '.' ∉ found := by
  unfold extension?
  constructor
  · intro has
    simp only at has
    split at has
    · rename_i room
      obtain rfl : _ = found := by simpa using has
      have whole := List.takeWhile_append_dropWhile (p := fun c : Char => decide (c ≠ '.')) (l := s.reverse)
      generalize tail : s.reverse.dropWhile (fun c : Char => decide (c ≠ '.')) = rest at whole
      have inside : ∀ c ∈ s.reverse.takeWhile (fun c : Char => decide (c ≠ '.')), c ≠ '.' := by
        intro c hc
        simpa using List.mem_takeWhile_imp hc
      cases rest with
      | nil =>
        have same := congrArg List.length whole
        simp only [List.append_nil, List.length_reverse] at same
        omega
      | cons d more =>
        have dot : d = '.' := by
          have head := List.head?_dropWhile_not (fun c : Char => decide (c ≠ '.')) s.reverse
          rw [tail] at head
          simpa using head
        refine ⟨more.reverse, ?_, ?_, ?_⟩
        · rintro nothing
          have empty : more = [] := by simpa using nothing
          have same := congrArg List.length whole
          simp only [empty, List.length_append, List.length_singleton, List.length_reverse] at same
          omega
        · have back := congrArg List.reverse whole
          simpa [dot] using back.symm
        · simpa using fun there => inside '.' there rfl
    · cases has
  · rintro ⟨stem, some_char, rfl, absent⟩
    have all : ∀ c ∈ found.reverse, decide (c ≠ '.') = true := by
      intro c hc
      have there : c ∈ found := by simpa using hc
      have other : c ≠ '.' := fun same => absent (same ▸ there)
      simpa using other
    have taken : (stem ++ '.' :: found).reverse.takeWhile (fun c : Char => decide (c ≠ '.')) = found.reverse := by
      rw [List.reverse_append, List.reverse_cons, List.append_assoc, List.takeWhile_append_of_pos all]
      simp
    have long : 0 < stem.length := List.length_pos_iff.mpr some_char
    simp only [taken]
    rw [if_pos (by simp; omega), List.reverse_reverse]

theorem fileName?_append (ps : List Part) (s : List Char) : fileName? (ps ++ [.name s]) = some s := by
  simp [fileName?]

theorem fileName?_eq_some_iff : fileName? ps = some s ↔ ∃ before, ps = before ++ [.name s] := by
  rw [← List.getLast?_eq_some_iff]
  unfold fileName?
  split
  · rename_i t last
    rw [last]
    simp
  · rename_i other
    simpa using other s

theorem mem_of_fileName? (last : fileName? ps = some s) : .name s ∈ ps := by
  obtain ⟨before, rfl⟩ := fileName?_eq_some_iff.mp last
  simp

end Pageweave.Path
