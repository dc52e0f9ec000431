import Pageweave.Proofs.FileTree.Walking
/-!
# The moves of a path

A step that stays asks for a directory, and so does any step behind it. So a path that ends in a name is followed by its
moves alone, the names and the ways up, and these can be read off its parts.
-/
namespace Pageweave.FileTree

open Text

variable {t : FileTree} {through : Bool} {links : Nat} {start p : Place} {ss rest : List Step}
  {jump : Place → List Step → Except FileFault Place}

/-- The steps that do not stay. -/
def moving (ss : List Step) : List Step := ss.filter (· ≠ .here)

@[simp] theorem moving_nil : moving [] = [] := rfl

@[simp] theorem moving_here (ss : List Step) : moving (.here :: ss) = moving ss := rfl

@[simp] theorem moving_up (ss : List Step) : moving (.up :: ss) = .up :: moving ss := rfl

@[simp] theorem moving_name (n : String) (ss : List Step) : moving (.name n :: ss) = .name n :: moving ss := rfl

@[simp] theorem moving_append (front back : List Step) : moving (front ++ back) = moving front ++ moving back :=
  List.filter_append ..

@[simp] theorem moving_names (ns : List String) : moving (ns.map .name) = ns.map .name := by
  simp [moving]

@[simp] theorem moving_moving (ss : List Step) : moving (moving ss) = moving ss := by
  simp [moving]

theorem walkBy_nil : t.walkBy through jump start [] = .ok start := by
  rw [walkBy.eq_def]

theorem walkBy_name_of (directory : t.get? start = some .directory) (n : String) (rest : List Step) :
    t.walkBy through jump start (.name n :: rest) =
      if longestName < n.utf8ByteSize then .error .nameTooLong
      else
        match t.get? (start ++ [n]) with
        | some (.link target) =>
          if rest.isEmpty && !through then .ok (start ++ [n])
          else jump (if Path.isAbsolute target.toList then [] else start) (steps target ++ rest)
        | some _ => t.walkBy through jump (start ++ [n]) rest
        | none => if rest.isEmpty then .ok (start ++ [n]) else .error .missing := by
  rw [walkBy.eq_def]
  by_cases long : longestName < n.utf8ByteSize
  · simp only [directory, if_pos long]
  · cases next : t.get? (start ++ [n]) with
    | none => simp only [directory, if_neg long, next]
    | some node => cases node <;> simp only [directory, if_neg long, next]

theorem walk_moving (links : Nat) (start : Place) (ss : List Step) (s : Step) :
    t.walk through links start (ss ++ [s]) = t.walk through links start (moving ss ++ [s]) := by
  -- Where a link is followed its own steps come in front, so the claim is needed for the links that are left.
  have by_jump (jump : Place → List Step → Except FileFault Place)
      (same : ∀ start ss, jump start (ss ++ [s]) = jump start (moving ss ++ [s])) (start : Place) (ss : List Step) :
      t.walkBy through jump start (ss ++ [s]) = t.walkBy through jump start (moving ss ++ [s]) := by
    induction ss generalizing start with
    | nil => rfl
    | cons x ss ih =>
      by_cases directory : t.get? start = some .directory
      · cases x with
        | here => rw [List.cons_append, walkBy_here directory, moving_here, ih]
        | up => rw [List.cons_append, walkBy_up directory, moving_up, List.cons_append, walkBy_up directory, ih]
        | name n =>
          have behind (target : String) (start : Place) :
              jump start (steps target ++ (ss ++ [s])) = jump start (steps target ++ (moving ss ++ [s])) := by
            rw [← List.append_assoc, same, ← List.append_assoc, same start (steps target ++ moving ss)]
            simp
          rw [List.cons_append, walkBy_name_of directory, moving_name, List.cons_append, walkBy_name_of directory]
          simp [behind, ih]
      · rw [walkBy_obstacle directory (by simp), walkBy_obstacle directory (by simp)]
  induction links generalizing start ss with
  | zero =>
    rw [walk_eq]
    exact by_jump _ (fun _ _ => rfl) start ss
  | succ links ih =>
    rw [walk_eq]
    exact by_jump _ (fun start ss => ih start ss) start ss

/-! ## Walks that come to an end -/

/-- The ways in which a walk comes to its end, step by step. -/
inductive Walks (t : FileTree) (through : Bool) : (links : Nat) → Place → List Step → Place → Prop where
  | stop {links : Nat} (p : Place) : Walks t through links p [] p
  | here {links : Nat} {start p : Place} {rest : List Step} (directory : t.get? start = some .directory)
      (ends : Walks t through links start rest p) : Walks t through links start (.here :: rest) p
  | up {links : Nat} {start p : Place} {rest : List Step} (directory : t.get? start = some .directory)
      (ends : Walks t through links start.dropLast rest p) : Walks t through links start (.up :: rest) p
  | vacant {links : Nat} {start : Place} {n : String} (directory : t.get? start = some .directory)
      (short : n.utf8ByteSize ≤ longestName) (there : t.get? (start ++ [n]) = none) :
      Walks t through links start [.name n] (start ++ [n])
  | pass {links : Nat} {start p : Place} {n : String} {rest : List Step} {node : Node}
      (directory : t.get? start = some .directory) (short : n.utf8ByteSize ≤ longestName)
      (there : t.get? (start ++ [n]) = some node) (no_link : ∀ target, node ≠ .link target)
      (ends : Walks t through links (start ++ [n]) rest p) : Walks t through links start (.name n :: rest) p
  | keep {links : Nat} {start : Place} {n target : String} (directory : t.get? start = some .directory)
      (short : n.utf8ByteSize ≤ longestName) (there : t.get? (start ++ [n]) = some (.link target))
      (kept : through = false) : Walks t through links start [.name n] (start ++ [n])
  | follow {links : Nat} {start p : Place} {n target : String} {rest : List Step}
      (directory : t.get? start = some .directory) (short : n.utf8ByteSize ≤ longestName)
      (there : t.get? (start ++ [n]) = some (.link target)) (followed : ¬(rest = [] ∧ through = false))
      (ends : Walks t through links (if Path.isAbsolute target.toList then [] else start) (steps target ++ rest) p) :
      Walks t through (links + 1) start (.name n :: rest) p

theorem Walks.walk (h : t.Walks through links start ss p) : t.walk through links start ss = .ok p := by
  induction h with
  | stop p => rw [walk_eq, walkBy_nil]
  | here directory ends ih => rwa [walk_eq, walkBy_here directory, ← walk_eq]
  | up directory ends ih => rwa [walk_eq, walkBy_up directory, ← walk_eq]
  | vacant directory short there =>
    rw [walk_eq, walkBy_name_of directory, if_neg (Nat.not_lt.mpr short), there]
    rfl
  | @pass _ _ _ _ _ node directory short there no_link ends ih =>
    rw [walk_eq, walkBy_name_of directory, if_neg (Nat.not_lt.mpr short), there]
    cases node with
    | file bytes => rwa [walk_eq] at ih
    | directory => rwa [walk_eq] at ih
    | link target => exact absurd rfl (no_link target)
  | keep directory short there kept =>
    rw [walk_eq, walkBy_name_of directory, if_neg (Nat.not_lt.mpr short), there, kept]
    rfl
  | @follow links _ _ _ _ rest directory short there followed ends ih =>
    have follows : ¬(rest.isEmpty && !through) = true := by simpa using followed
    rw [walk_eq, walkBy_name_of directory, if_neg (Nat.not_lt.mpr short), there]
    simp only [if_neg follows]
    exact ih

private theorem walks_of_walkBy {jump : Place → List Step → Except FileFault Place}
    (behind : ∀ start rest n target, t.get? start = some .directory → n.utf8ByteSize ≤ longestName →
      t.get? (start ++ [n]) = some (.link target) → ¬(rest = [] ∧ through = false) →
      jump (if Path.isAbsolute target.toList then [] else start) (steps target ++ rest) = .ok p →
      t.Walks through links start (.name n :: rest) p)
    (ends : t.walkBy through jump start ss = .ok p) : t.Walks through links start ss p := by
  induction ss generalizing start with
  | nil =>
    rw [walkBy_nil] at ends
    exact Except.ok.inj ends ▸ .stop start
  | cons s rest ih =>
    by_cases directory : t.get? start = some .directory
    · cases s with
      | here => exact .here directory (ih (walkBy_here directory ▸ ends))
      | up => exact .up directory (ih (walkBy_up directory ▸ ends))
      | name n =>
        rw [walkBy_name_of directory] at ends
        by_cases long : longestName < n.utf8ByteSize
        · rw [if_pos long] at ends
          cases ends
        rw [if_neg long] at ends
        have short : n.utf8ByteSize ≤ longestName := Nat.not_lt.mp long
        cases there : t.get? (start ++ [n]) with
        | none =>
          rw [there] at ends
          by_cases last : rest = []
          · subst last
            exact Except.ok.inj ends ▸ .vacant directory short there
          · simp [last] at ends
        | some node =>
          rw [there] at ends
          cases node with
          | file bytes => exact .pass directory short there nofun (ih ends)
          | directory => exact .pass directory short there nofun (ih ends)
          | link target =>
            by_cases kept : rest = [] ∧ through = false
            · obtain ⟨rfl, rfl⟩ := kept
              exact Except.ok.inj ends ▸ .keep directory short there rfl
            · have follows : ¬(rest.isEmpty && !through) = true := by simpa using kept
              simp only [if_neg follows] at ends
              exact behind start rest n target directory short there kept ends
    · rw [walkBy_obstacle directory (by simp)] at ends
      cases ends

theorem walk_eq_ok_iff : t.walk through links start ss = .ok p ↔ t.Walks through links start ss p := by
  refine ⟨fun ends => ?_, Walks.walk⟩
  induction links generalizing start ss with
  | zero =>
    rw [walk_eq] at ends
    refine walks_of_walkBy (fun _ _ _ _ _ _ _ _ fails => ?_) ends
    cases fails
  | succ links ih =>
    rw [walk_eq] at ends
    exact walks_of_walkBy (fun _ _ _ _ directory short there followed ends =>
      .follow directory short there followed (ih ends)) ends

theorem directory_of_walk_here (ends : t.walk through links start (ss ++ [.here]) = .ok p) :
    t.get? p = some .directory := by
  generalize all : ss ++ [.here] = steps at ends
  have walks := walk_eq_ok_iff.mp ends
  clear ends
  induction walks generalizing ss with
  | stop p => simp at all
  | here directory walks ih =>
    cases ss with
    | nil =>
      obtain rfl := (List.cons.inj all).2
      cases walks
      exact directory
    | cons s ss => exact ih (List.cons.inj all).2
  | up directory walks ih =>
    cases ss with
    | nil => simp at all
    | cons s ss => exact ih (List.cons.inj all).2
  | vacant directory short there =>
    cases ss with
    | nil => simp at all
    | cons s ss => simp at all
  | pass directory short there no_link walks ih =>
    cases ss with
    | nil => simp at all
    | cons s ss => exact ih (List.cons.inj all).2
  | keep directory short there kept =>
    cases ss with
    | nil => simp at all
    | cons s ss => simp at all
  | @follow _ _ _ _ target rest directory short there followed walks ih =>
    cases ss with
    | nil => simp at all
    | cons s ss =>
      have later : ss ++ [.here] = rest := (List.cons.inj all).2
      refine @ih (FileTree.steps target ++ ss) ?_
      rw [List.append_assoc, later]

/-! ## Paths -/

/-- The steps of a path that do not stay. -/
def moves (path : String) : List Step := moving (steps path)

/-- Where a path begins. -/
def beginning (t : FileTree) (path : String) : Place := if Path.isAbsolute path.toList then [] else t.base

/-- A path to what is no directory is followed by its moves. -/
theorem walk_of_place {path : String} (leads : t.place through path = .ok p) (other : t.get? p ≠ some .directory) :
    t.walk through mostLinks (t.beginning path) (moves path) = .ok p := by
  rw [place_eq] at leads
  cases refused : refusal? path with
  | some f => simp [refused] at leads
  | none =>
    rw [refused] at leads
    unfold moves
    rcases List.eq_nil_or_concat' (steps path) with nothing | ⟨ss, s, steps_eq⟩
    · rw [nothing] at leads ⊢
      exact leads
    · rw [steps_eq] at leads ⊢
      by_cases stays : s = .here
      · subst stays
        exact absurd (directory_of_walk_here leads) other
      · have moves_last : moving [s] = [s] := by simp [moving, stays]
        rw [moving_append, moves_last, ← walk_moving]
        exact leads

theorem steps_behind (root : String) {ns : List String} (all : ∀ n ∈ ns, Path.IsName n.toList) (some_name : ns ≠ []) :
    ∃ front, steps (Path.behind root ns) = front ++ ns.map .name ∧ moving front = moves root := by
  have ends := steps_names all some_name
  rw [Path.behind_eq root all]
  rcases Path.lead_cases root.toList with ⟨empty, leads⟩ | ⟨front, leads, slash | ⟨plain, -⟩⟩
  · have nothing : root = "" := by simpa using empty
    subst nothing
    refine ⟨[], ?_, by decide⟩
    rw [leads, List.nil_append, ends, List.nil_append]
  · have root_eq : root = String.ofList (front ++ '/' :: []) := by rw [← slash, String.ofList_toList]
    refine ⟨steps (String.ofList front), ?_, ?_⟩
    · rw [leads, List.append_assoc, List.singleton_append, steps_append, ends]
    · rw [moves, root_eq, steps_append, moving_append]
      exact (List.append_nil _).symm
  · refine ⟨steps root, ?_, rfl⟩
    rw [leads, List.append_assoc, List.singleton_append, steps_append, ends, ← plain, String.ofList_toList]

theorem isAbsolute_behind (root : String) {ns : List String} (all : ∀ n ∈ ns, Path.IsName n.toList) :
    Path.isAbsolute (Path.behind root ns).toList = Path.isAbsolute root.toList := by
  have names : ∀ s ∈ ns.map String.toList, Path.IsName s := by simpa using all
  rw [Path.behind_eq root all, String.toList_ofList]
  by_cases empty : root.toList = []
  · have nothing : Path.lead root.toList = [] := by simp [Path.lead, empty]
    rw [nothing, List.nil_append, empty, Path.isAbsolute_joined names]
    rfl
  · exact Path.isAbsolute_lead empty _

/-- Names behind a root are followed behind its moves. -/
theorem place_moves (t : FileTree) (through : Bool) (root : String) {ns : List String}
    (all : ∀ n ∈ ns, Path.IsName n.toList) (some_name : ns ≠ []) (open_ : refusal? (Path.behind root ns) = none) :
    t.place through (Path.behind root ns) =
      t.walk through mostLinks (t.beginning root) (moves root ++ ns.map .name) := by
  obtain ⟨front, steps_eq, moves_eq⟩ := steps_behind root all some_name
  obtain ⟨ms, m, rfl⟩ := (List.eq_nil_or_concat' ns).resolve_left some_name
  rw [place_eq, open_, steps_eq, isAbsolute_behind root all, List.map_append, ← List.append_assoc, ← List.append_assoc]
  simp only [List.map_cons, List.map_nil]
  rw [walk_moving, moving_append, moves_eq, moving_names]
  rfl

/-- The move that a part of a path stands for. -/
def moveOf? : Path.Part → Option Step
  | .root => none
  | .here => none
  | .up => some .up
  | .name s => some (.name (String.ofList s))

theorem moves_eq_filterMap (path : List Char) :
    moves (String.ofList path) = (pieces '/' path).filterMap fun s => (Path.Part.ofText? s).bind moveOf? := by
  rw [moves, steps, String.toList_ofList]
  induction pieces '/' path with
  | nil => rfl
  | cons s rest ih =>
    rw [List.map_cons]
    by_cases idle : s = [] ∨ s = ['.']
    · have none_there : Path.Part.ofText? s = none := by simp [Path.Part.ofText?, idle]
      simpa [idle, none_there] using ih
    · by_cases climbs : s = ['.', '.']
      · subst climbs
        simpa [Path.Part.ofText?, moveOf?] using ih
      · simpa [Path.Part.ofText?, moveOf?, idle, climbs] using ih

/-- The moves of a path are those of its parts. -/
theorem moves_eq_parts (path : List Char) : moves (String.ofList path) = (Path.parts path).filterMap moveOf? := by
  rw [moves_eq_filterMap]
  unfold Path.parts
  split
  · rename_i nothing
    exact absurd nothing (pieces_ne_nil '/' path)
  · rename_i first rest cut
    rw [cut, List.filterMap_append, List.filterMap_filterMap, ← List.singleton_append, List.filterMap_append]
    congr 1
    by_cases absolute : Path.isAbsolute path = true
    · have first_empty : first = [] := by
        obtain ⟨cs, rfl⟩ : ∃ cs, path = '/' :: cs := by
          unfold Path.isAbsolute at absolute
          split at absolute
          · exact ⟨_, rfl⟩
          · cases absolute
        simpa [pieces] using (List.cons.inj cut).1.symm
      simp [absolute, first_empty, Path.Part.ofText?, moveOf?]
    · by_cases dot : first = ['.']
      · simp [absolute, dot, Path.Part.ofText?, moveOf?]
      · rw [if_neg absolute, if_neg dot]
        cases read : Path.Part.ofText? first with
        | none => simp [read]
        | some p => simp [read, List.filterMap]

/-- A part that may be put behind others. -/
def IsInner (p : Path.Part) : Prop := p = .here ∨ ∃ s, '/' ∉ s ∧ Path.Part.ofText? s = some p

theorem parts_cases (path : List Char) :
    ∃ ps : List Path.Part, (∀ p ∈ ps, IsInner p) ∧
      (Path.isAbsolute path = true ∧ Path.parts path = .root :: ps ∨
        Path.isAbsolute path = false ∧ Path.parts path = ps) := by
  unfold Path.parts
  split
  · rename_i nothing
    exact absurd nothing (pieces_ne_nil '/' path)
  · rename_i first rest cut
    have no_slash : ∀ s ∈ first :: rest, '/' ∉ s := fun s piece => not_mem_of_mem_pieces (cut ▸ piece)
    have inner : ∀ p ∈ rest.filterMap Path.Part.ofText?, IsInner p := by
      intro p listed
      obtain ⟨s, piece, read⟩ := List.mem_filterMap.mp listed
      exact .inr ⟨s, no_slash s (List.mem_cons_of_mem first piece), read⟩
    by_cases absolute : Path.isAbsolute path = true
    · exact ⟨_, inner, .inl ⟨absolute, by simp [absolute]⟩⟩
    · refine ⟨_, ?_, .inr ⟨by simpa using absolute, rfl⟩⟩
      intro p listed
      rw [if_neg absolute] at listed
      rcases List.mem_append.mp listed with front | behind
      · split_ifs at front with dot
        · exact .inl (List.mem_singleton.mp front)
        · exact .inr ⟨first, no_slash first List.mem_cons_self, by simpa using front⟩
      · exact inner p behind

theorem IsInner.text {p : Path.Part} (inner : IsInner p) :
    p.text ≠ [] ∧ '/' ∉ p.text ∧ (Path.Part.ofText? p.text).bind moveOf? = moveOf? p := by
  rcases inner with rfl | ⟨s, no_slash, read⟩
  · exact ⟨by decide, by decide, rfl⟩
  · have same : p.text = s := by
      unfold Path.Part.ofText? at read
      split_ifs at read with idle climbs
      · obtain rfl := Option.some.inj read
        exact climbs.symm
      · obtain rfl := Option.some.inj read
        rfl
    refine ⟨?_, same ▸ no_slash, by rw [same, read]; rfl⟩
    rintro empty
    rw [← same, empty] at read
    cases read

theorem IsInner.relative {p : Path.Part} (inner : IsInner p) : Path.isAbsolute p.text = false := by
  obtain ⟨some_char, no_slash, -⟩ := inner.text
  obtain ⟨c, cs, text⟩ := List.exists_cons_of_ne_nil some_char
  have other : c ≠ '/' := by
    rintro rfl
    exact no_slash (text ▸ List.mem_cons_self)
  rw [text, Path.isAbsolute_cons]
  simpa using other

theorem isAbsolute_push (path : List Char) {p : Path.Part} (inner : IsInner p) :
    Path.isAbsolute (Path.push path p.text) = Path.isAbsolute path := by
  rw [Path.push_eq inner.relative]
  by_cases empty : path = []
  · subst empty
    exact inner.relative
  · exact Path.isAbsolute_lead empty _

theorem moves_push (path : List Char) {p : Path.Part} (inner : IsInner p) :
    moves (String.ofList (Path.push path p.text)) = moves (String.ofList path) ++ (moveOf? p).toList := by
  obtain ⟨-, no_slash, read⟩ := inner.text
  have one : pieces '/' p.text = [p.text] := pieces_of_not_mem no_slash
  have single : [p.text].filterMap (fun s => (Path.Part.ofText? s).bind moveOf?) = (moveOf? p).toList := by
    rw [List.filterMap_cons, read]
    cases moveOf? p <;> rfl
  rw [Path.push_eq inner.relative, moves_eq_filterMap, moves_eq_filterMap]
  rcases Path.lead_cases path with ⟨rfl, leads⟩ | ⟨front, leads, rfl | ⟨rfl, -⟩⟩
  · rw [leads, List.nil_append, one, single]
    rfl
  · rw [leads, List.append_assoc, List.singleton_append, pieces_append, pieces_append, one, List.filterMap_append,
      List.filterMap_append, single]
    congr 1
    exact (List.append_nil _).symm
  · rw [leads, List.append_assoc, List.singleton_append, pieces_append, one, List.filterMap_append, single]

theorem moves_ofPartList {path : String} {ps : List Path.Part} (front : ps <+: Path.parts path.toList) :
    moves (Path.ofPartList ps) = ps.filterMap moveOf? ∧
      (ps ≠ [] → Path.isAbsolute (Path.ofPartList ps).toList = Path.isAbsolute path.toList) := by
  have pushed (texts : List Char) (ps : List Path.Part) (inner : ∀ p ∈ ps, IsInner p) :
      moves (String.ofList ((ps.map Path.Part.text).foldl Path.push texts)) =
          moves (String.ofList texts) ++ ps.filterMap moveOf? ∧
        Path.isAbsolute ((ps.map Path.Part.text).foldl Path.push texts) = Path.isAbsolute texts := by
    induction ps generalizing texts with
    | nil => simp
    | cons p ps ih =>
      have first := inner p List.mem_cons_self
      have later : ∀ q ∈ ps, IsInner q := fun q listed => inner q (List.mem_cons_of_mem p listed)
      obtain ⟨moves_eq, absolute_eq⟩ := ih (Path.push texts p.text) later
      rw [List.map_cons, List.foldl_cons, moves_eq, absolute_eq, moves_push texts first, isAbsolute_push texts first]
      refine ⟨?_, rfl⟩
      rw [List.append_assoc, List.filterMap_cons]
      cases moveOf? p <;> rfl
  obtain ⟨inner_ps, inner, ⟨absolute, parts_eq⟩ | ⟨relative, parts_eq⟩⟩ := parts_cases path.toList
  · rw [parts_eq] at front
    cases ps with
    | nil => exact ⟨rfl, fun some_part => absurd rfl some_part⟩
    | cons p ps =>
      obtain ⟨rfl, later⟩ := List.cons_prefix_cons.mp front
      obtain ⟨moves_eq, absolute_eq⟩ := pushed ['/'] ps fun q listed => inner q (later.subset listed)
      refine ⟨?_, fun _ => ?_⟩
      · exact moves_eq
      · rw [absolute, Path.ofPartList, String.toList_ofList]
        exact absolute_eq
  · rw [parts_eq] at front
    obtain ⟨moves_eq, absolute_eq⟩ := pushed [] ps fun q listed => inner q (front.subset listed)
    refine ⟨moves_eq, fun _ => ?_⟩
    rw [relative, Path.ofPartList, String.toList_ofList]
    exact absolute_eq

end Pageweave.FileTree

namespace Pageweave.Path

open Text

private theorem joined_two {ps qs : List (List Char)} (some_front : ps ≠ []) (some_back : qs ≠ []) :
    joined '/' (ps ++ qs) = joined '/' ps ++ '/' :: joined '/' qs := by
  induction ps with
  | nil => exact absurd rfl some_front
  | cons p ps ih =>
    by_cases alone : ps = []
    · subst alone
      exact joined_cons '/' p some_back
    · rw [List.cons_append, joined_cons '/' p (by simp [alone]), joined_cons '/' p alone, ih alone, List.append_assoc,
        List.cons_append]

theorem pieces_lead (path : List Char) {names : List (List Char)} (all : ∀ s ∈ names, IsName s)
    (some_name : names ≠ []) :
    ∃ own, pieces '/' (lead path ++ joined '/' names) = own ++ names ∧
      ∀ more, more ≠ [] → lead path ++ joined '/' more = joined '/' (own ++ more) := by
  rcases lead_cases path with ⟨-, leads⟩ | ⟨front, leads, -⟩
  · refine ⟨[], ?_, fun more _ => ?_⟩
    · rw [leads, List.nil_append, pieces_names all some_name, List.nil_append]
    · rw [leads, List.nil_append, List.nil_append]
  · refine ⟨pieces '/' front, ?_, fun more some_more => ?_⟩
    · rw [leads, List.append_assoc, List.singleton_append, pieces_append, pieces_names all some_name]
    · rw [leads, List.append_assoc, List.singleton_append]
      conv_lhs => rw [← joined_pieces '/' front]
      exact (joined_two (pieces_ne_nil '/' front) some_more).symm

theorem parent_behind (root : String) {ns : List String} {n : String} (all : ∀ m ∈ ns ++ [n], IsName m.toList)
    (some_name : ns ≠ []) : parent (behind root (ns ++ [n])) = behind root ns := by
  have names : ∀ s ∈ (ns ++ [n]).map String.toList, IsName s := by
    intro s listed
    obtain ⟨m, there, rfl⟩ := List.mem_map.mp listed
    exact all m there
  have before : ∀ m ∈ ns, IsName m.toList := fun m listed => all m (List.mem_append_left _ listed)
  obtain ⟨own, pieces_eq, joined_eq⟩ := pieces_lead root.toList names (by simp)
  obtain ⟨ms, m, rfl⟩ := (List.eq_nil_or_concat' ns).resolve_left some_name
  have busy (k : String) (name : IsName k.toList) : isIdle k.toList = false := by
    simp [isIdle, name.1, name.2.1]
  have last := busy n (all n (by simp))
  have next := busy m (all m (by simp))
  have front := joined_eq ((ms ++ [m]).map String.toList) (by simp)
  rw [behind_eq root all, behind_eq root before, parent, String.toList_ofList, pieces_eq, front]
  simp [last, next]

end Pageweave.Path
