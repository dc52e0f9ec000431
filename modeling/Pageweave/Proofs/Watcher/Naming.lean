import Pageweave.Proofs.Key.Filing
import Pageweave.Proofs.Setup.Extension
import Pageweave.Store.Directory
import Pageweave.Watcher
/-!
# Keys that a watcher hands over

A file is read under a key and watched under its path. The path is named by the key again exactly if the extension has
neither a dot nor a slash of either kind in it and the key does not end in a slash: the extension of a path is what
follows its last dot, and in front of that dot something has to stand.
-/
namespace Pageweave.Watcher

open Text Key

variable {e given name root : String} {k : Key} {front : List (List Char)} {last : List Char}

theorem below_pathBelow (pieces : k.HasPieces front last) (contained : k.isContained = true) (fits : FitsName e)
    (root : String) :
    Path.below? (Path.parts root.toList) (Path.parts (Store.pathBelow root e k).toList) =
      some ((front ++ [last ++ '.' :: e.toList]).map .name) := by
  have all := pieces.isName contained fits
  apply Path.below?_eq_some_iff.mpr
  rw [Store.pathBelow, pieces.relativePath_eq contained fits, Path.join_names root all, String.toList_ofList,
    Path.parts_lead root.toList all (by simp)]

/-- A path has an extension only if the wanted one holds no dot and no slash. -/
theorem unmarked_of_hasExtension {path : String} {ps : List Path.Part}
    (below : Path.below? (Path.parts root.toList) (Path.parts path.toList) = some ps)
    (has : Path.hasExtension e.toList ps = true) : '.' ∉ e.toList ∧ '/' ∉ e.toList := by
  obtain ⟨stem, found, -, named, no_dot, same⟩ := hasExtension_iff.mp has
  have part : .name (stem ++ '.' :: found) ∈ Path.parts path.toList := by
    rw [Path.below?_eq_some_iff.mp below]
    exact List.mem_append_right _ (Path.mem_of_fileName? named)
  have no_slash : '/' ∉ stem ++ '.' :: found := (Path.isName_of_mem_parts part).2.2.2
  constructor
  · rwa [← mem_of_sameLetters (.inl rfl) same]
  · rw [← mem_of_sameLetters (.inr (.inl rfl)) same]
    intro there
    exact no_slash (by simp [there])

theorem ne_nil_of_hasExtension {names : List (List Char)} (no_dot : '.' ∉ e.toList)
    (has : Path.hasExtension e.toList ((names ++ [last ++ '.' :: e.toList]).map .name) = true) : last ≠ [] := by
  obtain ⟨stem, found, some_char, named, -, -⟩ := hasExtension_iff.mp has
  rintro rfl
  rw [List.map_append, List.map_singleton, Path.fileName?_append, List.nil_append] at named
  obtain ⟨c, stem, rfl⟩ := List.exists_cons_of_ne_nil some_char
  have same : e.toList = stem ++ '.' :: found := by simpa using (List.cons.inj (Option.some.inj named)).2
  exact no_dot (by simp [same])

/-- The path of a key's file is read back as the key exactly if nothing in the extension or behind the key is cut. -/
theorem ofPathBelow_iff (accepted : Setup.Accepts e) (made : Key.ofName? given name = some k)
    (contained : k.isContained = true) (root : String) :
    Key.ofPathBelow e root (Store.pathBelow root e k) = .key k ↔
      IsUnmarked e ∧ k.name.toList.getLast? ≠ some '/' := by
  obtain ⟨front, last, pieces⟩ := hasPieces_of_ofName? made
  obtain ⟨some_ext, no_dot⟩ := Setup.accepts_iff.mp accepted
  have some_char : e.toList ≠ [] := by simpa using some_ext
  have some_name : k.name ≠ "" := by
    intro empty
    simp [isContained, empty] at contained
  rw [ne_eq, pieces.getLast?_eq_slash_iff some_name]
  constructor
  · intro read
    unfold ofPathBelow at read
    cases below : Path.below? (Path.parts root.toList) (Path.parts (Store.pathBelow root e k).toList) with
    | none => simp [below] at read
    | some ps =>
      rw [below] at read
      have has := hasExtension_of_ofParts read
      obtain ⟨no_dots, no_slash⟩ := unmarked_of_hasExtension below has
      have fits : FitsName e := ⟨some_char, no_dot, no_slash⟩
      obtain rfl := Option.some.inj (below.symm.trans (below_pathBelow pieces contained fits root))
      have some_last := ne_nil_of_hasExtension no_dots has
      have no_backslash := no_backslash_of_ofName? pieces some_last no_slash (ofParts_names_iff.mp read).2
      refine ⟨fun c there => ⟨?_, ?_, ?_⟩, some_last⟩
      · rintro rfl
        exact no_dots there
      · rintro rfl
        exact no_slash there
      · rintro rfl
        exact no_backslash there
  · rintro ⟨unmarked, some_last⟩
    have fits : FitsName e := ⟨some_char, no_dot, fun there => (unmarked '/' there).2.1 rfl⟩
    have same : (⟨String.ofList (joined '/' (front ++ [last]))⟩ : Key) = k := by
      rw [← pieces.name_eq, String.ofList_toList]
    rw [ofPathBelow, below_pathBelow pieces contained fits root]
    simp only
    rw [ofParts_of_isUnmarked unmarked pieces.isSegment some_last pieces.no_slash pieces.no_backslash, same]

theorem sees_of_paths {event : FileEvent} {path : String} (paths : event.paths = [path]) :
    (Watcher.mk root e true).sees event = (Key.ofPathBelow e root path).key?.toList := by
  unfold sees keysOf
  rw [paths]
  cases read : (Key.ofPathBelow e root path).key? with
  | none => simp [read, sorted]
  | some q => simp [read, sorted, insertSorted]

/-- What happens to a key's file alone is handed over as exactly that key, under the same condition. -/
theorem sees_file_iff (accepted : Setup.Accepts e) (made : Key.ofName? given name = some k)
    (contained : k.isContained = true) (root : String) :
    (Key.ofPathBelow e root (Store.pathBelow root e k) = .key k ↔
      IsUnmarked e ∧ k.name.toList.getLast? ≠ some '/') ∧
    ∀ event : FileEvent, event.paths = [Store.pathBelow root e k] →
      ((Watcher.mk root e true).sees event = [k] ↔ IsUnmarked e ∧ k.name.toList.getLast? ≠ some '/') := by
  have named := ofPathBelow_iff accepted made contained root
  refine ⟨named, fun event paths => ?_⟩
  rw [sees_of_paths paths, ← named]
  cases Key.ofPathBelow e root (Store.pathBelow root e k) with
  | keyless => simp [OfPath.key?]
  | key q => simp [OfPath.key?]
  | malformed => simp [OfPath.key?]

theorem home_page_sees_file :
    Setup.Accepts "html" ∧ Key.ofName? "html" "pages/home.html" = some ⟨"pages/home"⟩ ∧
      (⟨"pages/home"⟩ : Key).isContained = true ∧
      (Watcher.mk "Templates" "html" true).sees (.changed (Store.pathBelow "Templates" "html" ⟨"pages/home"⟩)) =
        [⟨"pages/home"⟩] := by
  have accepted : Setup.Accepts "html" := Setup.accepts_iff.mpr (by decide)
  have made : Key.ofName? "html" "pages/home.html" = some ⟨"pages/home"⟩ := by decide +kernel
  have contained : (⟨"pages/home"⟩ : Key).isContained = true := by decide +kernel
  have seen := (sees_file_iff accepted made contained "Templates").2 (.changed _) rfl
  exact ⟨accepted, made, contained, seen.mpr (by decide +kernel)⟩

/-- With a dot in the extension a template is read from its file, and nothing is handed over when the file changes; nor
is the file of a key that ends in a slash. -/
theorem dotted_extension_sees_nothing :
    Setup.Accepts "html.tera" ∧ Key.ofName? "html.tera" "a" = some ⟨"a"⟩ ∧ (⟨"a"⟩ : Key).isContained = true ∧
      Store.pathBelow "Templates" "html.tera" ⟨"a"⟩ = "Templates/a.html.tera" ∧
      Key.ofPathBelow "html.tera" "Templates" "Templates/a.html.tera" = .keyless ∧
      (Watcher.mk "Templates" "html.tera" true).sees (.changed "Templates/a.html.tera") = [] ∧
    Key.ofName? "html" "a/.html" = some ⟨"a/"⟩ ∧ (⟨"a/"⟩ : Key).isContained = true ∧
      Key.ofPathBelow "html" "Templates" (Store.pathBelow "Templates" "html" ⟨"a/"⟩) = .keyless := by
  refine ⟨Setup.accepts_iff.mpr (by decide), ?_⟩
  decide +kernel

end Pageweave.Watcher
