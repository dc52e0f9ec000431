import Pageweave.Proofs.Store.Containment
/-!
# What is read from a directory

A key is read if the names of its file lead to a file, unless reading fails with more than that the file is missing. It
does not if the names are short, no file stands in their way, and the file holds text.
-/
namespace Pageweave

open Text

variable {e given name root : String} {k : Key} {front : List (List Char)} {last : List Char}
  {files : FileTree} {p : Place} {r : Option String} {ns : List String}

namespace FileTree

theorem ne_missing_of_refusal? {path : String} {f : FileFault} (refused : refusal? path = some f)
    (some_char : path ≠ "") : f ≠ .missing := by
  unfold refusal? at refused
  split_ifs at refused
  · rintro rfl
    cases refused
  · rintro rfl
    cases refused

theorem behind_ne_empty (all : ∀ n ∈ ns, Path.IsName n.toList) (some_name : ns ≠ []) : Path.behind root ns ≠ "" := by
  rw [Path.behind_eq root all]
  obtain ⟨n, rest, rfl⟩ := List.exists_cons_of_ne_nil some_name
  obtain ⟨c, cs, chars⟩ := List.exists_cons_of_ne_nil (all n List.mem_cons_self).1
  have there : c ∈ joined '/' ((n :: rest).map String.toList) :=
    mem_joined (p := n.toList) (by simp) (chars ▸ List.mem_cons_self)
  intro empty
  have nothing := congrArg String.toList empty
  rw [String.toList_ofList] at nothing
  have held : c ∈ Path.lead root.toList ++ joined '/' ((n :: rest).map String.toList) :=
    List.mem_append_right _ there
  rw [nothing] at held
  exact List.not_mem_nil held

/-- A path of names behind a root is refused, fails where the root fails, or is followed from there. -/
theorem place_behind (files : FileTree) (some_root : root ≠ "") (all : ∀ n ∈ ns, Path.IsName n.toList)
    (some_name : ns ≠ []) :
    (∃ f, files.place true (Path.behind root ns) = .error f ∧ f ≠ .missing) ∨
      (∃ f, files.place true root = .error f ∧ files.place true (Path.behind root ns) = .error f) ∨
      ∃ p links, files.place true root = .ok p ∧
        files.place true (Path.behind root ns) = files.walk true links p (ns.map .name) := by
  have own : rootPath root = root := if_neg some_root
  cases refused : refusal? (Path.behind root ns) with
  | some f =>
    left
    rw [place_eq, refused]
    exact ⟨f, rfl, ne_missing_of_refusal? refused (behind_ne_empty all some_name)⟩
  | none =>
    have goes := files.place_join root all some_name refused
    rw [own] at goes
    exact .inr goes

theorem hasFile_of_node (some_root : root ≠ "") (all : ∀ n ∈ ns, Path.IsName n.toList) (some_name : ns ≠ [])
    (leads : files.place true root = .ok p) (free : files.LinkFreeBelow p) {bytes : ByteArray}
    (reached : files.node true (Path.behind root ns) = .ok (.file bytes)) : files.HasFile p ns := by
  rw [FileTree.node_eq] at reached
  rcases files.place_behind some_root all some_name with ⟨f, fails, -⟩ | ⟨f, fails, -⟩ | ⟨q, links, same, goes⟩
  · simp [fails] at reached
  · rw [leads] at fails
    cases fails
  · obtain rfl : p = q := Except.ok.inj (leads.symm.trans same)
    rw [goes] at reached
    cases ends : files.walk true links p (ns.map .name) with
    | error f => simp [ends] at reached
    | ok place =>
      cases there : files.get? place with
      | none => simp [ends, there] at reached
      | some node =>
        obtain rfl : node = .file bytes := by simpa [ends, there] using reached
        exact (walk_names_eq_ok free ends).2 ⟨bytes, there⟩

theorem HasFile.node (file : files.HasFile p ns) (some_root : root ≠ "") (all : ∀ n ∈ ns, Path.IsName n.toList)
    (some_name : ns ≠ []) (leads : files.place true root = .ok p) :
    (∃ bytes, files.node true (Path.behind root ns) = .ok (.file bytes)) ∨
      ∃ f, files.node true (Path.behind root ns) = .error f ∧ f ≠ .missing := by
  have node_eq := FileTree.node_eq files (Path.behind root ns)
  rcases files.place_behind some_root all some_name with ⟨f, fails, other⟩ | ⟨f, fails, -⟩ | ⟨q, links, same, goes⟩
  · rw [fails] at node_eq
    exact .inr ⟨f, node_eq, other⟩
  · rw [leads] at fails
    cases fails
  · obtain rfl : p = q := Except.ok.inj (leads.symm.trans same)
    obtain ⟨bytes, there⟩ := file.get?
    rcases file.walk links with ends | long
    · rw [goes, ends] at node_eq
      simp only [there] at node_eq
      exact .inl ⟨bytes, node_eq⟩
    · rw [goes, long] at node_eq
      exact .inr ⟨.nameTooLong, node_eq, nofun⟩

theorem node_of_no_directory (some_root : root ≠ "") (all : ∀ n ∈ ns, Path.IsName n.toList) (some_name : ns ≠ [])
    (nothing : ∀ p, files.place true root = .ok p → files.get? p ≠ some .directory) :
    ∃ f, files.node true (Path.behind root ns) = .error f := by
  rw [FileTree.node_eq]
  rcases files.place_behind some_root all some_name with ⟨f, fails, -⟩ | ⟨f, -, fails⟩ | ⟨p, links, leads, goes⟩
  · exact ⟨f, by rw [fails]⟩
  · exact ⟨f, by rw [fails]⟩
  · refine ⟨files.obstacle p, ?_⟩
    rw [goes, walk_eq, walkBy_obstacle (nothing p leads) (by simpa using some_name)]

end FileTree

namespace Store

/-- What is read, when reading does not fail. -/
theorem readBelow_eq_ok (contained : k.isContained = true) (reading : readBelow files root e k = .ok r) :
    (r.isSome = true ↔ ∃ bytes, files.node true (pathBelow root e k) = .ok (.file bytes)) ∧
      ∀ f, files.node true (pathBelow root e k) = .error f → f = .missing := by
  simp only [readBelow, contained, if_true] at reading
  cases reached : files.node true (pathBelow root e k) with
  | error f =>
    rw [reached] at reading
    by_cases missing : f = .missing
    · subst missing
      obtain rfl : none = r := Except.ok.inj reading
      simp
    · cases f <;> simp_all
  | ok node =>
    rw [reached] at reading
    cases node with
    | file bytes =>
      simp only at reading
      cases decoded : FileTree.decode bytes with
      | error f => simp [decoded] at reading
      | ok text =>
        obtain rfl : some text = r := by simpa [decoded] using reading
        simp
    | directory =>
      obtain rfl : none = r := Except.ok.inj reading
      simp
    | link target =>
      obtain rfl : none = r := Except.ok.inj reading
      simp

theorem contained_of_isSome (reading : readBelow files root e k = .ok r) (there : r.isSome = true) :
    k.isContained = true := by
  by_contra outside
  rw [readBelow_of_not_contained (by simpa using outside)] at reading
  obtain rfl : none = r := Except.ok.inj reading
  cases there

/-- A key is read if the names of its file lead to a file. -/
theorem isSome_read_iff (pieces : k.HasPieces front last) (contained : k.isContained = true) (fits : Key.FitsName e)
    (some_root : root ≠ "") (leads : files.place true root = .ok p) (free : files.LinkFreeBelow p)
    (reading : readBelow files root e k = .ok r) : r.isSome = true ↔ files.HasFile p (Key.fileNames front last e) := by
  obtain ⟨some_text, fails⟩ := readBelow_eq_ok contained reading
  have all := pieces.isName_fileNames contained fits
  rw [pieces.pathBelow_eq contained fits root] at some_text fails
  rw [some_text]
  constructor
  · rintro ⟨bytes, reached⟩
    exact FileTree.hasFile_of_node some_root all Key.fileNames_ne_nil leads free reached
  · intro file
    rcases file.node some_root all Key.fileNames_ne_nil leads with reached | ⟨f, reached, other⟩
    · exact reached
    · exact absurd (fails f reached) other

end Store

/-- The names that lead to a key's file. -/
def Key.pathNames (k : Key) (e : String) : List String := (pieces '/' (k.fileName e).toList).map String.ofList

theorem Key.HasPieces.pathNames_eq (h : k.HasPieces front last) (contained : k.isContained = true)
    (fits : Key.FitsName e) : k.pathNames e = Key.fileNames front last e := by
  have all := h.isName contained fits
  rw [Key.pathNames, Key.toList_fileName, h.name_eq, joined_append, Path.pieces_names all (by simp), Key.fileNames]

namespace Store

/-- Nothing but absence keeps a key from being read below a root. -/
structure ReadableBelow (files : FileTree) (root e : String) (k : Key) : Prop where
  open_path : FileTree.refusal? (pathBelow root e k) = none
  open_root : ∀ f, files.place true root = .error f → f = .missing
  passable : ∀ p, files.place true root = .ok p → files.PassableBelow p (k.pathNames e)
  text : ∀ p bytes, files.place true root = .ok p → files.get? (p ++ k.pathNames e) = some (.file bytes) →
    ∃ text, FileTree.decode bytes = .ok text

theorem readBelow_of_missing (reached : files.node true (pathBelow root e k) = .error .missing) :
    readBelow files root e k = .ok none := by
  unfold readBelow
  simp only [reached, ite_self]

theorem ReadableBelow.readBelow (readable : ReadableBelow files root e k) (made : Key.ofName? given name = some k)
    (fits : Key.FitsName e) (some_root : root ≠ "")
    (free : ∀ p, files.place true root = .ok p → files.LinkFreeBelow p) : ∃ r, readBelow files root e k = .ok r := by
  cases contained : k.isContained with
  | false => exact ⟨none, readBelow_of_not_contained contained files root e⟩
  | true =>
    obtain ⟨front, last, pieces⟩ := Key.hasPieces_of_ofName? made
    obtain ⟨open_path, open_root, passable, text⟩ := readable
    have all := pieces.isName_fileNames contained fits
    have node_eq := FileTree.node_eq files (pathBelow root e k)
    have own : FileTree.rootPath root = root := if_neg some_root
    rw [pieces.pathNames_eq contained fits] at passable text
    rw [pieces.pathBelow_eq contained fits root] at open_path
    have goes := files.place_join root all Key.fileNames_ne_nil open_path
    rw [own, ← pieces.pathBelow_eq contained fits root] at goes
    rcases goes with ⟨f, fails, same⟩ | ⟨p, links, leads, same⟩
    · rw [same, open_root f fails] at node_eq
      exact ⟨none, readBelow_of_missing node_eq⟩
    · rw [same] at node_eq
      rcases (passable p leads).walk (free p leads) links with ends | ends
      · rw [ends] at node_eq
        simp only at node_eq
        unfold Store.readBelow
        simp only [contained, if_true, node_eq]
        cases there : files.get? (p ++ Key.fileNames front last e) with
        | none => exact ⟨none, rfl⟩
        | some node =>
          cases node with
          | directory => exact ⟨none, rfl⟩
          | link target => exact ⟨none, rfl⟩
          | file bytes =>
            obtain ⟨s, decoded⟩ := text p bytes leads there
            exact ⟨some s, by simp only [decoded]⟩
      · rw [ends] at node_eq
        exact ⟨none, readBelow_of_missing node_eq⟩

end Store
end Pageweave
