import Pageweave.Proofs.Key.Tearing
import Pageweave.Proofs.Locator.Listing
import Pageweave.Proofs.Setup.Extension
import Pageweave.Proofs.Store.Reading
/-!
# What a directory lists and what can be read from it

A file is listed under the key that it is read by if it is spelled the way a key's file is spelled: its names hold no
backslash, and it ends in the extension as it is given, behind something other than nothing and two dots. So where all
directories are tidy, a stack lists a key with the store that serves it.
-/
namespace Pageweave

open Text

variable {e given name root : String} {k : Key} {front : List (List Char)} {last : List Char}
  {files : FileTree} {p : Place} {r : Option String} {ks : List Key} {ns : List String}

/-- A name that is no key's file, or just as a key's file is spelled. -/
structure Key.IsSpelled (e : String) (before : List String) (n : String) : Prop where
  no_bare : before ≠ [] → n.toList ≠ '.' :: e.toList
  no_climb : n.toList ≠ '.' :: '.' :: '.' :: e.toList
  same_case : ∀ found, Path.extension? n.toList = some found → sameLetters found e.toList = true → found = e.toList

theorem Key.IsSpelled.exists_stem {before : List String} {n : String} (spelled : Key.IsSpelled e before n)
    (has : Path.hasExtension e.toList ((front ++ [n.toList]).map .name) = true) :
    ∃ stem, stem ≠ [] ∧ stem ≠ ['.', '.'] ∧ n.toList = stem ++ '.' :: e.toList := by
  obtain ⟨stem, found, some_char, whole, no_dot, letters⟩ := Key.hasExtension_iff.mp has
  rw [List.map_append, List.map_singleton, Path.fileName?_append] at whole
  have same_name : n.toList = stem ++ '.' :: found := Option.some.inj whole
  obtain rfl : found = e.toList :=
    spelled.same_case found (Path.extension?_eq_some_iff.mpr ⟨stem, some_char, same_name, no_dot⟩) letters
  refine ⟨stem, some_char, ?_, same_name⟩
  rintro rfl
  exact spelled.no_climb same_name

/-- No links, and files whose names can be told apart as keys. -/
structure FileTree.TidyBelow (files : FileTree) (p : Place) (e : String) : Prop where
  linkFree : files.LinkFreeBelow p
  names : ∀ ns, files.HasFile p ns → ∀ n ∈ ns, Path.IsName n.toList ∧ '\\' ∉ n.toList
  spelled : ∀ before n, files.HasFile p (before ++ [n]) → Key.IsSpelled e before n

namespace Store

/-! ## Listing -/

theorem mem_filterMapM {α β ε : Type} {f : α → Except ε (Option β)} {l : List α} {ys : List β} {y : β}
    (all : l.filterMapM f = .ok ys) : y ∈ ys ↔ ∃ x ∈ l, f x = .ok (some y) := by
  induction l generalizing ys with
  | nil =>
    obtain rfl : [] = ys := Except.ok.inj all
    simp
  | cons x l ih =>
    rw [List.filterMapM_cons] at all
    cases first : f x with
    | error err =>
      rw [first] at all
      cases all
    | ok kept =>
      cases rest : l.filterMapM f with
      | error err =>
        rw [first, rest] at all
        cases kept <;> cases all
      | ok zs =>
        rw [first, rest] at all
        cases kept with
        | none =>
          obtain rfl : zs = ys := Except.ok.inj all
          simp [ih rest, first]
        | some z =>
          obtain rfl : z :: zs = ys := Except.ok.inj all
          simp [ih rest, first, eq_comm]

theorem exists_filterMapM {α β ε : Type} {f : α → Except ε (Option β)} {l : List α} (all : ∀ x ∈ l, ∃ y, f x = .ok y) :
    ∃ ys, l.filterMapM f = .ok ys := by
  induction l with
  | nil => exact ⟨[], rfl⟩
  | cons x l ih =>
    obtain ⟨kept, first⟩ := all x List.mem_cons_self
    obtain ⟨ys, rest⟩ := ih fun y later => all y (List.mem_cons_of_mem x later)
    rw [List.filterMapM_cons, first, rest]
    cases kept with
    | none => exact ⟨ys, rfl⟩
    | some y => exact ⟨y :: ys, rfl⟩

theorem listedKey_eq_iff (names : List String) :
    listedKey e names = .ok (some k) ↔ Key.ofParts e ((names.map String.toList).map .name) = .key k := by
  have same : (names.map String.toList).map Path.Part.name = names.map fun s => .name s.toList := by
    rw [List.map_map]
    rfl
  unfold listedKey
  rw [same]
  cases Key.ofParts e (names.map fun s => .name s.toList) <;> simp

theorem listBelow_of_found {found : List (List String)} (below : files.filesBelow root = .ok found) :
    listBelow files root e = (found.filterMapM (listedKey e)).map Key.ordered := by
  simp only [listBelow, below]

theorem mem_listBelow {found : List (List String)} (below : files.filesBelow root = .ok found)
    (listing : listBelow files root e = .ok ks) : k ∈ ks ↔ ∃ ns ∈ found, listedKey e ns = .ok (some k) := by
  rw [listBelow_of_found below] at listing
  cases keys : found.filterMapM (listedKey e) with
  | error err =>
    rw [keys] at listing
    cases listing
  | ok qs =>
    rw [keys] at listing
    obtain rfl : Key.ordered qs = ks := Except.ok.inj listing
    rw [Key.ordered, List.mem_mergeSort, mem_filterMapM keys]

theorem mem_listBelow_iff (leads : files.place true root = .ok p) (directory : files.get? p = some .directory)
    (free : files.LinkFreeBelow p) (listing : listBelow files root e = .ok ks) :
    k ∈ ks ↔ ∃ ns, files.HasFile p ns ∧ listedKey e ns = .ok (some k) := by
  obtain ⟨found, below, holds⟩ := FileTree.mem_filesBelow_iff leads directory free
  rw [mem_listBelow below listing]
  simp only [holds]

theorem listBelow_of_no_directory (nothing : ∀ p, files.place true root = .ok p → files.get? p ≠ some .directory) :
    listBelow files root e = .ok [] := by
  have none_below : files.filesBelow root = .ok [] := by
    unfold FileTree.filesBelow
    cases leads : files.place true root with
    | error f => rfl
    | ok p =>
      have other := nothing p leads
      cases there : files.get? p with
      | none => simp
      | some node =>
        cases node with
        | directory => exact absurd there other
        | file bytes => simp
        | link target => simp
  rw [listBelow_of_found none_below, List.filterMapM_nil]
  have sorted : Key.ordered [] = [] := List.mergeSort_nil
  exact congrArg Except.ok sorted

theorem exists_listedKey (some_char : e ≠ "") (unmarked : Key.IsUnmarked e) (names : List String) :
    ∃ kept, listedKey e names = .ok kept := by
  have whole := Key.ofParts_ne_malformed some_char (fun c there => (unmarked c there).2) (names.map fun s => .name s.toList)
  unfold listedKey
  cases parts : Key.ofParts e (names.map fun s => .name s.toList) with
  | keyless => exact ⟨none, rfl⟩
  | key k => exact ⟨some k, rfl⟩
  | malformed => exact absurd parts whole

theorem file_of_listBelow (some_char : e ≠ "") (unmarked : Key.IsUnmarked e) {fault : PageError}
    (failed : listBelow files root e = .error fault) : ∃ path f, fault = .file path f := by
  cases below : files.filesBelow root with
  | error f =>
    simp only [listBelow, below] at failed
    exact ⟨f.path, f.fault, (Except.error.inj failed).symm⟩
  | ok found =>
    obtain ⟨ks, kept⟩ := exists_filterMapM fun names (_ : names ∈ found) => exists_listedKey some_char unmarked names
    rw [listBelow_of_found below, kept] at failed
    cases failed

/-- Nothing keeps a directory without links from being listed. -/
theorem exists_listBelow (some_char : e ≠ "") (unmarked : Key.IsUnmarked e)
    (free : ∀ p, files.place true root = .ok p → files.LinkFreeBelow p) : ∃ ks, listBelow files root e = .ok ks := by
  by_cases inside : ∃ p, files.place true root = .ok p ∧ files.get? p = some .directory
  · obtain ⟨p, leads, directory⟩ := inside
    obtain ⟨found, below, -⟩ := FileTree.mem_filesBelow_iff leads directory (free p leads)
    obtain ⟨ks, kept⟩ := exists_filterMapM fun names (_ : names ∈ found) => exists_listedKey some_char unmarked names
    exact ⟨_, (listBelow_of_found below).trans (congrArg _ kept)⟩
  · exact ⟨[], listBelow_of_no_directory fun p leads directory => inside ⟨p, leads, directory⟩⟩

theorem exists_ofName?_of_mem_listBelow (listing : listBelow files root e = .ok ks) (listed : k ∈ ks) :
    ∃ name, Key.ofName? e name = some k := by
  cases below : files.filesBelow root with
  | error f => simp [listBelow, below] at listing
  | ok found =>
    obtain ⟨ns, -, key⟩ := (mem_listBelow below listing).mp listed
    obtain ⟨names, -, made⟩ := Key.exists_names_of_ofParts ((listedKey_eq_iff ns).mp key)
    exact ⟨_, made⟩

theorem listedKey_fileNames (unmarked : Key.IsUnmarked e) (pieces : k.HasPieces front last) (some_char : last ≠ []) :
    listedKey e (Key.fileNames front last e) = .ok (some k) := by
  have same : Key.mk (String.ofList (joined '/' (front ++ [last]))) = k := by
    rw [← pieces.name_eq, String.ofList_toList]
  rw [listedKey_eq_iff, Key.map_toList_fileNames,
    Key.ofParts_of_isUnmarked unmarked pieces.isSegment some_char pieces.no_slash pieces.no_backslash, same]

/-- What is listed is the file of a contained key, if it is spelled as one. -/
theorem exists_fileNames_of_listedKey (unmarked : Key.IsUnmarked e)
    (all : ∀ n ∈ ns, Path.IsName n.toList ∧ '\\' ∉ n.toList)
    (spelled : ∀ before n, ns = before ++ [n] → Key.IsSpelled e before n)
    (listed : listedKey e ns = .ok (some k)) :
    ∃ front last, k.HasPieces front last ∧ k.isContained = true ∧ ns = Key.fileNames front last e := by
  rw [listedKey_eq_iff] at listed
  rcases List.eq_nil_or_concat' ns with rfl | ⟨before, n, rfl⟩
  · have has := Key.hasExtension_of_ofParts listed
    cases has
  · rw [List.map_append, List.map_singleton] at listed
    have has := Key.hasExtension_of_ofParts listed
    obtain ⟨stem, some_char, no_dots, same_name⟩ := (spelled before n rfl).exists_stem has
    obtain ⟨⟨-, -, -, no_slash⟩, no_backslash⟩ := all n (by simp)
    rw [same_name] at no_slash no_backslash
    have segments : ∀ s ∈ before.map String.toList, Key.IsSegment s := by
      intro s there
      obtain ⟨m, older, rfl⟩ := List.mem_map.mp there
      obtain ⟨⟨some_char', no_dot', -, no_slash'⟩, no_backslash'⟩ := all m (List.mem_append_left _ older)
      exact ⟨some_char', no_dot', no_slash', no_backslash'⟩
    have slash : '/' ∉ stem := fun mark => no_slash (List.mem_append_left _ mark)
    have backslash : '\\' ∉ stem := fun mark => no_backslash (List.mem_append_left _ mark)
    rw [same_name, Key.ofParts_of_isUnmarked unmarked segments some_char slash backslash] at listed
    have same : Key.mk (String.ofList (joined '/' (before.map String.toList ++ [stem]))) = k := by simpa using listed
    have name_eq : k.name.toList = joined '/' (before.map String.toList ++ [stem]) := by
      rw [← same, String.toList_ofList]
    have pieces : k.HasPieces (before.map String.toList) stem := ⟨name_eq, segments, slash, backslash⟩
    refine ⟨before.map String.toList, stem, pieces, ?_, ?_⟩
    · apply pieces.isContained_iff.mpr
      refine ⟨fun ⟨_, nothing⟩ => some_char nothing, ?_, no_dots⟩
      intro s there
      obtain ⟨m, older, rfl⟩ := List.mem_map.mp there
      exact (all m (List.mem_append_left _ older)).1.2.2.1
    · have back : n = String.ofList (stem ++ '.' :: e.toList) := by rw [← same_name, String.ofList_toList]
      simp [Key.fileNames, back]

theorem read_of_no_directory (made : Key.ofName? given name = some k) (fits : Key.FitsName e) (some_root : root ≠ "")
    (nothing : ∀ p, files.place true root = .ok p → files.get? p ≠ some .directory)
    (reading : readBelow files root e k = .ok r) : r.isSome = false := by
  by_contra there
  rw [Bool.not_eq_false] at there
  have contained := contained_of_isSome reading there
  obtain ⟨front, last, pieces⟩ := Key.hasPieces_of_ofName? made
  have all := pieces.isName_fileNames contained fits
  obtain ⟨bytes, reached⟩ := (readBelow_eq_ok contained reading).1.mp there
  obtain ⟨f, fails⟩ := FileTree.node_of_no_directory some_root all Key.fileNames_ne_nil nothing
  rw [pieces.pathBelow_eq contained fits root, fails] at reached
  cases reached

theorem fitsName_of_accepts (accepted : Setup.Accepts e) (unmarked : Key.IsUnmarked e) : Key.FitsName e := by
  obtain ⟨some_char, no_dot⟩ := Setup.accepts_iff.mp accepted
  refine ⟨fun nothing => some_char (String.toList_eq_nil_iff.mp nothing), no_dot, ?_⟩
  intro slash
  exact (unmarked '/' slash).2.1 rfl

/-- A tidy directory lists what can be read from it. -/
theorem directory_agrees (accepted : Setup.Accepts e) (unmarked : Key.IsUnmarked e) (some_root : root ≠ "")
    (tidy : ∀ p, files.place true root = .ok p → files.TidyBelow p e) (made : Key.ofName? given name = some k)
    (own : String) : (directory files own root e).Agrees k := by
  intro ks r listing reading
  change listBelow files root e = .ok ks at listing
  change readBelow files root e k = .ok r at reading
  have fits := fitsName_of_accepts accepted unmarked
  by_cases inside : ∃ p, files.place true root = .ok p ∧ files.get? p = some .directory
  · obtain ⟨p, leads, directory⟩ := inside
    obtain ⟨free, names, spelled⟩ := tidy p leads
    rw [mem_listBelow_iff leads directory free listing]
    constructor
    · rintro ⟨ns, file, listed⟩
      have ends : ∀ before n, ns = before ++ [n] → Key.IsSpelled e before n := by
        rintro before n rfl
        exact spelled before n file
      obtain ⟨front, last, pieces, contained, rfl⟩ := exists_fileNames_of_listedKey unmarked (names ns file) ends listed
      exact (isSome_read_iff pieces contained fits some_root leads free reading).mpr file
    · intro there
      have contained := contained_of_isSome reading there
      obtain ⟨front, last, pieces⟩ := Key.hasPieces_of_ofName? made
      have file := (isSome_read_iff pieces contained fits some_root leads free reading).mp there
      have some_char : last ≠ [] := by
        rintro rfl
        have deep : front ≠ [] := fun nothing => (pieces.isContained_iff.mp contained).1 ⟨nothing, rfl⟩
        rw [Key.fileNames, List.map_append, List.map_singleton] at file
        exact (spelled _ _ file).no_bare (by simpa using deep) (by simp)
      exact ⟨_, file, listedKey_fileNames unmarked pieces some_char⟩
  · have nothing : ∀ p, files.place true root = .ok p → files.get? p ≠ some .directory :=
      fun p leads directory => inside ⟨p, leads, directory⟩
    rw [listBelow_of_no_directory nothing] at listing
    obtain rfl : [] = ks := Except.ok.inj listing
    simp [read_of_no_directory made fits some_root nothing reading]

theorem memory_agrees (own : String) (ts : Texts) (k : Key) : (memory own ts).Agrees k := by
  intro ks r listing reading
  obtain rfl : ts.map Prod.fst = ks := Except.ok.inj listing
  obtain rfl : ts.get? k = r := Except.ok.inj reading
  simp [Texts.get?]

end Store

/-! ## Stacks of stores -/

namespace Origin

/-- A directory that is tidy below its root, with an extension that is cut nowhere. -/
def IsTidy (files : FileTree) : Origin → Prop
  | .directory _ root e =>
    Setup.Accepts e ∧ Key.IsUnmarked e ∧ root ≠ "" ∧ ∀ p, files.place true root = .ok p → files.TidyBelow p e
  | .memory _ _ => True

/-- Nothing but absence keeps the key from being read. -/
def IsReadable (files : FileTree) (k : Key) : Origin → Prop
  | .directory _ root e => Store.ReadableBelow files root e k
  | .memory _ _ => True

variable {origin : Origin}

theorem IsTidy.agrees (tidy : origin.IsTidy files) (made : Key.ofName? given name = some k) :
    (origin.store files).Agrees k := by
  cases origin with
  | directory own root e =>
    obtain ⟨accepted, unmarked, some_root, below⟩ := tidy
    exact Store.directory_agrees accepted unmarked some_root below made own
  | memory own texts => exact Store.memory_agrees own texts k

theorem IsTidy.list (tidy : origin.IsTidy files) : ∃ ks, (origin.store files).list = .ok ks := by
  cases origin with
  | directory own root e =>
    obtain ⟨accepted, unmarked, -, below⟩ := tidy
    exact Store.exists_listBelow (Setup.accepts_iff.mp accepted).1 unmarked fun p leads => (below p leads).linkFree
  | memory own texts => exact ⟨texts.map Prod.fst, rfl⟩

theorem IsTidy.read (tidy : origin.IsTidy files) (made : Key.ofName? given name = some k)
    (readable : origin.IsReadable files k) : ∃ r, (origin.store files).read k = .ok r := by
  cases origin with
  | directory own root e =>
    obtain ⟨accepted, unmarked, some_root, below⟩ := tidy
    have fits := Store.fitsName_of_accepts accepted unmarked
    exact readable.readBelow made fits some_root fun p leads => (below p leads).linkFree
  | memory own texts => exact ⟨texts.get? k, rfl⟩

end Origin

namespace Stack

variable {s : Stack} {entries : List (Key × String)}

/-- A stack over tidy directories lists a key with the store that it is found in, and not at all if it is not found; and
it is found or not, without a fault, where nothing but absence keeps it from being read. -/
theorem list_agrees_with_find (made : Key.ofName? given name = some k)
    (tidy : ∀ origin ∈ s.origins, origin.IsTidy files) (listed : (s.locator files).list = .ok entries) :
    (∀ r, (s.locator files).find k = .ok r → ∀ own, (k, own) ∈ entries ↔ r.map Source.store = some own) ∧
      ((∀ origin ∈ s.origins, origin.IsReadable files k) →
        ∀ own, (k, own) ∈ entries ↔ ∃ source, (s.locator files).find k = .ok (some source) ∧ source.store = own) := by
  have agrees : ∀ store ∈ (s.locator files).stores, store.Agrees k := by
    intro store there
    obtain ⟨origin, from_stack, rfl⟩ := List.mem_map.mp there
    exact (tidy origin from_stack).agrees made
  constructor
  · intro r found own
    exact Locator.mem_list_iff agrees listed found
  · intro readable own
    obtain ⟨r, found⟩ : ∃ r, (s.locator files).find k = .ok r := by
      refine Locator.exists_findIn fun store there => ?_
      obtain ⟨origin, from_stack, rfl⟩ := List.mem_map.mp there
      exact (tidy origin from_stack).read made (readable origin from_stack)
    rw [Locator.mem_list_iff agrees listed found, found]
    simp [Option.map_eq_some_iff]

/-- A page of a project in front of a page of that name and another one. -/
def layered : Stack where
  origins := [.directory Names.projectStore "Templates" "html", .memory "memory" [(⟨"about"⟩, "about"), (⟨"page"⟩, "")]]
  extension := "html"

/-- One file below `Templates`. -/
def filed (file : String) : FileTree where
  nodes := [(["Templates"], .directory), (["Templates", file], .file "page".toUTF8)]

theorem get?_filed {file : String} {bytes : ByteArray}
    (there : (filed file).get? (["Templates"] ++ ns) = some (.file bytes)) : ns = [file] ∧ bytes = "page".toUTF8 := by
  have listed := FileTree.mem_nodes_of_get? there nofun
  simpa [filed] using listed

theorem hasFile_filed {file : String} (there : (filed file).HasFile ["Templates"] ns) : ns = [file] := by
  obtain ⟨bytes, found⟩ := there.get?
  exact (get?_filed found).1

theorem place_filed (file : String) : (filed file).place true "Templates" = .ok ["Templates"] := rfl

theorem isTidy_layered : ∀ origin ∈ layered.origins, origin.IsTidy (filed "page.html") := by
  intro origin listed
  rcases List.mem_pair.mp listed with rfl | rfl
  · refine ⟨Setup.accepts_iff.mpr (by decide), by decide, by decide, fun p leads => ?_⟩
    obtain rfl : ["Templates"] = p := Except.ok.inj ((place_filed "page.html").symm.trans leads)
    constructor
    · exact FileTree.linkFreeBelow_of_nodes (by simp [filed]) _
    · intro ns file
      obtain rfl := hasFile_filed file
      decide
    · intro before n file
      have same := hasFile_filed file
      obtain ⟨rfl, rfl⟩ : before = [] ∧ n = "page.html" := by
        simpa using List.append_inj' (same.trans (List.nil_append ["page.html"]).symm) rfl
      refine ⟨fun deep => absurd rfl deep, by decide, ?_⟩
      decide
  · trivial

theorem isReadable_layered : ∀ origin ∈ layered.origins, origin.IsReadable (filed "page.html") ⟨"page"⟩ := by
  intro origin listed
  rcases List.mem_pair.mp listed with rfl | rfl
  · have here := place_filed "page.html"
    have names : Key.pathNames ⟨"page"⟩ "html" = ["page.html"] := by decide +kernel
    refine ⟨by decide +kernel, fun f fails => ?_, fun p leads => ?_, fun p bytes leads there => ?_⟩
    · rw [here] at fails
      cases fails
    · obtain rfl : ["Templates"] = p := Except.ok.inj (here.symm.trans leads)
      rw [names]
      constructor
      · decide
      · rintro front before other file
        exact other (hasFile_filed file)
    · obtain rfl : ["Templates"] = p := Except.ok.inj (here.symm.trans leads)
      obtain ⟨-, rfl⟩ := get?_filed there
      exact ⟨"page", by decide +kernel⟩
  · trivial

theorem layered_page_list_agrees_with_find :
    Key.ofName? "html" "page.html" = some ⟨"page"⟩ ∧
      (∀ origin ∈ layered.origins, origin.IsTidy (filed "page.html") ∧ origin.IsReadable (filed "page.html") ⟨"page"⟩) ∧
      (layered.locator (filed "page.html")).list = .ok [(⟨"about"⟩, "memory"), (⟨"page"⟩, Names.projectStore)] ∧
      ∃ source, (layered.locator (filed "page.html")).find ⟨"page"⟩ = .ok (some source) ∧
        source.store = Names.projectStore := by
  have made : Key.ofName? "html" "page.html" = some ⟨"page"⟩ := by decide +kernel
  have listed : (layered.locator (filed "page.html")).list =
      .ok [(⟨"about"⟩, "memory"), (⟨"page"⟩, Names.projectStore)] := by decide +kernel
  have agree := (list_agrees_with_find made isTidy_layered listed).2 isReadable_layered
  refine ⟨made, fun origin there => ⟨isTidy_layered origin there, isReadable_layered origin there⟩, listed, ?_⟩
  exact (agree Names.projectStore).mp (by simp)

/-- A directory alone. -/
def plainProject (e : String) : Stack := ⟨[.directory Names.projectStore "Templates" e], e⟩

/-- A page in capitals is listed and never found; a page with two extensions in one is found and never listed. -/
theorem untidy_list_disagrees_with_find :
    (Setup.Accepts "html" ∧ Key.ofName? "html" "page" = some ⟨"page"⟩ ∧
      ((plainProject "html").locator (filed "page.HTML")).list = .ok [(⟨"page"⟩, Names.projectStore)] ∧
      ((plainProject "html").locator (filed "page.HTML")).find ⟨"page"⟩ = .ok none) ∧
    Setup.Accepts "html.tera" ∧ Key.ofName? "html.tera" "page" = some ⟨"page"⟩ ∧
      ((plainProject "html.tera").locator (filed "page.html.tera")).list = .ok [] ∧
      ((plainProject "html.tera").locator (filed "page.html.tera")).find ⟨"page"⟩ =
        .ok (some ⟨⟨"page"⟩, "page", Names.projectStore⟩) := by
  have plain : Setup.Accepts "html" := Setup.accepts_iff.mpr (by decide)
  have dotted : Setup.Accepts "html.tera" := Setup.accepts_iff.mpr (by decide)
  refine ⟨⟨plain, ?_, ?_, ?_⟩, dotted, ?_, ?_, ?_⟩
  all_goals decide +kernel

end Stack
end Pageweave
