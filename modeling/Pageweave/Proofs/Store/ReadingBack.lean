import Pageweave.Proofs.Store.Directory
/-!
# Files that are read back from their keys

The key of a file leads to the names that the file lies at, with the extension spelled as it is given. So two files have
one key only if their extensions differ in case, and a listed file that spells the extension as it is given is the one
that its key is read from. Only in front of a path a dot is a part of its own, and no key keeps it.
-/
namespace Pageweave

open Text

variable {e root : String} {k q : Key} {ps qs : List Path.Part} {front : List (List Char)} {stem found : List Char}
  {files : FileTree} {ns : List String} {ks : List Key}

/-- The parts of a path to a file: names, the last of which ends in the extension, in whatever case it is spelled. -/
structure Path.LeadsTo (e : String) (ps : List Path.Part) (front : List (List Char)) (stem found : List Char) : Prop where
  names : ps.filter (· ≠ .here) = (front ++ [stem ++ '.' :: found]).map .name
  some_char : stem ≠ []
  no_dot : '.' ∉ found
  letters : sameLetters found e.toList = true

/-- Parts whose names hold no mark that cuts a key. -/
def Path.IsUncut (ps : List Path.Part) : Prop := ∀ s, .name s ∈ ps → Path.IsName s ∧ '\\' ∉ s

namespace Path.LeadsTo

theorem mem (h : LeadsTo e ps front stem found) {s : List Char} (listed : s ∈ front ++ [stem ++ '.' :: found]) :
    .name s ∈ ps := by
  have there : .name s ∈ ps.filter (· ≠ .here) := by
    rw [h.names]
    exact List.mem_map_of_mem listed
  exact (List.mem_filter.mp there).1

theorem map_eq {names : List (List Char)} (h : LeadsTo e (names.map .name) front stem found) :
    names.map Part.name = (front ++ [stem ++ '.' :: found]).map .name := by
  have kept : (names.map Part.name).filter (· ≠ .here) = names.map .name := by simp
  rw [← kept, h.names]

theorem isSegment (h : LeadsTo e ps front stem found) (uncut : IsUncut ps) :
    ∀ s ∈ front ++ [stem ++ '.' :: found], Key.IsSegment s := by
  intro s listed
  obtain ⟨⟨some_char, no_dot, -, no_slash⟩, no_backslash⟩ := uncut s (h.mem listed)
  exact ⟨some_char, no_dot, no_slash, no_backslash⟩

theorem isName (h : LeadsTo e ps front stem found) (uncut : IsUncut ps) :
    ∀ s ∈ front ++ [stem ++ '.' :: e.toList], Path.IsName s := by
  intro s listed
  rcases List.mem_append.mp listed with older | newest
  · exact (uncut s (h.mem (List.mem_append_left _ older))).1
  obtain ⟨-, no_dot, no_dots, no_slash⟩ := (uncut _ (h.mem (s := stem ++ '.' :: found) (by simp))).1
  have size := length_of_sameLetters h.letters
  have slash : '/' ∈ found ↔ '/' ∈ e.toList := mem_of_sameLetters (.inr (.inl rfl)) h.letters
  rw [List.mem_singleton.mp newest]
  refine ⟨by simp, ?_, ?_, ?_⟩
  · intro same
    have short := congrArg List.length same
    have room := List.length_pos_iff.mpr h.some_char
    simp at short
    omega
  · intro same
    have short := congrArg List.length same
    have room := List.length_pos_iff.mpr h.some_char
    simp only [List.length_append, List.length_cons, List.length_nil] at short
    have nothing : e.toList = [] := List.length_eq_zero_iff.mp (by omega)
    have found_nothing : found = [] := List.length_eq_zero_iff.mp (by omega)
    rw [nothing] at same
    rw [found_nothing] at no_dots
    exact no_dots same
  · simpa [slash] using no_slash

end Path.LeadsTo

namespace Key

theorem exists_leadsTo_of_ofParts (uncut : Path.IsUncut ps) (read : ofParts e ps = .key k) :
    ∃ front stem found, Path.LeadsTo e ps front stem found ∧ k.name.toList = joined '/' (front ++ [stem]) := by
  obtain ⟨stem, found, some_char, last, no_dot, letters⟩ := hasExtension_iff.mp (hasExtension_of_ofParts read)
  obtain ⟨names, along, made⟩ := exists_names_of_ofParts read
  obtain ⟨before, ends⟩ : ∃ before, ps = before ++ [.name (stem ++ '.' :: found)] := Path.fileName?_eq_some_iff.mp last
  obtain ⟨front, rfl⟩ := names?_append (ends ▸ along)
  have leads : Path.LeadsTo e ps front stem found := ⟨names?_eq_some_iff.mp along, some_char, no_dot, letters⟩
  refine ⟨front, stem, found, leads, ?_⟩
  have segments := leads.isSegment uncut
  have before_segments : ∀ s ∈ front, IsSegment s := fun s listed => segments s (List.mem_append_left _ listed)
  have same := ofName?_joined before_segments some_char (segments _ (by simp)) letters
  rw [same] at made
  rw [← Option.some.inj made, String.toList_ofList]

theorem relativePath_of_leadsTo (leads : Path.LeadsTo e ps front stem found) (uncut : Path.IsUncut ps)
    (name_eq : k.name.toList = joined '/' (front ++ [stem])) :
    k.relativePath e = String.ofList (joined '/' (front ++ [stem ++ '.' :: e.toList])) := by
  have all := leads.isName uncut
  rw [relativePath, toList_fileName, name_eq, joined_append, Path.pieces_names all (by simp),
    Path.ofParts_eq all (by simp)]

theorem parts_relativePath (leads : Path.LeadsTo e ps front stem found) (uncut : Path.IsUncut ps)
    (name_eq : k.name.toList = joined '/' (front ++ [stem])) :
    Path.parts (k.relativePath e).toList = (front ++ [stem ++ '.' :: e.toList]).map .name := by
  have behind := Path.parts_lead [] (leads.isName uncut) (by simp)
  have nothing : Path.parts [] = [] := rfl
  rw [relativePath_of_leadsTo leads uncut name_eq, String.toList_ofList]
  simpa [Path.lead, nothing] using behind

/-- Two files of one key differ in the case of the extension at most. -/
theorem leadsTo_of_same_key (uncut : Path.IsUncut ps) (uncut' : Path.IsUncut qs) (read : ofParts e ps = .key k)
    (read' : ofParts e qs = .key k) :
    ∃ front stem found found', Path.LeadsTo e ps front stem found ∧ Path.LeadsTo e qs front stem found' := by
  obtain ⟨front, stem, found, leads, name_eq⟩ := exists_leadsTo_of_ofParts uncut read
  obtain ⟨front', stem', found', leads', name_eq'⟩ := exists_leadsTo_of_ofParts uncut' read'
  have no_slash {qs : List Path.Part} {front : List (List Char)} {stem found : List Char}
      (leads : Path.LeadsTo e qs front stem found) (uncut : Path.IsUncut qs) : ∀ s ∈ front ++ [stem], '/' ∉ s := by
    intro s listed
    have segments := leads.isSegment uncut
    rcases List.mem_append.mp listed with older | newest
    · exact (segments s (List.mem_append_left _ older)).2.2.1
    · rw [List.mem_singleton.mp newest]
      intro mark
      exact (segments (stem ++ '.' :: found) (by simp)).2.2.1 (List.mem_append_left _ mark)
  have same : joined '/' (front ++ [stem]) = joined '/' (front' ++ [stem']) := name_eq.symm.trans name_eq'
  have pieces_eq := congrArg (pieces '/') same
  rw [pieces_joined (no_slash leads uncut) (by simp), pieces_joined (no_slash leads' uncut') (by simp)] at pieces_eq
  obtain ⟨rfl, last⟩ := List.append_inj' pieces_eq rfl
  obtain rfl := List.singleton_inj.mp last
  exact ⟨front, stem, found, found', leads, leads'⟩

end Key

namespace Store

theorem isUncut_names (all : ∀ n ∈ ns, Path.IsName n.toList ∧ '\\' ∉ n.toList) :
    Path.IsUncut ((ns.map String.toList).map .name) := by
  intro s listed
  obtain ⟨t, there, same⟩ := List.mem_map.mp listed
  obtain ⟨n, older, rfl⟩ := List.mem_map.mp there
  obtain rfl := Path.Part.name.inj same
  exact all n older

/-- A file that carries the extension is listed. -/
theorem listedKey_of_leadsTo (all : ∀ n ∈ ns, Path.IsName n.toList ∧ '\\' ∉ n.toList)
    (leads : Path.LeadsTo e ((ns.map String.toList).map .name) front stem found) :
    listedKey e ns = .ok (some ⟨String.ofList (joined '/' (front ++ [stem]))⟩) := by
  have segments := leads.isSegment (isUncut_names all)
  rw [listedKey_eq_iff, leads.map_eq, Key.ofParts_names_iff]
  constructor
  · apply Key.hasExtension_iff.mpr
    refine ⟨stem, found, leads.some_char, ?_, leads.no_dot, leads.letters⟩
    rw [List.map_append]
    exact Path.fileName?_append _ _
  · exact Key.ofName?_joined (fun s listed => segments s (List.mem_append_left _ listed)) leads.some_char
      (segments _ (by simp)) leads.letters

theorem pathBelow_of_leadsTo (all : ∀ n ∈ ns, Path.IsName n.toList ∧ '\\' ∉ n.toList)
    (leads : Path.LeadsTo e ((ns.map String.toList).map .name) front stem e.toList)
    (name_eq : k.name.toList = joined '/' (front ++ [stem])) : pathBelow root e k = Path.behind root ns := by
  have whole := List.map_injective_iff.mpr (fun _ _ => Path.Part.name.inj) leads.map_eq
  rw [pathBelow, Key.relativePath_of_leadsTo leads (isUncut_names all) name_eq, Path.behind, whole]

theorem isContained_of_leadsTo (all : ∀ n ∈ ns, Path.IsName n.toList ∧ '\\' ∉ n.toList)
    (leads : Path.LeadsTo e ((ns.map String.toList).map .name) front stem e.toList)
    (name_eq : k.name.toList = joined '/' (front ++ [stem])) (no_climb : stem ≠ ['.', '.']) : k.isContained = true := by
  have uncut := isUncut_names all
  have segments := leads.isSegment uncut
  obtain ⟨-, -, no_slash, no_backslash⟩ := segments (stem ++ '.' :: e.toList) (by simp)
  have pieces : k.HasPieces front stem :=
    ⟨name_eq, fun s listed => segments s (List.mem_append_left _ listed),
      fun mark => no_slash (List.mem_append_left _ mark), fun mark => no_backslash (List.mem_append_left _ mark)⟩
  apply pieces.isContained_iff.mpr
  refine ⟨fun nothing => leads.some_char nothing.2, ?_, no_climb⟩
  intro s listed
  exact (leads.isName uncut s (List.mem_append_left _ listed)).2.2.1

theorem readBelow_eq_some_iff {text : String} (contained : k.isContained = true) :
    readBelow files root e k = .ok (some text) ↔ files.readText (pathBelow root e k) = .ok text := by
  unfold readBelow FileTree.readText
  rw [if_pos contained]
  cases reached : files.node true (pathBelow root e k) with
  | error f => cases f <;> simp [reached, bind, Except.bind]
  | ok node =>
    cases node with
    | file bytes => cases decoded : FileTree.decode bytes <;> simp [reached, decoded, bind, Except.bind]
    | directory => simp [reached, bind, Except.bind]
    | link target => simp [reached, bind, Except.bind]

/-- The path of a file, that of its key, and the file that the key is read from: the names are the same, but for the case
of the extension. -/
theorem listed_file_read_back (e : String) :
    (∀ (p : String) k, (∀ s, .name s ∈ Path.parts p.toList → '\\' ∉ s) →
      Key.ofParts e (Path.parts p.toList) = .key k →
        ∃ front stem found, Path.LeadsTo e (Path.parts p.toList) front stem found ∧
          Path.parts (k.relativePath e).toList = (front ++ [stem ++ '.' :: e.toList]).map .name) ∧
      (∀ (p q : String) k, (∀ s, .name s ∈ Path.parts p.toList → '\\' ∉ s) →
        (∀ s, .name s ∈ Path.parts q.toList → '\\' ∉ s) →
        Key.ofParts e (Path.parts p.toList) = .key k → Key.ofParts e (Path.parts q.toList) = .key k →
          ∃ front stem found found', Path.LeadsTo e (Path.parts p.toList) front stem found ∧
            Path.LeadsTo e (Path.parts q.toList) front stem found') ∧
      ∀ (files : FileTree) (root : String) found ks, files.filesBelow root = .ok found →
        listBelow files root e = .ok ks →
          (∀ k, k ∈ ks ↔ ∃ ns ∈ found, listedKey e ns = .ok (some k)) ∧
            ∀ ns ∈ found, (∀ n ∈ ns, Path.IsName n.toList ∧ '\\' ∉ n.toList) → ∀ front stem,
              Path.LeadsTo e ((ns.map String.toList).map .name) front stem e.toList → stem ≠ ['.', '.'] →
                ∃ k ∈ ks, listedKey e ns = .ok (some k) ∧ pathBelow root e k = Path.behind root ns ∧
                  ∀ text, readBelow files root e k = .ok (some text) ↔
                    files.readText (Path.behind root ns) = .ok text := by
  have uncut_path {p : String} (plain : ∀ s, .name s ∈ Path.parts p.toList → '\\' ∉ s) :
      Path.IsUncut (Path.parts p.toList) := fun s listed => ⟨Path.isName_of_mem_parts listed, plain s listed⟩
  refine ⟨?_, ?_, ?_⟩
  · intro p k plain read
    obtain ⟨front, stem, found, leads, name_eq⟩ := Key.exists_leadsTo_of_ofParts (uncut_path plain) read
    exact ⟨front, stem, found, leads, Key.parts_relativePath leads (uncut_path plain) name_eq⟩
  · intro p q k plain plain' read read'
    exact Key.leadsTo_of_same_key (uncut_path plain) (uncut_path plain') read read'
  · intro files root found ks below listing
    refine ⟨fun k => mem_listBelow below listing, ?_⟩
    intro ns listed all front stem leads no_climb
    have key := listedKey_of_leadsTo all leads
    have name_eq : (Key.mk (String.ofList (joined '/' (front ++ [stem])))).name.toList = joined '/' (front ++ [stem]) :=
      String.toList_ofList
    have path_eq : pathBelow root e _ = Path.behind root ns := pathBelow_of_leadsTo all leads name_eq
    have contained := isContained_of_leadsTo all leads name_eq no_climb
    refine ⟨_, (mem_listBelow below listing).mpr ⟨ns, listed, key⟩, key, path_eq, ?_⟩
    intro text
    rw [readBelow_eq_some_iff contained, path_eq]

theorem page_read_back :
    Key.ofParts "html" (Path.parts "pages/v1.home.HTML".toList) = .key ⟨"pages/v1.home"⟩ ∧
      (∃ front stem found, Path.LeadsTo "html" (Path.parts "pages/v1.home.HTML".toList) front stem found ∧
        Path.parts ((⟨"pages/v1.home"⟩ : Key).relativePath "html").toList =
          (front ++ [stem ++ '.' :: "html".toList]).map .name) ∧
      listBelow (Stack.filed "page.html") "Templates" "html" = .ok [⟨"page"⟩] ∧
      readBelow (Stack.filed "page.html") "Templates" "html" ⟨"page"⟩ = .ok (some "page") := by
  obtain ⟨leading, -, reading⟩ := listed_file_read_back "html"
  have made : Key.ofParts "html" (Path.parts "pages/v1.home.HTML".toList) = .key ⟨"pages/v1.home"⟩ := by decide +kernel
  have plain : ∀ s, .name s ∈ Path.parts "pages/v1.home.HTML".toList → '\\' ∉ s := by
    have parts : Path.parts "pages/v1.home.HTML".toList =
        [.name "pages".toList, .name "v1.home.HTML".toList] := by decide +kernel
    intro s listed
    rw [parts] at listed
    rcases List.mem_pair.mp listed with same | same
    · rw [Path.Part.name.inj same]
      decide
    · rw [Path.Part.name.inj same]
      decide
  have listing : listBelow (Stack.filed "page.html") "Templates" "html" = .ok [⟨"page"⟩] := by decide +kernel
  have found : ((Stack.filed "page.html").filesBelow "Templates").toOption = some [["page.html"]] := by decide +kernel
  have leads : Path.LeadsTo "html" ((["page.html"].map String.toList).map .name) [] "page".toList "html".toList :=
    ⟨by decide, by decide, by decide, by decide⟩
  refine ⟨made, leading _ _ plain made, listing, ?_⟩
  cases below : (Stack.filed "page.html").filesBelow "Templates" with
  | error fault =>
    rw [below] at found
    cases found
  | ok names =>
    rw [below] at found
    obtain rfl : names = [["page.html"]] := Option.some.inj found
    obtain ⟨k, listed, -, -, read⟩ :=
      (reading _ _ _ _ below listing).2 ["page.html"] (by simp) (by decide) [] "page".toList leads (by decide)
    obtain rfl := List.mem_singleton.mp listed
    exact (read "page").mpr (by decide +kernel)

/-- A dot in front of a path is no name, and a file called `...html` is listed under a key that is never looked for. -/
theorem dotted_path_not_read_back :
    (Key.ofParts "html" (Path.parts "./page.html".toList) = .key ⟨"page"⟩ ∧
      Path.parts "./page.html".toList = [.here, .name "page.html".toList] ∧
      Path.parts ((⟨"page"⟩ : Key).relativePath "html").toList = [.name "page.html".toList]) ∧
    listBelow (Stack.filed "...html") "Templates" "html" = .ok [⟨".."⟩] ∧
      readBelow (Stack.filed "...html") "Templates" "html" ⟨".."⟩ = .ok none ∧
      (Stack.filed "...html").readText (Path.behind "Templates" ["...html"]) = .ok "page" := by
  decide +kernel

end Store
end Pageweave
