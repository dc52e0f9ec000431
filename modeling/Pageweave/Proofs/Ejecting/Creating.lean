import Pageweave.Ejecting
import Pageweave.Proofs.FileTree.Growing
import Pageweave.Proofs.Sequence
/-!
# What ejecting creates

Ejecting creates the directories that lead to the components, and files of bundled components with their texts, where
nothing was. Nothing else ever changes. Once a component has a file, ejecting it again changes nothing at all.
-/
namespace Pageweave

open Text

variable {root ext name : String} {k : Key} {text : String} {t a b : FileTree}

/-- A key of two segments, the last of which does not begin with a dot. -/
structure Key.InDirectory (k : Key) (d f : String) : Prop where
  name_eq : k.name = d ++ "/" ++ f
  directory : Path.IsName d.toList
  some_char : f.toList ≠ []
  no_dot : f.toList.head? ≠ some '.'
  no_slash : '/' ∉ f.toList

/-- The directory and the name of a bundled template. -/
def Texts.bundledNames : List (String × String) :=
  [("components", "alert"), ("components", "badge"), ("components", "button"), ("components", "empty_state"),
    ("components", "toast"), ("layouts", "base")]

theorem Texts.mem_of_get? {ts : Texts} (there : ts.get? k = some text) : (k, text) ∈ ts := by
  obtain ⟨e, found, rfl⟩ := Option.map_eq_some_iff.mp there
  have same : e.1 = k := by simpa using List.find?_some found
  exact same ▸ List.mem_of_find?_eq_some found

theorem Texts.inDirectory_of_bundled (there : Texts.bundled.get? k = some text) :
    ∃ d f, (d, f) ∈ Texts.bundledNames ∧ k.InDirectory d f := by
  have named : ∀ e ∈ Texts.bundled, ∃ x ∈ Texts.bundledNames,
      e.1.name = x.1 ++ "/" ++ x.2 ∧ Path.IsName x.1.toList ∧ x.2.toList ≠ [] ∧ x.2.toList.head? ≠ some '.' ∧
        '/' ∉ x.2.toList := by
    decide +kernel
  obtain ⟨⟨d, f⟩, listed, name_eq, directory, some_char, no_dot, no_slash⟩ := named _ (Texts.mem_of_get? there)
  exact ⟨d, f, listed, name_eq, directory, some_char, no_dot, no_slash⟩

namespace Key.InDirectory

variable {d f : String}

theorem isName (h : k.InDirectory d f) (plain : '/' ∉ ext.toList) :
    ∀ n ∈ [d, f ++ "." ++ ext], Path.IsName n.toList := by
  intro n listed
  rcases List.mem_cons.mp listed with rfl | last
  · exact h.directory
  · obtain rfl := List.mem_singleton.mp last
    obtain ⟨c, cs, chars⟩ := List.exists_cons_of_ne_nil h.some_char
    have other : c ≠ '.' := by
      rintro rfl
      exact h.no_dot (by simp [chars])
    have no_slash := h.no_slash
    rw [chars] at no_slash
    simp only [String.toList_append, chars]
    refine ⟨by simp, by simp, by simp [other], ?_⟩
    simp only [List.cons_append, List.mem_cons, List.mem_append, not_or] at no_slash ⊢
    exact ⟨no_slash.1, ⟨no_slash.2, by decide⟩, plain⟩

theorem behind_eq (h : k.InDirectory d f) (root : String) :
    Path.behind root [d, f ++ "." ++ ext] = Path.join root (k.fileName ext) := by
  have chars : String.ofList (joined '/' ([d, f ++ "." ++ ext].map String.toList)) = k.fileName ext := by
    rw [← String.toList_inj, String.toList_ofList, Key.fileName, h.name_eq]
    simp [joined]
  rw [Path.behind, chars]

theorem pathBelow_eq (h : k.InDirectory d f) (plain : '/' ∉ ext.toList) (root : String) :
    Store.pathBelow root ext k = Path.behind root [d, f ++ "." ++ ext] := by
  have all := h.isName plain
  have names : ∀ s ∈ [d, f ++ "." ++ ext].map String.toList, Path.IsName s := by
    intro s listed
    obtain ⟨n, there, rfl⟩ := List.mem_map.mp listed
    exact all n there
  have chars : (k.fileName ext).toList = joined '/' ([d, f ++ "." ++ ext].map String.toList) := by
    rw [Key.fileName, h.name_eq]
    simp [joined]
  rw [Store.pathBelow, Key.relativePath, chars, Path.pieces_names names (by simp), Path.ofParts_eq names (by simp),
    Path.behind]

end Key.InDirectory

/-! ## The component that is meant -/

/-- A bundled component and its text. -/
def Texts.IsComponent (k : Key) (text : String) : Prop :=
  Texts.bundled.get? k = some text ∧ k.isUnder Names.components = true

namespace Ejection

/-- The locator of a project, with the files as they are. -/
abbrev project (root ext : String) (t : FileTree) : Locator := (Stack.standard root ext).locator t

theorem project_extension (root ext : String) (t : FileTree) : (project root ext t).extension = ext := rfl

theorem store?_bundled (root ext : String) (t : FileTree) :
    (project root ext t).store? Names.bundledStore = some (.memory Names.bundledStore Texts.bundled) := by
  have other : (Names.projectStore == Names.bundledStore) = false := by decide
  simp [project, Stack.locator, Stack.standard, Locator.store?, Origin.store, Store.directory, Store.memory, other]

theorem componentText_eq (root ext : String) (t : FileTree) (k : Key) :
    (∃ text, Texts.bundled.get? k = some text ∧ (project root ext t).componentText k = .ok text) ∨
      Texts.bundled.get? k = none ∧ ∃ e, (project root ext t).componentText k = .error e := by
  have store := store?_bundled root ext t
  cases there : Texts.bundled.get? k with
  | some text =>
    left
    refine ⟨text, rfl, ?_⟩
    unfold Locator.componentText
    rw [store]
    simp [Store.memory, there, bind, Except.bind]
  | none =>
    right
    refine ⟨rfl, ?_⟩
    unfold Locator.componentText
    rw [store]
    cases (project root ext t).components with
    | error e => exact ⟨e, by simp [Store.memory, there, bind, Except.bind]⟩
    | ok ks => exact ⟨_, by simp [Store.memory, there, bind, Except.bind]; rfl⟩

theorem head?_of_named {rest : String} (made : Key.named ext (Names.components ++ "/" ++ rest) = .ok k) :
    k.name.toList.head? = some 'c' := by
  unfold Key.named at made
  cases key : Key.ofName? ext (Names.components ++ "/" ++ rest) with
  | none => simp [key] at made
  | some q =>
    obtain rfl : q = k := by simpa [key] using made
    obtain ⟨stem, cut, rfl⟩ := Option.map_eq_some_iff.mp key
    have first : Key.flatSegments Names.components.toList = [Names.components.toList] :=
      Key.flatSegments_of_isSegment (by decide)
    have flat : ∃ cs, Key.flat (Names.components ++ "/" ++ rest).toList = 'c' :: cs := by
      have chars : (Names.components ++ "/" ++ rest).toList = Names.components.toList ++ '/' :: rest.toList := by simp
      rw [Key.flat_eq_joined, chars, Key.flatSegments_append (.inl rfl), first]
      cases Key.flatSegments rest.toList with
      | nil => exact ⟨_, rfl⟩
      | cons s ss => exact ⟨_, rfl⟩
    obtain ⟨cs, flat⟩ := flat
    rw [flat] at cut
    rw [String.toList_ofList]
    rcases Key.stem?_eq_some cut with rfl | ⟨some_char, suffix, whole, -⟩
    · rfl
    · obtain ⟨c, rest, rfl⟩ := List.exists_cons_of_ne_nil some_char
      have same : 'c' = c := (List.cons.inj whole).1
      rw [← same]
      rfl

/-- The key that is meant by a name is that of a component or not bundled at all. -/
theorem isComponent_of_componentKey {l : Locator} (made : l.componentKey name = .ok k)
    (there : Texts.bundled.get? k = some text) : Texts.IsComponent k text := by
  refine ⟨there, ?_⟩
  have apart : ∀ e ∈ Texts.bundled, e.1.isUnder Names.components = true ∨ e.1.name.toList.head? ≠ some 'c' := by
    decide +kernel
  have either := apart _ (Texts.mem_of_get? there)
  unfold Locator.componentKey at made
  cases key : l.key name with
  | error f => simp [key, bind, Except.bind] at made
  | ok q =>
    simp only [key, bind, Except.bind] at made
    split at made
    · rename_i under
      obtain rfl := Except.ok.inj made
      exact under
    · exact either.resolve_right fun other => other (head?_of_named made)

theorem eject_eq (l : Locator) (root name : String) (t : FileTree) :
    l.eject root name t =
      match l.componentKey name with
      | .error e => (.error e, t)
      | .ok k =>
        match l.componentText k with
        | .error e => (.error e, t)
        | .ok text => Locator.place root l.extension k text t := by
  unfold Locator.eject
  rw [liftM_bind_apply]
  cases l.componentKey name with
  | error e => rfl
  | ok k =>
    dsimp only
    rw [liftM_bind_apply]
    cases l.componentText k with
    | error e => rfl
    | ok text => rfl

theorem componentKey_congr {l l' : Locator} (same : l.extension = l'.extension) (name : String) :
    l.componentKey name = l'.componentKey name := by
  unfold Locator.componentKey Locator.key
  rw [same]

/-- Ejecting by a name fails and does nothing, or places a component; which of them does not depend on the files. -/
theorem eject_cases (root ext name : String) :
    (∀ c t, ∃ e, (project root ext c).eject root name t = (.error e, t)) ∨
      ∃ k text, Texts.IsComponent k text ∧
        ∀ c t, (project root ext c).eject root name t = Locator.place root ext k text t := by
  have same (c : FileTree) : (project root ext c).componentKey name = (project root ext {}).componentKey name :=
    componentKey_congr ((project_extension root ext c).trans (project_extension root ext {}).symm) name
  cases key : (project root ext {}).componentKey name with
  | error e =>
    left
    intro c t
    refine ⟨e, ?_⟩
    rw [eject_eq, same, key]
  | ok k =>
    cases there : Texts.bundled.get? k with
    | some text =>
      right
      refine ⟨k, text, isComponent_of_componentKey key there, fun c t => ?_⟩
      rcases componentText_eq root ext c k with ⟨text', there', read⟩ | ⟨absent, -⟩
      · obtain rfl : text = text' := Option.some.inj (there.symm.trans there')
        rw [eject_eq, same, key, project_extension]
        simp only [read]
      · rw [there] at absent
        cases absent
    | none =>
      left
      intro c t
      rcases componentText_eq root ext c k with ⟨text', there', -⟩ | ⟨-, e, fails⟩
      · rw [there] at there'
        cases there'
      · refine ⟨e, ?_⟩
        rw [eject_eq, same, key]
        simp only [fails]

theorem eject_unknown (t : FileTree)
    (unknown : ∀ k, (project root ext t).componentKey name = .ok k → Texts.bundled.get? k = none) :
    ∃ e, (project root ext t).eject root name t = (.error e, t) := by
  rw [eject_eq]
  cases key : (project root ext t).componentKey name with
  | error e => exact ⟨e, rfl⟩
  | ok k =>
    rcases componentText_eq root ext t k with ⟨text, there, -⟩ | ⟨-, e, fails⟩
    · rw [unknown k key] at there
      cases there
    · exact ⟨e, by simp only [fails]⟩

/-! ## One creation after the other -/

/-- The file of a component. -/
def componentPath (root ext : String) (k : Key) : String := Path.join root (k.fileName ext)

/-- The names along which a component's directory is reached. -/
def directoryParts (root : String) : List Path.Part := Path.parts root.toList ++ [.name Names.components.toList]

/-- Something is created where nothing was: a directory on the way to the components, or the file of a component. -/
inductive Creates (root ext : String) (a : FileTree) : FileTree → Prop where
  | directory {front : List Path.Part} {q : Place} (before : front <+: directoryParts root) (some_part : front ≠ [])
      (leads : a.place false (Path.ofPartList front) = .ok q) (vacant : a.get? q = none) :
      Creates root ext a (a.set q .directory)
  | file {k : Key} {text : String} {q : Place} (component : Texts.IsComponent k text)
      (leads : a.place false (componentPath root ext k) = .ok q) (vacant : a.get? q = none) :
      Creates root ext a (a.set q (.file text.toUTF8))

theorem Creates.grows (creates : Creates root ext a b) : a.Grows b := by
  cases creates with
  | directory _ _ _ vacant => exact FileTree.grows_set vacant nofun
  | file _ _ vacant => exact FileTree.grows_set vacant nofun

/-- One creation after the other. -/
abbrev Grown (root ext : String) : FileTree → FileTree → Prop := Relation.ReflTransGen (Creates root ext)

theorem Grown.grows (grown : Grown root ext a b) : a.Grows b := by
  induction grown with
  | refl => exact .refl a
  | tail _ creates ih => exact ih.trans creates.grows

theorem Grown.get?_eq_file {q : Place} {bytes : ByteArray} (grown : Grown root ext a b)
    (there : b.get? q = some (.file bytes)) :
    a.get? q = some (.file bytes) ∨ a.get? q = none ∧ ∃ k text, Texts.IsComponent k text ∧
      b.place true (componentPath root ext k) = .ok q ∧ bytes = text.toUTF8 := by
  induction grown with
  | refl => exact .inl there
  | @tail b c before creates ih =>
    have kept (older : b.get? q = some (.file bytes)) :
        a.get? q = some (.file bytes) ∨ a.get? q = none ∧ ∃ k text, Texts.IsComponent k text ∧
          c.place true (componentPath root ext k) = .ok q ∧ bytes = text.toUTF8 := by
      rcases ih older with older | ⟨vacant, k, text, component, leads, same⟩
      · exact .inl older
      · exact .inr ⟨vacant, k, text, component, creates.grows.place leads, same⟩
    have grows := creates.grows
    cases creates with
    | @directory front p _ _ _ vacant =>
      rw [FileTree.get?_set (FileTree.ne_nil_of_vacant vacant)] at there
      split at there
      · cases there
      · exact kept there
    | @file k text p component leads vacant =>
      rw [FileTree.get?_set (FileTree.ne_nil_of_vacant vacant)] at there
      split at there
      · rename_i same
        subst same
        have untouched : a.get? q = none := by
          cases old : a.get? q with
          | none => rfl
          | some n =>
            rw [Grown.grows before |>.kept q n old] at vacant
            cases vacant
        refine .inr ⟨untouched, k, text, component, grows.place (FileTree.place_of_vacant leads vacant), ?_⟩
        cases there
        rfl
      · exact kept there

/-! ## Placing a component -/

theorem inDirectory_of_component (component : Texts.IsComponent k text) :
    ∃ f, (Names.components, f) ∈ Texts.bundledNames ∧ k.InDirectory Names.components f := by
  obtain ⟨there, under⟩ := component
  obtain ⟨d, f, listed, inside⟩ := Texts.inDirectory_of_bundled there
  have only : ∀ x ∈ Texts.bundledNames, (Key.mk (x.1 ++ "/" ++ x.2)).isUnder Names.components = true →
      x.1 = Names.components := by
    decide
  have key : Key.mk (d ++ "/" ++ f) = k := by
    rw [← inside.name_eq]
  obtain rfl : d = Names.components := only (d, f) listed (key ▸ under)
  exact ⟨f, listed, inside⟩

theorem pathBelow_eq_componentPath (component : Texts.IsComponent k text) (plain : '/' ∉ ext.toList) (root : String) :
    Store.pathBelow root ext k = componentPath root ext k := by
  obtain ⟨f, -, inside⟩ := inDirectory_of_component component
  rw [inside.pathBelow_eq plain, inside.behind_eq, componentPath]

theorem isName_components : ∀ n ∈ [Names.components], Path.IsName n.toList := by decide

theorem parts_directory (root : String) :
    Path.parts (Path.behind root [Names.components]).toList = directoryParts root := by
  have names : ∀ s ∈ [Names.components.toList], Path.IsName s := by simpa using isName_components
  rw [Path.behind_eq root isName_components, String.toList_ofList, List.map_singleton,
    Path.parts_lead root.toList names (List.cons_ne_nil _ _), List.map_singleton, directoryParts]

theorem parent_componentPath (component : Texts.IsComponent k text) (plain : '/' ∉ ext.toList) (root : String) :
    Path.parent (componentPath root ext k) = Path.behind root [Names.components] := by
  obtain ⟨f, -, inside⟩ := inDirectory_of_component component
  have all := inside.isName plain
  have split : [Names.components, f ++ "." ++ ext] = [Names.components] ++ [f ++ "." ++ ext] := rfl
  rw [split] at all
  rw [componentPath, ← inside.behind_eq, split]
  exact Path.parent_behind root all (List.cons_ne_nil _ _)

theorem parts_parent (component : Texts.IsComponent k text) (plain : '/' ∉ ext.toList) (root : String) :
    Path.parts (Path.parent (componentPath root ext k)).toList = directoryParts root := by
  rw [parent_componentPath component plain, parts_directory]

theorem grown_of_builds (built : Relation.ReflTransGen (FileTree.Builds (directoryParts root)) a b) :
    Grown root ext a b := by
  refine Relation.ReflTransGen.mono (fun c d builds => ?_) _ _ built
  obtain ⟨front, q, before, some_part, leads, vacant, rfl⟩ := builds
  exact .directory before some_part leads vacant

section Place

variable (component : Texts.IsComponent k text) (plain : '/' ∉ ext.toList)
include component plain

/-- Placing a component: the directory fails, or it is there and then the file is created, was there or fails. -/
theorem place_cases (t : FileTree) :
    ∃ c, Grown root ext t c ∧
      ((∃ e, Locator.place root ext k text t = (.error e, c)) ∨
        (∀ d, c.Grows d → FileTree.createDirectories (Path.parent (componentPath root ext k)) d = (.ok (), d)) ∧
          ((∃ q, c.place false (componentPath root ext k) = .ok q ∧ c.get? q = none ∧
              Locator.place root ext k text t =
                (.ok (.written (componentPath root ext k)), c.set q (.file text.toUTF8))) ∨
            ∃ q, c.place false (componentPath root ext k) = .ok q ∧ c.get? q ≠ none ∧
              Locator.place root ext k text t = (.ok (.skipped (componentPath root ext k)), c))) := by
  have path := pathBelow_eq_componentPath component plain root
  have parts := parts_parent component plain root
  obtain ⟨built, there⟩ := FileTree.createDirectories_builds (Path.parent (componentPath root ext k)) t
  rw [parts] at built
  unfold Locator.place
  rw [path]
  rcases first : FileTree.createDirectories (Path.parent (componentPath root ext k)) t with ⟨f | _, c⟩
  · rw [first] at built
    exact ⟨c, grown_of_builds built, .inl ⟨.file (Path.parent (componentPath root ext k)) f, by simp only [first]⟩⟩
  rw [first] at built there
  have some_part : Path.parts (Path.parent (componentPath root ext k)).toList ≠ [] := by
    rw [parts]
    simp [directoryParts]
  refine ⟨c, grown_of_builds built, ?_⟩
  have again (d : FileTree) (grows : c.Grows d) :
      FileTree.createDirectories (Path.parent (componentPath root ext k)) d = (.ok (), d) :=
    FileTree.createDirectories_of_isDirectory some_part (grows.isDirectory (there rfl some_part))
  cases created : c.create (componentPath root ext k) (.file text.toUTF8) with
  | ok d =>
    obtain ⟨q, leads, vacant, rfl⟩ := FileTree.create_eq_ok_iff.mp created
    exact .inr ⟨again, .inl ⟨q, leads, vacant, by simp only [first, created]⟩⟩
  | error f =>
    by_cases same : f = .exists
    · subst same
      obtain ⟨q, leads, there⟩ := FileTree.place_of_create_exists created
      exact .inr ⟨again, .inr ⟨q, leads, there, by simp only [first, created]⟩⟩
    · left
      refine ⟨.file (componentPath root ext k) f, ?_⟩
      simp only [first, created]

theorem place_grown (t : FileTree) : Grown root ext t (Locator.place root ext k text t).2 := by
  obtain ⟨c, grown, ⟨e, fails⟩ | ⟨-, ⟨q, leads, vacant, written⟩ | ⟨q, -, -, skipped⟩⟩⟩ :=
    place_cases component plain t
  · rw [fails]
    exact grown
  · rw [written]
    exact grown.tail (.file component leads vacant)
  · rw [skipped]
    exact grown

theorem place_again {o : Ejected} (placed : (Locator.place root ext k text t).1 = .ok o) :
    o.path = componentPath root ext k ∧ ∀ d, (Locator.place root ext k text t).2.Grows d →
      Locator.place root ext k text d = (.ok (.skipped o.path), d) := by
  have skip {c : FileTree} {q : Place} (leads : c.place false (componentPath root ext k) = .ok q)
      (there : c.get? q ≠ none)
      (again : FileTree.createDirectories (Path.parent (componentPath root ext k)) c = (.ok (), c)) :
      Locator.place root ext k text c = (.ok (.skipped (componentPath root ext k)), c) := by
    unfold Locator.place
    rw [pathBelow_eq_componentPath component plain root]
    simp only [again, FileTree.create_of_there leads there]
  obtain ⟨c, -, ⟨e, fails⟩ | ⟨again, ⟨q, leads, vacant, written⟩ | ⟨q, leads, there, skipped⟩⟩⟩ :=
    place_cases component plain t
  · rw [fails] at placed
    cases placed
  · rw [written] at placed ⊢
    obtain rfl := Except.ok.inj placed
    have grows : c.Grows (c.set q (.file text.toUTF8)) := FileTree.grows_set vacant nofun
    refine ⟨rfl, fun d later => ?_⟩
    have held : (c.set q (.file text.toUTF8)).get? q = some (.file text.toUTF8) := by
      rw [FileTree.get?_set (FileTree.ne_nil_of_vacant vacant), if_pos rfl]
    exact skip ((grows.trans later).place leads) (by simp [later.kept _ _ held]) (again d (grows.trans later))
  · rw [skipped] at placed ⊢
    obtain rfl := Except.ok.inj placed
    obtain ⟨n, held⟩ := Option.ne_none_iff_exists'.mp there
    refine ⟨rfl, fun d later => ?_⟩
    exact skip (later.place leads) (by simp [later.kept _ _ held]) (again d later)

theorem place_of_create_error {e : FileFault}
    (created : (FileTree.createDirectories (Path.behind root [Names.components]) t).1 = .ok ())
    (fails : (FileTree.createDirectories (Path.behind root [Names.components]) t).2.create
      (Store.pathBelow root ext k) (.file text.toUTF8) = .error e) :
    (Locator.place root ext k text t).2 =
      (FileTree.createDirectories (Path.behind root [Names.components]) t).2 := by
  unfold Locator.place
  rw [pathBelow_eq_componentPath component plain root] at fails ⊢
  rcases done : FileTree.createDirectories (Path.behind root [Names.components]) t with ⟨o, c⟩
  rw [done] at created fails
  obtain rfl : o = .ok () := created
  simp only [parent_componentPath component plain, done, fails]
  cases e <;> rfl

end Place

theorem ejectAll_eq (l : Locator) (root : String) (t : FileTree) :
    l.ejectAll root t =
      match l.components with
      | .error e => (.error e, t)
      | .ok ks => (ks.mapM fun k => l.eject root k.name) t := by
  unfold Locator.ejectAll
  rw [liftM_bind_apply]
  cases l.components with
  | error e => rfl
  | ok ks => rfl

/-- The components that are listed do not depend on the files. -/
theorem components_eq (root ext : String) (c c' : FileTree) :
    (project root ext c).components = (project root ext c').components := by
  unfold Locator.components
  rw [store?_bundled, store?_bundled]

section Calls

variable (plain : '/' ∉ ext.toList)
include plain

theorem eject_grown (root name : String) (c t : FileTree) :
    Grown root ext t ((project root ext c).eject root name t).2 := by
  rcases eject_cases root ext name with fails | ⟨k, text, component, places⟩
  · obtain ⟨e, fails⟩ := fails c t
    rw [fails]
  · rw [places]
    exact place_grown component plain t

theorem eject_again {o : Ejected} {c t : FileTree} (done : ((project root ext c).eject root name t).1 = .ok o) :
    (∃ k text, Texts.IsComponent k text ∧ o.path = componentPath root ext k) ∧
      ∀ c' d, ((project root ext c).eject root name t).2.Grows d →
        (project root ext c').eject root name d = (.ok (.skipped o.path), d) := by
  rcases eject_cases root ext name with fails | ⟨k, text, component, places⟩
  · obtain ⟨e, fails⟩ := fails c t
    rw [fails] at done
    cases done
  · rw [places] at done
    obtain ⟨path, again⟩ := place_again component plain done
    refine ⟨⟨k, text, component, path⟩, fun c' d later => ?_⟩
    rw [places] at later ⊢
    exact again d later

/-- Several names one after the other: nothing is created but for them. -/
theorem mapM_eject_grown (root : String) (c : FileTree) (ks : List Key) (t : FileTree) :
    Grown root ext t ((ks.mapM fun k => (project root ext c).eject root k.name) t).2 := by
  induction ks generalizing t with
  | nil => exact .refl
  | cons k ks ih =>
    have first := eject_grown plain root k.name c t
    rw [mapM_cons_apply]
    rcases done : (project root ext c).eject root k.name t with ⟨e | o, d⟩
    · rw [done] at first
      exact first
    · rw [done] at first
      have rest := ih d
      dsimp only
      rcases done' : (ks.mapM fun k => (project root ext c).eject root k.name) d with ⟨e | os, d'⟩
      · rw [done'] at rest ⊢
        exact first.trans rest
      · rw [done'] at rest ⊢
        exact first.trans rest

theorem mapM_eject_again {root : String} {c : FileTree} {ks : List Key} {t : FileTree} {os : List Ejected}
    (done : ((ks.mapM fun k => (project root ext c).eject root k.name) t).1 = .ok os) :
    (∀ o ∈ os, ∃ k text, Texts.IsComponent k text ∧ o.path = componentPath root ext k) ∧
      ∀ c' d, ((ks.mapM fun k => (project root ext c).eject root k.name) t).2.Grows d →
        (ks.mapM fun k => (project root ext c').eject root k.name) d = (.ok (os.map fun o => .skipped o.path), d) := by
  induction ks generalizing t os with
  | nil =>
    obtain rfl : [] = os := Except.ok.inj done
    exact ⟨by simp, fun c' d _ => mapM_nil_apply _ d⟩
  | cons k ks ih =>
    rw [mapM_cons_apply] at done ⊢
    rcases first : (project root ext c).eject root k.name t with ⟨e | o, t'⟩
    · rw [first] at done
      cases done
    rw [first] at done
    dsimp only at done ⊢
    rcases rest : (ks.mapM fun k => (project root ext c).eject root k.name) t' with ⟨e | os', t''⟩
    · rw [rest] at done
      cases done
    rw [rest] at done ⊢
    obtain rfl : o :: os' = os := Except.ok.inj done
    have first_done : ((project root ext c).eject root k.name t).1 = .ok o := by rw [first]
    have rest_done : ((ks.mapM fun k => (project root ext c).eject root k.name) t').1 = .ok os' := by rw [rest]
    have grows : t'.Grows t'' := by
      have grown := mapM_eject_grown plain root c ks t'
      rw [rest] at grown
      exact grown.grows
    obtain ⟨placed, again⟩ := eject_again plain first_done
    obtain ⟨all, again_all⟩ := ih rest_done
    rw [first] at again
    rw [rest] at again_all
    refine ⟨?_, fun c' d later => ?_⟩
    · intro o' listed
      rcases List.mem_cons.mp listed with rfl | later
      · exact placed
      · exact all o' later
    · rw [mapM_cons_apply, again c' d (grows.trans later)]
      dsimp only
      rw [again_all c' d later, List.map_cons]

theorem ejectAll_grown (root : String) (c t : FileTree) :
    Grown root ext t ((project root ext c).ejectAll root t).2 := by
  rw [ejectAll_eq]
  cases (project root ext c).components with
  | error e => exact .refl
  | ok ks => exact mapM_eject_grown plain root c ks t

theorem ejectAll_again {root : String} {c t : FileTree} {os : List Ejected}
    (done : ((project root ext c).ejectAll root t).1 = .ok os) :
    (∀ o ∈ os, ∃ k text, Texts.IsComponent k text ∧ o.path = componentPath root ext k) ∧
      ∀ c' d, ((project root ext c).ejectAll root t).2.Grows d →
        (project root ext c').ejectAll root d = (.ok (os.map fun o => .skipped o.path), d) := by
  have listed (c' d : FileTree) : (project root ext c').ejectAll root d =
      match (project root ext c).components with
      | .error e => (.error e, d)
      | .ok ks => (ks.mapM fun k => (project root ext c').eject root k.name) d := by
    rw [ejectAll_eq, components_eq root ext c' c]
  rw [listed] at done ⊢
  simp only [listed]
  cases components : (project root ext c).components with
  | error e =>
    rw [components] at done
    cases done
  | ok ks =>
    rw [components] at done
    exact mapM_eject_again plain done

end Calls

end Ejection
end Pageweave
