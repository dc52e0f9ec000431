import Pageweave.Proofs.Ejecting.Creating
import Pageweave.Proofs.Store.Reading
/-!
# Ejecting and what is served

What a project serves stays what it is while components are ejected. A creation along the moves of the root either puts a
component's text where it is looked for, or leads to places where nothing else is. It must not open a way to what was
there before: a root that is not there must not climb out of directories that are not there either, and names must fit,
since a name that is too long is found out as soon as its directory is there.
-/
namespace Pageweave.Ejection

open Text FileTree

variable {root ext : String} {k : Key} {text d f : String} {t a b : FileTree} {p q : Place} {n : Node}

/-- Where a root leads. -/
def leads (t : FileTree) (root : String) (ss : List Step) : Except FileFault Place :=
  t.walk true mostLinks (t.beginning root) ss

/-- A creation, seen from the root: on the way to it, or behind it on the way to a component. -/
inductive Along (root ext : String) (a : FileTree) (q : Place) : Node → Prop where
  | root {ss rest : List Step} (front : moves root = ss ++ rest) (ends : leads a root ss = .ok q) :
      Along root ext a q .directory
  | directory (ends : leads a root (moves root ++ [Names.components].map .name) = .ok q) : Along root ext a q .directory
  | file {k : Key} {text f : String} (component : Texts.IsComponent k text) (inside : k.InDirectory Names.components f)
      (ends : leads a root (moves root ++ [Names.components, f ++ "." ++ ext].map .name) = .ok q) :
      Along root ext a q (.file text.toUTF8)

theorem moves_directoryParts (root : String) :
    (directoryParts root).filterMap moveOf? = moves root ++ [Names.components].map .name := by
  have own := moves_eq_parts root.toList
  rw [String.ofList_toList] at own
  rw [directoryParts, List.filterMap_append, own]
  rfl

theorem Creates.along (plain : '/' ∉ ext.toList) (creates : Creates root ext a b) :
    ∃ q n, Along root ext a q n ∧ a.get? q = none ∧ b = a.set q n ∧ (∃ through path, a.place through path = .ok q) := by
  cases creates with
  | @directory front q before some_part reached vacant =>
    refine ⟨q, .directory, ?_, vacant, rfl, false, _, reached⟩
    have followed := walk_of_vacant (walk_of_place reached (by simp [vacant])) vacant
    rw [← parts_directory] at before
    have moved := moves_ofPartList before
    have begins : a.beginning (Path.ofPartList front) = a.beginning root := by
      unfold beginning
      rw [moved.2 some_part, isAbsolute_behind root isName_components]
    rw [moved.1, begins] at followed
    rw [parts_directory] at before
    have within : front.filterMap moveOf? <+: moves root ++ [Names.components].map .name := by
      rw [← moves_directoryParts]
      exact before.filterMap moveOf?
    rw [List.map_singleton] at within
    rcases List.prefix_concat_iff.mp within with whole | ⟨rest, front_eq⟩
    · rw [whole] at followed
      exact .directory followed
    · exact .root front_eq.symm followed
  | @file k text q component reached vacant =>
    refine ⟨q, _, ?_, vacant, rfl, false, _, reached⟩
    obtain ⟨f, -, inside⟩ := inDirectory_of_component component
    have all := inside.isName plain
    have path : componentPath root ext k = Path.behind root [Names.components, f ++ "." ++ ext] :=
      (inside.behind_eq root).symm
    have followed := place_of_vacant reached vacant
    have open_ : refusal? (Path.behind root [Names.components, f ++ "." ++ ext]) = none := by
      rw [path, place_eq] at followed
      cases refused : refusal? (Path.behind root [Names.components, f ++ "." ++ ext]) with
      | none => rfl
      | some e => simp [refused] at followed
    rw [path, place_moves a true root all (List.cons_ne_nil _ _) open_] at followed
    exact .file component inside followed

/-! ## Roots that fit -/

/-- Every name of a root is short, and it climbs only out of what is there. -/
structure Creatable (root : String) (t : FileTree) : Prop where
  short : ∀ n, .name n ∈ moves root → n.utf8ByteSize ≤ longestName
  climbs : ∀ front rest, moves root = front ++ .up :: rest → ∃ p, leads t root (front ++ [.up]) = .ok p

/-- A tree in which all hangs together, with a root that is there or may be created and has no links below it, and names
of components that are short enough for files. -/
structure Fits (root ext : String) (t : FileTree) : Prop where
  whole : t.HangsTogether
  linkFree : ∀ p, leads t root (moves root) = .ok p → t.LinkFreeBelow p
  short : ∀ k text, Texts.IsComponent k text → (k.baseName ++ "." ++ ext).utf8ByteSize ≤ longestName
  root : (∃ p, leads t root (moves root) = .ok p ∧ t.get? p = some .directory) ∨ Creatable root t

theorem leads_of_grows (grows : a.Grows b) {ss : List Step} (ends : leads a root ss = .ok p) :
    leads b root ss = .ok p := by
  unfold Ejection.leads at ends ⊢
  rw [grows.beginning]
  exact grows.walk ends

theorem Fits.name_next (fits : Fits root ext a) {ss rest : List Step} {s : Step} (front : moves root = ss ++ s :: rest)
    (ends : leads a root ss = .ok q) (vacant : a.get? q = none) :
    ∃ n : String, s = .name n ∧ n.utf8ByteSize ≤ longestName := by
  have blocked (more : List Step) (some_step : more ≠ []) : leads a root (ss ++ more) = .error .missing := by
    obtain ⟨links, goes⟩ := walk_append ends some_step
    unfold leads
    rw [goes, walk_eq, walkBy_obstacle (by simp [vacant]) some_step, obstacle, vacant]
  rcases fits.root with ⟨p, there, -⟩ | creatable
  · rw [front, blocked _ (by simp)] at there
    cases there
  · cases s with
    | here =>
      have absent : Step.here ∉ moves root := by simp [moves, moving]
      exact absurd (front ▸ by simp) absent
    | up =>
      obtain ⟨p, climbs⟩ := creatable.climbs ss rest front
      rw [blocked _ (by simp)] at climbs
      cases climbs
    | name n => exact ⟨n, rfl, creatable.short n (front ▸ by simp)⟩

theorem vacant_behind (whole : a.HangsTogether) (vacant : a.get? q = none) (n : Node) {p : Place} (below : q <+: p)
    (other : p ≠ q) : (a.set q n).get? p = none := by
  rw [get?_set (ne_nil_of_vacant vacant), if_neg other]
  exact whole.vacant_below vacant below

theorem leads_new_directory (whole : a.HangsTogether) (vacant : a.get? q = none) {ss rest : List Step} {n : String}
    (ends : leads a root ss = .ok q) (short : n.utf8ByteSize ≤ longestName) :
    leads (a.set q .directory) root (ss ++ .name n :: rest) =
      if rest.isEmpty then .ok (q ++ [n]) else .error .missing := by
  have grows : a.Grows (a.set q .directory) := grows_set vacant nofun
  have directory : (a.set q .directory).get? q = some .directory := by
    rw [get?_set (ne_nil_of_vacant vacant), if_pos rfl]
  have nothing : (a.set q .directory).get? (q ++ [n]) = none :=
    vacant_behind whole vacant .directory (List.prefix_append q [n]) (by simp)
  obtain ⟨links, goes⟩ := walk_append (leads_of_grows grows ends) (List.cons_ne_nil (.name n) rest)
  unfold leads
  rw [goes, walk_empty directory nothing short]

theorem place_eq_of_leads (fits : Fits root ext a) {ns : List String} (some_name : ns ≠ [])
    (ends : leads a root (moves root ++ ns.map .name) = .ok q) :
    ∃ p, leads a root (moves root) = .ok p ∧ q = p ++ ns := by
  obtain ⟨p, there⟩ := exists_walk_front ends
  obtain ⟨links, goes⟩ := walk_append there (show ns.map Step.name ≠ [] by simpa using some_name)
  unfold leads at ends
  rw [goes] at ends
  exact ⟨p, there, (walk_names_eq_ok (fits.linkFree p there) ends).1⟩

/-- Names behind the root lead past a creation that does not lie on the way. -/
theorem leads_past (fits : Fits root ext a) (vacant : a.get? q = none) (no_link : ∀ target, n ≠ .link target)
    {ns : List String} (some_name : ns ≠ []) (there : leads a root (moves root) = .ok p)
    (past : ∀ front, front <+: ns → p ++ front ≠ q) :
    leads (a.set q n) root (moves root ++ ns.map .name) = leads a root (moves root ++ ns.map .name) := by
  have grows : a.Grows (a.set q n) := grows_set vacant no_link
  have some_step : ns.map Step.name ≠ [] := by simpa using some_name
  obtain ⟨links, goes⟩ := walk_append there some_step
  obtain ⟨links', goes'⟩ := walk_append (leads_of_grows grows there) some_step
  unfold leads
  rw [goes, goes']
  refine walk_names_agree (fits.linkFree p there) fun front before => ?_
  rw [get?_set (ne_nil_of_vacant vacant), if_neg (past front before)]

theorem linkFree_set (free : a.LinkFreeBelow p) (vacant : a.get? q = none) (no_link : ∀ target, n ≠ .link target) :
    (a.set q n).LinkFreeBelow p := fun x below target there =>
  free x below target ((grows_set vacant no_link).no_link x target there)

theorem Along.root_there (along : Along root ext a q n) :
    (∃ ss s rest, moves root = ss ++ s :: rest ∧ leads a root ss = .ok q ∧ n = .directory) ∨
      ∃ p, leads a root (moves root) = .ok p := by
  cases along with
  | @root ss rest front ends =>
    cases rest with
    | nil =>
      rw [List.append_nil] at front
      exact .inr ⟨q, front ▸ ends⟩
    | cons s rest => exact .inl ⟨ss, s, rest, front, ends, rfl⟩
  | directory ends => exact .inr (exists_walk_front ends)
  | file _ _ ends => exact .inr (exists_walk_front ends)

theorem Fits.set (fits : Fits root ext a) (along : Along root ext a q n) (vacant : a.get? q = none)
    (reached : ∃ through path, a.place through path = .ok q) : Fits root ext (a.set q n) where
  whole := by
    obtain ⟨through, path, reached⟩ := reached
    exact fits.whole.set vacant (fits.whole.parent_of_place reached vacant) n
  linkFree p ends := by
    have no_link : ∀ target, n ≠ .link target := by
      cases along <;> exact nofun
    rcases along.root_there with ⟨ss, s, rest, front, reached, rfl⟩ | ⟨p', there⟩
    · obtain ⟨m, rfl, short⟩ := fits.name_next front reached vacant
      rw [front, leads_new_directory fits.whole vacant reached short] at ends
      split at ends
      · obtain rfl := Except.ok.inj ends
        intro x below target link
        have nothing := vacant_behind fits.whole vacant .directory ((List.prefix_append q [m]).trans below) (by
          rintro rfl
          have long := below.length_le
          rw [List.length_append, List.length_singleton] at long
          omega)
        rw [nothing] at link
        cases link
      · cases ends
    · have same := leads_of_grows (grows_set vacant no_link) there
      obtain rfl : p' = p := Except.ok.inj (same.symm.trans ends)
      exact linkFree_set (fits.linkFree p' there) vacant no_link
  short := fits.short
  root := by
    have no_link : ∀ target, n ≠ .link target := by
      cases along <;> exact nofun
    have grows : a.Grows (a.set q n) := grows_set vacant no_link
    rcases fits.root with ⟨p, there, directory⟩ | creatable
    · exact .inl ⟨p, leads_of_grows grows there, grows.kept p _ directory⟩
    · refine .inr ⟨creatable.short, fun front rest climbs => ?_⟩
      obtain ⟨p, ends⟩ := creatable.climbs front rest climbs
      exact ⟨p, leads_of_grows grows ends⟩

/-- What a walk that comes to an end finds there. -/
def finds (t : FileTree) (reached : Except FileFault Place) : Except FileFault Node :=
  match reached with
  | .error e => .error e
  | .ok p =>
    match t.get? p with
    | some n => .ok n
    | none => .error .missing

theorem baseName_eq (inside : k.InDirectory d f) : k.baseName = f := by
  have chars : k.name.toList = joined '/' ([d, f].map String.toList) := by
    rw [inside.name_eq]
    simp [joined]
  have absent : ∀ s ∈ [d, f].map String.toList, '/' ∉ s := by
    intro s listed
    simp only [List.map_cons, List.map_nil, List.mem_cons, List.not_mem_nil, or_false] at listed
    rcases listed with rfl | rfl
    · exact inside.directory.2.2.2
    · exact inside.no_slash
  rw [Key.baseName, Key.segments, chars, pieces_joined absent (by simp)]
  simp

theorem isUnder_of_names (listed : (Names.components, f) ∈ Texts.bundledNames)
    (inside : k.InDirectory Names.components f) : k.isUnder Names.components = true := by
  have all : ∀ x ∈ Texts.bundledNames, x.1 = Names.components →
      (Key.mk (x.1 ++ "/" ++ x.2)).isUnder Names.components = true := by
    decide
  have under := all _ listed rfl
  rwa [← inside.name_eq] at under

/-- What names behind the root find past a creation is what they found before. -/
theorem finds_past (fits : Fits root ext a) (vacant : a.get? q = none) (no_link : ∀ target, n ≠ .link target)
    {ns : List String} (some_name : ns ≠ []) (there : leads a root (moves root) = .ok p)
    (past : ∀ front, front <+: ns → p ++ front ≠ q) :
    finds (a.set q n) (leads (a.set q n) root (moves root ++ ns.map .name)) =
      finds a (leads a root (moves root ++ ns.map .name)) := by
  rw [leads_past fits vacant no_link some_name there past]
  cases ends : leads a root (moves root ++ ns.map .name) with
  | error e => rfl
  | ok x =>
    obtain ⟨p', there', rfl⟩ := place_eq_of_leads fits some_name ends
    obtain rfl : p = p' := Except.ok.inj (there.symm.trans there')
    simp only [finds, get?_set (ne_nil_of_vacant vacant), if_neg (past ns (List.prefix_refl ns))]

/-- What is found where a project has a bundled template. -/
def looksUp (root ext : String) (t : FileTree) (d f : String) : Except FileFault Node :=
  finds t (leads t root (moves root ++ [d, f ++ "." ++ ext].map .name))

theorem looksUp_past (fits : Fits root ext a) (vacant : a.get? q = none) (no_link : ∀ target, n ≠ .link target)
    (there : leads a root (moves root) = .ok p) (past : ∀ front, front <+: [d, f ++ "." ++ ext] → p ++ front ≠ q) :
    looksUp root ext (a.set q n) d f = looksUp root ext a d f :=
  finds_past fits vacant no_link (List.cons_ne_nil _ _) there past

/-- Behind a new directory on the way to the root nothing is found. -/
theorem looksUp_of_root (fits : Fits root ext a) (vacant : a.get? q = none) (listed : (d, f) ∈ Texts.bundledNames)
    {ss rest : List Step} (front : moves root = ss ++ rest) (ends : leads a root ss = .ok q) :
    looksUp root ext (a.set q .directory) d f = .error .missing := by
  unfold looksUp
  cases rest with
  | nil =>
    have short : d.utf8ByteSize ≤ longestName := by
      have all : ∀ x ∈ Texts.bundledNames, x.1.utf8ByteSize ≤ longestName := by decide
      exact all _ listed
    rw [List.append_nil] at front
    rw [front, List.map_cons, leads_new_directory fits.whole vacant ends short]
    rfl
  | cons s rest =>
    obtain ⟨m, rfl, short⟩ := fits.name_next front ends vacant
    rw [front, List.append_assoc, List.cons_append, leads_new_directory fits.whole vacant ends short]
    simp [finds]

theorem looksUp_of_directory (fits : Fits root ext a) (vacant : a.get? q = none)
    (listed : (d, f) ∈ Texts.bundledNames) (inside : k.InDirectory d f) (there : Texts.bundled.get? k = some text)
    (missing : looksUp root ext a d f = .error .missing)
    (ends : leads a root (moves root ++ [Names.components].map .name) = .ok q) :
    looksUp root ext (a.set q .directory) d f = .error .missing := by
  obtain ⟨p, root_there, rfl⟩ := place_eq_of_leads fits (List.cons_ne_nil _ _) ends
  by_cases same : d = Names.components
  · subst same
    have short := fits.short k text ⟨there, isUnder_of_names listed inside⟩
    rw [baseName_eq inside] at short
    have split : moves root ++ [Names.components, f ++ "." ++ ext].map .name =
        (moves root ++ [Names.components].map .name) ++ .name (f ++ "." ++ ext) :: [] := by simp
    have nothing := vacant_behind fits.whole vacant .directory
      (List.prefix_append (p ++ [Names.components]) [f ++ "." ++ ext]) (by simp)
    unfold looksUp
    rw [split, leads_new_directory fits.whole vacant ends short]
    simp only [finds, List.isEmpty_nil, if_true, nothing]
  · rw [looksUp_past (n := .directory) fits vacant nofun root_there, missing]
    intro front before meets
    obtain rfl := List.append_cancel_left meets
    exact same (List.cons_prefix_cons.mp before).1.symm

theorem looksUp_of_file {k' : Key} {text' f' : String} (fits : Fits root ext a) (vacant : a.get? q = none)
    (inside : k.InDirectory d f) (there : Texts.bundled.get? k = some text)
    (missing : looksUp root ext a d f = .error .missing) (component : Texts.IsComponent k' text')
    (inside' : k'.InDirectory Names.components f')
    (ends : leads a root (moves root ++ [Names.components, f' ++ "." ++ ext].map .name) = .ok q) :
    looksUp root ext (a.set q (.file text'.toUTF8)) d f = .error .missing ∨
      looksUp root ext (a.set q (.file text'.toUTF8)) d f = .ok (.file text.toUTF8) := by
  obtain ⟨p, root_there, rfl⟩ := place_eq_of_leads fits (List.cons_ne_nil _ _) ends
  by_cases same : d = Names.components ∧ f = f'
  · obtain ⟨rfl, rfl⟩ := same
    right
    have same_name : k.name = k'.name := inside.name_eq.trans inside'.name_eq.symm
    obtain rfl : k = k' := by
      cases k
      cases k'
      exact congrArg Key.mk same_name
    obtain rfl : text = text' := Option.some.inj (there.symm.trans component.1)
    have grows : a.Grows (a.set _ (.file text.toUTF8)) := grows_set vacant nofun
    unfold looksUp
    rw [leads_of_grows grows ends]
    simp only [finds, get?_set (ne_nil_of_vacant vacant), if_pos]
  · left
    rw [looksUp_past (n := .file text'.toUTF8) fits vacant nofun root_there, missing]
    intro front before meets
    obtain rfl := List.append_cancel_left meets
    have whole := before.eq_of_length rfl
    simp only [List.cons.injEq, String.append_left_inj, and_true] at whole
    exact same ⟨whole.1.symm, whole.2.symm⟩

/-- A bundled template that is missing in the project is still missing there after a creation, or it has become a file
with the same text. -/
theorem looksUp_set (fits : Fits root ext a) (along : Along root ext a q n) (vacant : a.get? q = none)
    (listed : (d, f) ∈ Texts.bundledNames) (inside : k.InDirectory d f) (there : Texts.bundled.get? k = some text)
    (missing : looksUp root ext a d f = .error .missing) :
    looksUp root ext (a.set q n) d f = .error .missing ∨
      looksUp root ext (a.set q n) d f = .ok (.file text.toUTF8) := by
  cases along with
  | root front ends => exact .inl (looksUp_of_root fits vacant listed front ends)
  | directory ends => exact .inl (looksUp_of_directory fits vacant listed inside there missing ends)
  | file component inside' ends => exact looksUp_of_file fits vacant inside there missing component inside' ends

theorem node_eq_looksUp (plain : '/' ∉ ext.toList) (inside : k.InDirectory d f)
    (open_ : refusal? (Store.pathBelow root ext k) = none) (t : FileTree) :
    t.node true (Store.pathBelow root ext k) = looksUp root ext t d f := by
  rw [inside.pathBelow_eq plain] at open_ ⊢
  rw [node_eq, place_moves t true root (inside.isName plain) (List.cons_ne_nil _ _) open_]
  rfl

theorem refusal?_of_missing {path : String} (some_char : path ≠ "") (missing : t.node true path = .error .missing) :
    refusal? path = none := by
  cases refused : refusal? path with
  | none => rfl
  | some e =>
    rw [node_eq, FileTree.place_eq, refused] at missing
    exact absurd (Except.error.inj missing) (ne_missing_of_refusal? refused some_char)

/-! ## What is served -/

/-- The text that a key stands for in a project. -/
def Serves (root ext : String) (t : FileTree) (k : Key) (text : String) : Prop :=
  ∃ s, (project root ext t).find k = .ok (some s) ∧ s.text = text

theorem serves_iff : Serves root ext t k text ↔
    Store.readBelow t root ext k = .ok (some text) ∨
      Store.readBelow t root ext k = .ok none ∧ Texts.bundled.get? k = some text := by
  unfold Serves
  simp only [Locator.find, Stack.locator, Stack.standard, List.map_cons, List.map_nil, Origin.store, Locator.findIn,
    Store.directory, Store.memory]
  cases read : Store.readBelow t root ext k with
  | error e => simp
  | ok text? =>
    cases text? with
    | some own => simp
    | none => cases Texts.bundled.get? k <;> simp

theorem decode_toUTF8 (text : String) : decode text.toUTF8 = .ok text := by
  have valid : text.toUTF8.IsValidUTF8 := text.isValidUTF8
  have whole : String.fromUTF8? text.toUTF8 = some text := by
    unfold String.fromUTF8?
    rw [dif_pos valid]
    rfl
  unfold decode
  rw [whole]

theorem readBelow_of_grows (grows : a.Grows b) (read : Store.readBelow a root ext k = .ok (some text)) :
    Store.readBelow b root ext k = .ok (some text) := by
  have contained := Store.contained_of_isSome read rfl
  obtain ⟨bytes, there⟩ := (Store.readBelow_eq_ok contained read).1.mp rfl
  rw [Store.readBelow_congr ((grows.node there).trans there.symm), read]

/-- One creation changes nothing of what is served. -/
theorem Creates.serves (plain : '/' ∉ ext.toList) (fits : Fits root ext a) (creates : Creates root ext a b)
    (serves : Serves root ext a k text) : Serves root ext b k text := by
  have grows := creates.grows
  rcases serves_iff.mp serves with own | ⟨nothing, there⟩
  · exact serves_iff.mpr (.inl (readBelow_of_grows grows own))
  obtain ⟨d, f, listed, inside⟩ := Texts.inDirectory_of_bundled there
  have contained : k.isContained = true := by
    have bundled : ∀ e ∈ Texts.bundled, e.1.isContained = true := by decide +kernel
    exact bundled _ (Texts.mem_of_get? there)
  have reading := Store.readBelow_eq_ok contained nothing
  cases reached : a.node true (Store.pathBelow root ext k) with
  | ok n =>
    -- What is there but no file stays so.
    have same := Store.readBelow_congr (e := ext) ((grows.node reached).trans reached.symm)
    exact serves_iff.mpr (.inr ⟨same.trans nothing, there⟩)
  | error f =>
    obtain rfl := reading.2 f reached
    have some_char : Store.pathBelow root ext k ≠ "" := by
      rw [inside.pathBelow_eq plain]
      exact behind_ne_empty (inside.isName plain) (List.cons_ne_nil _ _)
    have looks_up := node_eq_looksUp plain inside (refusal?_of_missing some_char reached)
    rw [looks_up] at reached
    obtain ⟨q, n, along, vacant, rfl, -⟩ := creates.along plain
    rcases looksUp_set fits along vacant listed inside there reached with missing | file
    · rw [← looks_up] at missing
      exact serves_iff.mpr (.inr ⟨Store.readBelow_of_missing missing, there⟩)
    · rw [← looks_up] at file
      refine serves_iff.mpr (.inl ?_)
      unfold Store.readBelow
      simp only [contained, if_true, file, decode_toUTF8]

theorem Creates.fits (plain : '/' ∉ ext.toList) (fits : Fits root ext a) (creates : Creates root ext a b) :
    Fits root ext b := by
  obtain ⟨q, n, along, vacant, rfl, reached⟩ := creates.along plain
  exact fits.set along vacant reached

/-- However much is created, all that was served is served as it was. -/
theorem Grown.serves (plain : '/' ∉ ext.toList) (fits : Fits root ext a) (grown : Grown root ext a b)
    (serves : Serves root ext a k text) : Serves root ext b k text := by
  suffices Fits root ext b ∧ Serves root ext b k text from this.2
  induction grown with
  | refl => exact ⟨fits, serves⟩
  | tail _ creates ih => exact ⟨creates.fits plain ih.1, creates.serves plain ih.1 ih.2⟩

theorem resolve_iff : (∃ s, (project root ext t).resolve k = .ok s ∧ s.text = text) ↔ Serves root ext t k text := by
  unfold Serves Locator.resolve
  cases (project root ext t).find k with
  | error e => simp
  | ok s? => cases s? <;> simp

/-! ## Any ejecting at all -/

/-- What becomes of the files by ejecting: components by name or all of them, also in turns and not to the end, as they
are when several are ejected at once. -/
inductive Runs (root ext : String) (t : FileTree) : FileTree → Prop where
  | start : Runs root ext t t
  | one {c : FileTree} (name : String) (before : Runs root ext t c) :
      Runs root ext t ((project root ext c).eject root name c).2
  | all {c : FileTree} (before : Runs root ext t c) : Runs root ext t ((project root ext c).ejectAll root c).2
  | directories {c : FileTree} {k : Key} {text : String} (component : Texts.IsComponent k text)
      (before : Runs root ext t c) :
      Runs root ext t (createDirectories (Path.parent (Store.pathBelow root ext k)) c).2
  | file {c d : FileTree} {k : Key} {text : String} (component : Texts.IsComponent k text) (before : Runs root ext t c)
      (created : c.create (Store.pathBelow root ext k) (.file text.toUTF8) = .ok d) : Runs root ext t d

theorem Runs.grown (plain : '/' ∉ ext.toList) (runs : Runs root ext a b) : Grown root ext a b := by
  induction runs with
  | start => exact .refl
  | one name _ ih => exact ih.trans (eject_grown plain root name _ _)
  | all _ ih => exact ih.trans (ejectAll_grown plain root _ _)
  | @directories c k text component _ ih =>
    rw [pathBelow_eq_componentPath component plain root]
    have built := (createDirectories_builds (Path.parent (componentPath root ext k)) c).1
    rw [parts_parent component plain root] at built
    exact ih.trans (grown_of_builds built)
  | file component _ created ih =>
    rw [pathBelow_eq_componentPath component plain root] at created
    obtain ⟨q, reached, vacant, rfl⟩ := create_eq_ok_iff.mp created
    exact ih.tail (.file component reached vacant)

/-- Whatever is ejected, every file keeps its bytes, and a new one is that of a bundled component, with its text. All that
was served is served as it was, if the project fits. A name of no component does nothing at all. What was placed, or was
there, is skipped from then on, and nothing is changed. -/
theorem ejecting_keeps (plain : '/' ∉ ext.toList) (runs : Runs root ext a b) :
    (∀ q bytes, a.get? q = some (.file bytes) → b.get? q = some (.file bytes)) ∧
    (∀ q bytes, b.get? q = some (.file bytes) → a.get? q = some (.file bytes) ∨
      a.get? q = none ∧ ∃ k text, Texts.IsComponent k text ∧ b.place true (componentPath root ext k) = .ok q ∧
        bytes = text.toUTF8) ∧
    (Fits root ext a → ∀ k s, (project root ext a).resolve k = .ok s →
      ∃ s', (project root ext b).resolve k = .ok s' ∧ s'.text = s.text) ∧
    (∀ name, (∀ k, (project root ext b).componentKey name = .ok k → Texts.bundled.get? k = none) →
      ∃ e, (project root ext b).eject root name b = (.error e, b)) ∧
    (∀ name o, ((project root ext b).eject root name b).1 = .ok o →
      (∃ k text, Texts.IsComponent k text ∧ o.path = componentPath root ext k) ∧
      ∀ c, Runs root ext ((project root ext b).eject root name b).2 c →
        (project root ext c).eject root name c = (.ok (.skipped o.path), c)) ∧
    (∀ os, ((project root ext b).ejectAll root b).1 = .ok os →
      (∀ o ∈ os, ∃ k text, Texts.IsComponent k text ∧ o.path = componentPath root ext k) ∧
      ∀ c, Runs root ext ((project root ext b).ejectAll root b).2 c →
        (project root ext c).ejectAll root c = (.ok (os.map fun o => .skipped o.path), c)) := by
  have grown := runs.grown plain
  refine ⟨fun q bytes => grown.grows.kept q _, fun q bytes => Grown.get?_eq_file grown, ?_,
    fun name => eject_unknown b, ?_, ?_⟩
  · intro fits k s resolved
    exact resolve_iff.mpr (Grown.serves plain fits grown (resolve_iff.mp ⟨s, resolved, rfl⟩))
  · intro name o done
    obtain ⟨placed, again⟩ := eject_again plain done
    exact ⟨placed, fun c later => again c c (later.grown plain).grows⟩
  · intro os done
    obtain ⟨placed, again⟩ := ejectAll_again plain done
    exact ⟨placed, fun c later => again c c (later.grown plain).grows⟩

/-- A project with one page. -/
def home : FileTree where
  nodes := [(["Templates"], .directory), (["Templates", "page.html"], .file "page".toUTF8)]

theorem fits_home : Fits "Templates" "html" home where
  whole := hangsTogether_of_nodes fun e listed => by
    rw [home, List.mem_pair] at listed
    rcases listed with rfl | rfl <;> rfl
  linkFree p _ := linkFreeBelow_of_nodes (by simp [home]) p
  short k text component := by
    obtain ⟨f, listed, inside⟩ := inDirectory_of_component component
    have all : ∀ x ∈ Texts.bundledNames, (x.2 ++ "." ++ "html").utf8ByteSize ≤ longestName := by decide
    rw [baseName_eq inside]
    exact all _ listed
  root := .inl ⟨["Templates"], by decide, rfl⟩

theorem home_ejecting_keeps :
    ∃ files, (project "Templates" "html" home).eject "Templates" "alert" home =
        (.ok (.written "Templates/components/alert.html"), files) ∧
      (∃ s, (project "Templates" "html" files).resolve ⟨"components/alert"⟩ = .ok s ∧ s.text = Bundled.alert) ∧
      (project "Templates" "html" files).eject "Templates" "alert" files =
        (.ok (.skipped "Templates/components/alert.html"), files) := by
  have plain : '/' ∉ "html".toList := by decide
  have outcome : ((project "Templates" "html" home).eject "Templates" "alert" home).1.toOption =
      some (.written "Templates/components/alert.html") := by
    decide +kernel
  have bundled : ((project "Templates" "html" home).resolve ⟨"components/alert"⟩).toOption.map Source.text =
      some Bundled.alert := by
    decide +kernel
  have before : Runs "Templates" "html" home home := .start
  obtain ⟨-, -, -, -, once, -⟩ := ejecting_keeps plain before
  rcases done : (project "Templates" "html" home).eject "Templates" "alert" home with ⟨e | o, files⟩
  · rw [done] at outcome
    cases outcome
  rw [done] at outcome
  obtain rfl : o = .written "Templates/components/alert.html" := Option.some.inj outcome
  have runs : Runs "Templates" "html" home files := by
    have one := before.one "alert"
    rwa [done] at one
  obtain ⟨-, -, serves, -⟩ := ejecting_keeps plain runs
  refine ⟨files, rfl, ?_, ?_⟩
  · cases resolved : (project "Templates" "html" home).resolve ⟨"components/alert"⟩ with
    | error e =>
      rw [resolved] at bundled
      cases bundled
    | ok s =>
      rw [resolved] at bundled
      obtain ⟨s', resolved', same⟩ := serves fits_home _ s resolved
      exact ⟨s', resolved', same.trans (Option.some.inj bundled)⟩
  · obtain ⟨-, again⟩ := once "alert" _ (by rw [done])
    rw [done] at again
    exact again files .start

/-- An extension with which the names of components are too long for files. -/
def longExtension : String := String.ofList (List.replicate 250 'x')

theorem eq_x_of_mem_longExtension {c : Char} (listed : c ∈ longExtension.toList) : c = 'x' := by
  have all (n : Nat) (listed : c ∈ (String.ofList (List.replicate n 'x')).toList) : c = 'x' := by
    rw [String.toList_ofList] at listed
    exact List.eq_of_mem_replicate listed
  exact all 250 listed

theorem plain_longExtension : '/' ∉ longExtension.toList := fun listed =>
  absurd (eq_x_of_mem_longExtension listed) (by decide)

theorem alert_inDirectory : (Key.mk "components/alert").InDirectory Names.components "alert" := by
  constructor <;> decide

theorem place_longExtension (t : FileTree) (through : Bool) :
    t.place through (Store.pathBelow "Templates" longExtension ⟨"components/alert"⟩) =
      t.walk through mostLinks (t.beginning "Templates")
        (moves "Templates" ++ [Names.components, "alert" ++ "." ++ longExtension].map .name) := by
  have all := alert_inDirectory.isName plain_longExtension
  rw [alert_inDirectory.pathBelow_eq plain_longExtension]
  refine place_moves t through "Templates" all (List.cons_ne_nil _ _) ?_
  have path : Path.behind "Templates" [Names.components, "alert" ++ "." ++ longExtension] =
      "Templates/components/alert." ++ longExtension := by
    rw [Path.behind_eq _ all, ← String.toList_inj, String.toList_ofList]
    simp only [String.toList_append, List.map_cons, List.map_nil, joined, List.append_assoc]
    rfl
  have size : ("Templates/components/alert." ++ longExtension).utf8ByteSize = 277 := by
    have own : longExtension.utf8ByteSize = 250 := by decide +kernel
    rw [String.utf8ByteSize_append, own]
    rfl
  rw [path]
  unfold refusal?
  rw [if_neg, if_neg, if_neg]
  · rw [size]
    decide
  · intro empty
    rw [empty] at size
    cases size
  · rw [String.toList_append, List.contains_iff_mem, List.mem_append, not_or]
    exact ⟨by decide, fun listed => absurd (eq_x_of_mem_longExtension listed) (by decide)⟩

theorem isComponent_alert : Texts.IsComponent ⟨"components/alert"⟩ Bundled.alert := by
  unfold Texts.IsComponent
  decide +kernel

/-- The files of the project once there is a directory for components. -/
def prepared : FileTree := (createDirectories (Path.behind "Templates" [Names.components]) home).2

theorem walk_prepared (through : Bool) :
    prepared.walk through mostLinks (prepared.beginning "Templates")
      (moves "Templates" ++ [Names.components, "alert" ++ "." ++ longExtension].map .name) = .error .nameTooLong := by
  cases through <;> decide +kernel

theorem eject_longExtension :
    ((project "Templates" longExtension home).eject "Templates" "alert" home).2 = prepared := by
  have key : (project "Templates" longExtension home).componentKey "alert" = .ok ⟨"components/alert"⟩ := by
    decide +kernel
  have created : (createDirectories (Path.behind "Templates" [Names.components]) home).1 = .ok () := by decide +kernel
  have fails : prepared.create (Store.pathBelow "Templates" longExtension ⟨"components/alert"⟩)
      (.file Bundled.alert.toUTF8) = .error .nameTooLong := by
    rw [create, place_longExtension, walk_prepared]
    rfl
  have placed := place_of_create_error isComponent_alert plain_longExtension created fails
  rw [eject_eq, key]
  rcases componentText_eq "Templates" longExtension home ⟨"components/alert"⟩ with ⟨text, there, found⟩ | ⟨nothing, -⟩
  · obtain rfl := Option.some.inj (isComponent_alert.1.symm.trans there)
    simp only [found]
    exact placed
  · exact absurd (isComponent_alert.1.symm.trans nothing) (by simp)

/-- A project with a layout of its own, and the same root by a detour over a directory that is not there. -/
def detour : FileTree where
  nodes := [(["Templates"], .directory), (["Templates", "layouts"], .directory),
    (["Templates", "layouts", "base.html"], .file "mine".toUTF8)]

/-- Ejecting may change what is served: where names are too long, what was found is not found any more; and a root that
is not there, but climbs, leads to other files as soon as it can be followed. -/
theorem ejecting_changes_served :
    (((project "Templates" longExtension home).resolve ⟨"components/alert"⟩).toOption.map Source.text =
        some Bundled.alert ∧
      ((project "Templates" longExtension
        ((project "Templates" longExtension home).eject "Templates" "alert" home).2).resolve
          ⟨"components/alert"⟩).toOption.map Source.text = none) ∧
    (((project "none/../Templates" "html" detour).resolve ⟨"layouts/base"⟩).toOption.map Source.text =
        some Bundled.baseLayout ∧
      ((project "none/../Templates" "html"
        ((project "none/../Templates" "html" detour).eject "none/../Templates" "alert" detour).2).resolve
          ⟨"layouts/base"⟩).toOption.map Source.text = some "mine") := by
  refine ⟨⟨?_, ?_⟩, by decide +kernel⟩
  · have missing :
        home.node true (Store.pathBelow "Templates" longExtension ⟨"components/alert"⟩) = .error .missing := by
      have blocked : home.walk true mostLinks (home.beginning "Templates")
          (moves "Templates" ++ [Names.components, "alert" ++ "." ++ longExtension].map .name) = .error .missing := by
        decide +kernel
      rw [node_eq, place_longExtension, blocked]
    have bundled := serves_iff.mpr (.inr ⟨Store.readBelow_of_missing missing, isComponent_alert.1⟩)
    obtain ⟨s, resolved, same⟩ := resolve_iff.mpr bundled
    rw [resolved]
    exact congrArg some same
  · have found_out : prepared.node true (Store.pathBelow "Templates" longExtension ⟨"components/alert"⟩) =
        .error .nameTooLong := by
      rw [node_eq, place_longExtension, walk_prepared]
    rw [eject_longExtension, Option.map_eq_none_iff]
    cases resolved : (project "Templates" longExtension prepared).resolve ⟨"components/alert"⟩ with
    | error e => rfl
    | ok s =>
      rcases serves_iff.mp (resolve_iff.mp ⟨s, resolved, rfl⟩) with own | ⟨nothing, -⟩
      · have contained := Store.contained_of_isSome own rfl
        obtain ⟨bytes, there⟩ := (Store.readBelow_eq_ok contained own).1.mp rfl
        rw [found_out] at there
        cases there
      · have reading := Store.readBelow_eq_ok (by decide) nothing
        cases reading.2 _ found_out

end Pageweave.Ejection
