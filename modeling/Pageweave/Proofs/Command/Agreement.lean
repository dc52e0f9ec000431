import Mathlib.Algebra.GroupWithZero.Nat
import Pageweave.Proofs.Command.Rendering
import Pageweave.Proofs.Layout.Hints
import Pageweave.Proofs.Store.Containment
import Pageweave.Proofs.Store.Directory
import Pageweave.Proofs.Watcher.Naming
/-!
# Commands that see the same templates

Rendering goes by a setup, in which the extension has lost the dots in front. Listing, the hints of layouts and watching
go by the settings as they stand. So they see the same templates exactly if the settings have no dot there, and with one
no key has the same file for both.
-/
namespace Pageweave

open Text

variable {w : Workplace} {s : Setup} {site : Site} {files files' : FileTree} {o : RenderOptions} {e root : String} {k : Key}
  {model : Value}

theorem Text.count_joined {sep c : Char} (other : c ≠ sep) (ps : List (List Char)) :
    (joined sep ps).count c = (ps.map (List.count c)).sum := by
  induction ps with
  | nil => rfl
  | cons p ps ih =>
    by_cases last : ps = []
    · subst last
      simp [joined]
    · rw [joined_cons sep p last, List.count_append, List.count_cons, ih]
      simp [Ne.symm other]

namespace Path

variable {path part : List Char} {ps : List (List Char)}

theorem isAbsolute_of_not_mem (no_slash : '/' ∉ part) : isAbsolute part = false := by
  cases part with
  | nil => rfl
  | cons c cs =>
    rw [isAbsolute_cons, beq_eq_false_iff_ne]
    rintro rfl
    exact no_slash List.mem_cons_self

theorem count_push (relative : isAbsolute part = false) : (push path part).count '.' = path.count '.' + part.count '.' := by
  rw [push_eq relative, List.count_append]
  rcases lead_cases path with ⟨rfl, nothing⟩ | ⟨front, leads, same | ⟨same, -⟩⟩
  · rw [nothing]
  · rw [leads, same]
  · rw [leads, same]
    simp

theorem isAbsolute_push (relative : isAbsolute path = false) (relative' : isAbsolute part = false) :
    isAbsolute (push path part) = false := by
  rw [push_eq relative']
  by_cases nothing : path = []
  · subst nothing
    exact relative'
  · rw [isAbsolute_lead nothing, relative]

theorem foldl_push_dots (no_slash : ∀ p ∈ ps, '/' ∉ p) (relative : isAbsolute path = false) :
    isAbsolute (ps.foldl push path) = false ∧
      (ps.foldl push path).count '.' = path.count '.' + (ps.map (List.count '.')).sum := by
  induction ps generalizing path with
  | nil => exact ⟨relative, rfl⟩
  | cons p ps ih =>
    obtain ⟨first, rest⟩ := List.forall_mem_cons.mp no_slash
    have relative' := isAbsolute_of_not_mem first
    obtain ⟨still, dots⟩ := ih rest (isAbsolute_push relative relative')
    refine ⟨still, ?_⟩
    rw [List.foldl_cons, dots, count_push relative', List.map_cons, List.sum_cons, Nat.add_assoc]

end Path

theorem Store.count_pathBelow (root e : String) (k : Key) : (Store.pathBelow root e k).toList.count '.' =
    root.toList.count '.' + k.name.toList.count '.' + e.toList.count '.' + 1 := by
  have no_slash : ∀ p ∈ pieces '/' (k.fileName e).toList, '/' ∉ p := fun _ there => not_mem_of_mem_pieces there
  have start : Path.isAbsolute [] = false := rfl
  have other : '.' ≠ '/' := by decide
  obtain ⟨relative, dots⟩ := Path.foldl_push_dots no_slash start
  rw [← Text.count_joined other, joined_pieces] at dots
  change Path.isAbsolute (Path.ofParts (pieces '/' (k.fileName e).toList)) = false at relative
  change (Path.ofParts (pieces '/' (k.fileName e).toList)).count '.' = _ at dots
  rw [Store.pathBelow, Path.join, Key.relativePath, String.toList_ofList, String.toList_ofList, Path.count_push relative,
    dots, Key.toList_fileName, List.count_append, List.count_cons_self, List.count_nil]
  omega

/-- The files that a stack looks for a key at, one for each of its directories. -/
def Stack.filesOf (s : Stack) (k : Key) : List String :=
  s.origins.filterMap fun
    | .directory _ root e => some (Store.pathBelow root e k)
    | .memory _ _ => none

theorem Stack.filesOf_standard (root e : String) (k : Key) :
    (Stack.standard root e).filesOf k = [Store.pathBelow root e k] := rfl

namespace Workplace

/-- Where the templates that are listed come from. -/
def stack (w : Workplace) : Stack := .standard w.templatesRoot w.settings.extension

theorem locator_eq (w : Workplace) (files : FileTree) : w.locator files = w.stack.locator files := rfl

/-- Is there a dot in front of the extension that is set? -/
def IsDotted (w : Workplace) : Prop := w.settings.extension.toList.head? = some '.'

instance (w : Workplace) : Decidable w.IsDotted := inferInstanceAs (Decidable (_ = _))

theorem extension_of_not_dotted (plain : ¬w.IsDotted) : w.extension = w.settings.extension := by
  unfold extension
  rw [← String.toList_inj, String.toList_ofList]
  cases chars : w.settings.extension.toList with
  | nil => rfl
  | cons c cs =>
    have other : c ≠ '.' := by
      rintro rfl
      exact plain (by rw [IsDotted, chars]; rfl)
    simp [other]

theorem count_extension_lt (dotted : w.IsDotted) : w.extension.toList.count '.' < w.settings.extension.toList.count '.' := by
  obtain ⟨cs, chars⟩ := List.head?_eq_some_iff.mp dotted
  have fewer : (cs.dropWhile fun c => decide (c = '.')).count '.' ≤ cs.count '.' :=
    (List.dropWhile_sublist _).count_le '.'
  rw [extension, String.toList_ofList, chars, List.dropWhile_cons_of_pos (by simp), List.count_cons_self]
  omega

theorem stack_of_setup (set : w.setup = .ok s) :
    s.root = w.templatesRoot ∧ s.extension = w.extension := by
  rw [setup_eq] at set
  cases made : w.layoutIds.mapM (Layout.make · none) with
  | error fault =>
    rw [made] at set
    cases set
  | ok ls =>
    rw [made] at set
    obtain rfl := Except.ok.inj set
    exact ⟨rfl, rfl⟩

/-- Listing, hints and watching find what rendering finds: the keys of names, the files of keys with all that is behind
them, what there is to be listed and hinted at, and the keys of files. -/
structure SeesAs (w : Workplace) (s : Setup) : Prop where
  key : ∀ files name, (w.locator files).key name = (s.stack.locator files).key name
  file : ∀ k, w.stack.filesOf k = s.stack.filesOf k
  find : ∀ files k, (w.locator files).find k = (s.stack.locator files).find k
  list : ∀ files, (w.locator files).list = (s.stack.locator files).list
  hinted : ∀ files ids listed, w.knownLayouts files = .ok ids → (s.stack.locator files).list = .ok listed →
    ids = hints listed
  watched : ∀ files millis watcher wait, w.watch files millis = .watching watcher wait →
    ∀ path, Key.ofPathBelow watcher.extension watcher.root path = Key.ofPathBelow s.extension s.root path

theorem watch_eq {millis : Option Nat} {watcher : Watcher} {wait : Nat}
    (watching : w.watch files millis = .watching watcher wait) :
    watcher = ⟨w.templatesRoot, w.settings.extension, true⟩ := by
  unfold watch at watching
  dsimp only at watching
  split at watching
  · rename_i there
    injection watching with same _
    rw [← same, Watcher.start, there]
    rfl
  · cases watching

theorem seesAs_of_not_dotted (set : w.setup = .ok s) (plain : ¬w.IsDotted) : w.SeesAs s := by
  obtain ⟨root_eq, extension_eq⟩ := stack_of_setup set
  rw [extension_of_not_dotted plain] at extension_eq
  have stack_eq : s.stack = w.stack := by
    rw [Setup.stack, stack, root_eq, extension_eq]
  constructor
  · exact fun files name => by rw [locator_eq, stack_eq]
  · exact fun k => by rw [stack_eq]
  · exact fun files k => by rw [locator_eq, stack_eq]
  · exact fun files => by rw [locator_eq, stack_eq]
  · intro files ids listed known list
    rw [stack_eq, ← locator_eq] at list
    exact Except.ok.inj (known.symm.trans (knownLayouts_of_list list))
  · intro files millis watcher wait watching path
    rw [watch_eq watching, root_eq, extension_eq]

theorem filesOf_ne_of_dotted (set : w.setup = .ok s) (dotted : w.IsDotted) (k : Key) :
    w.stack.filesOf k ≠ s.stack.filesOf k := by
  obtain ⟨root_eq, extension_eq⟩ := stack_of_setup set
  intro same
  rw [stack, Setup.stack, Stack.filesOf_standard, Stack.filesOf_standard, List.singleton_inj, root_eq, extension_eq] at same
  have dots := congrArg (fun path => path.toList.count '.') same
  have more := count_extension_lt dotted
  simp only [Store.count_pathBelow] at dots
  omega

theorem exists_listed {all : List (Key × String)} (list : (w.locator files).list = .ok all) :
    ∃ entries, listed (w.locator files) {} = .ok entries ∧ entries.map (fun x => (x.key, x.store)) = all := by
  have bundled : (w.locator files).store? Names.bundledStore = some (.memory Names.bundledStore Texts.bundled) := by
    have other : (Names.projectStore == Names.bundledStore) = false := by decide
    simp [Locator.store?, locator, Stack.locator, Stack.standard, Origin.store, Store.directory, Store.memory, other]
  refine ⟨all.map fun x => ⟨x.1, x.2, x.2 ≠ Names.bundledStore && (Texts.bundled.map Prod.fst).contains x.1⟩, ?_, ?_⟩
  · simp [listed, bundled, list, Store.memory, bind, Except.bind]
  · simp [Function.comp_def]

/-- What rendering finds for the key of a name is listed with the store that it comes from. -/
def ListsFound (w : Workplace) (s : Setup) (files : FileTree) : Prop :=
  ∃ entries, listed (w.locator files) {} = .ok entries ∧
    ∀ name k source, Key.named s.extension name = .ok k → (s.stack.locator files).find k = .ok (some source) →
      ∃ x ∈ entries, x.key = k ∧ x.store = source.store

theorem listsFound_of_tidy (set : w.setup = .ok s) (plain : ¬w.IsDotted)
    (tidy : ∀ origin ∈ s.stack.origins, origin.IsTidy files) : w.ListsFound s files := by
  have lists : ∀ store ∈ (s.stack.locator files).stores, ∃ ks, store.list = .ok ks := by
    intro store there
    obtain ⟨origin, from_stack, rfl⟩ := List.mem_map.mp there
    exact (tidy origin from_stack).list
  obtain ⟨all, list⟩ := Locator.exists_listInto_of_stores lists []
  have same := (seesAs_of_not_dotted set plain).list files
  obtain ⟨entries, shown, keys⟩ := exists_listed (same.trans list)
  refine ⟨entries, shown, fun name k source named found => ?_⟩
  have agrees : ∀ store ∈ (s.stack.locator files).stores, store.Agrees k := by
    intro store there
    obtain ⟨origin, from_stack, rfl⟩ := List.mem_map.mp there
    exact (tidy origin from_stack).agrees (Key.named_eq_ok.mp named)
  have there : (k, source.store) ∈ all := (Locator.mem_list_iff agrees list found).mpr rfl
  rw [← keys] at there
  obtain ⟨x, listed, pair⟩ := List.mem_map.mp there
  exact ⟨x, listed, Prod.mk.inj pair⟩

/-- Where every key of a name is read from the same node, it is found with the same text. -/
theorem find_eq_of_node_eq
    (same : k.isContained = true → files.node true (Store.pathBelow s.root s.extension k) =
      files'.node true (Store.pathBelow s.root s.extension k)) :
    (s.stack.locator files).find k = (s.stack.locator files').find k := by
  apply Stack.findIn_congr
  intro origin listed
  rcases List.mem_pair.mp listed with rfl | rfl
  · change Store.readBelow files s.root s.extension k = Store.readBelow files' s.root s.extension k
    cases contained : k.isContained with
    | false => rw [Store.readBelow_of_not_contained contained, Store.readBelow_of_not_contained contained]
    | true => exact Store.readBelow_congr (same contained)
  · rfl

/-- A file of a key that is not the same before and after an edit. -/
structure Touched (s : Setup) (old new : FileTree) (k : Key) : Prop where
  named : ∃ name, Key.named s.extension name = .ok k
  contained : k.isContained = true
  changed : old.node true (Store.pathBelow s.root s.extension k) ≠ new.node true (Store.pathBelow s.root s.extension k)

/-- An edit that changes what is shown touches the file of a key. -/
theorem exists_touched (set : w.setup = .ok s) (same_model : readModel files o.model = readModel files' o.model)
    (shown : (w.render files o).failure = none ∨ (w.render files' o).failure = none)
    (changes : w.render files o ≠ w.render files' o) : ∃ k, Touched s files files' k := by
  by_contra untouched
  have agree (name : String) (k : Key) (named : Key.named s.extension name = .ok k) :
      (s.stack.locator files).find k = (s.stack.locator files').find k := by
    apply find_eq_of_node_eq
    intro contained
    by_contra changed
    exact untouched ⟨k, ⟨name, named⟩, contained, changed⟩
  rcases shown with before | after
  · exact changes (render_of_find_eq set before same_model.symm fun name k named => (agree name k named).symm).symm
  · exact changes (render_of_find_eq set after same_model agree)

/-- Watching hands over the key, whatever happens to its file alone. -/
def Reports (w : Workplace) (s : Setup) (k : Key) : Prop :=
  ∀ files millis watcher wait, w.watch files millis = .watching watcher wait →
    ∀ event : FileEvent, event.paths = [Store.pathBelow s.root s.extension k] → watcher.sees event = [k]

theorem reports_of_unmarked (set : w.setup = .ok s) (plain : ¬w.IsDotted) (some_char : s.extension ≠ "")
    (unmarked : Key.IsUnmarked s.extension) {name : String} (named : Key.named s.extension name = .ok k)
    (contained : k.isContained = true) (some_last : k.name.toList.getLast? ≠ some '/') : w.Reports s k := by
  obtain ⟨root_eq, extension_eq⟩ := stack_of_setup set
  rw [extension_of_not_dotted plain] at extension_eq
  have accepted : Setup.Accepts s.extension :=
    Setup.accepts_iff.mpr ⟨some_char, fun dot => plain (by rw [IsDotted, ← extension_eq, dot])⟩
  have read := (Watcher.ofPathBelow_iff accepted (Key.named_eq_ok.mp named) contained s.root).mpr ⟨unmarked, some_last⟩
  intro files millis watcher wait watching event paths
  rw [watch_eq watching, ← root_eq, ← extension_eq, Watcher.sees_of_paths paths, read]
  rfl

/-- All commands see the templates as rendering does exactly if the extension that is set has no dot in front; with one no
key has the same file. Without one, a template that is rendered is found, and what is found in a tidy project is listed
with the store that it comes from. An edit that changes what is shown touches the file of a key, and watching hands over
this key, unless the extension or the end of the key is cut. -/
theorem commands_agree_iff_not_dotted (set : w.setup = .ok s) :
    (w.SeesAs s ↔ ¬w.IsDotted) ∧ (w.IsDotted → ∀ k, w.stack.filesOf k ≠ s.stack.filesOf k) ∧
    (¬w.IsDotted →
      (∀ files o, (w.render files o).failure = none →
        ∃ k source, Key.named s.extension o.template = .ok k ∧ (s.stack.locator files).find k = .ok (some source)) ∧
      (∀ files, (∀ origin ∈ s.stack.origins, origin.IsTidy files) → w.ListsFound s files) ∧
      ∀ old new o, readModel old o.model = readModel new o.model →
        (w.render old o).failure = none ∨ (w.render new o).failure = none → w.render old o ≠ w.render new o →
          ∃ k, Touched s old new k ∧
            (Key.IsUnmarked s.extension → k.name.toList.getLast? ≠ some '/' → w.Reports s k)) := by
  refine ⟨⟨fun sees dotted => ?_, seesAs_of_not_dotted set⟩, filesOf_ne_of_dotted set, fun plain => ⟨?_, ?_, ?_⟩⟩
  · exact filesOf_ne_of_dotted set dotted ⟨""⟩ (sees.file ⟨""⟩)
  · exact fun files o shown => exists_source_of_render set shown
  · exact fun files tidy => listsFound_of_tidy set plain tidy
  · intro old new o same_model shown changes
    obtain ⟨k, touched⟩ := exists_touched set same_model shown changes
    obtain ⟨name, named⟩ := touched.named
    have some_char : s.extension ≠ "" := by
      rcases shown with before | after
      · exact extension_ne_empty_of_render set before
      · exact extension_ne_empty_of_render set after
    exact ⟨k, touched, fun unmarked some_last =>
      reports_of_unmarked set plain some_char unmarked named touched.contained some_last⟩

theorem bare_commands_agree : ∃ s, bare.setup = .ok s ∧ bare.SeesAs s ∧
    bare.ListsFound s (Stack.filed "page.html") := by
  have plain : ¬bare.IsDotted := by decide
  have made : bare.setup.toOption.map (fun s => (s.root, s.extension)) = some ("Templates", "html") := by
    decide +kernel
  cases set : bare.setup with
  | error e =>
    rw [set] at made
    cases made
  | ok s =>
    rw [set] at made
    obtain ⟨root, extension⟩ : s.root = "Templates" ∧ s.extension = "html" := by
      simpa [Except.toOption] using made
    obtain ⟨sees, -, agree⟩ := commands_agree_iff_not_dotted set
    refine ⟨s, rfl, sees.mpr plain, (agree plain).2.1 _ ?_⟩
    intro origin listed
    rw [Setup.stack, root, extension] at listed
    rcases List.mem_pair.mp listed with rfl | rfl
    · exact Stack.isTidy_layered _ List.mem_cons_self
    · trivial

/-- A project that sets an extension with a dot in front. -/
def dottedPlace : Workplace := ⟨"", { extension := ".html" }⟩

/-- Rendering finds a page that is not listed, and watching does not see that its file changes. -/
theorem dottedPlace_commands_disagree :
    let files := Stack.filed "page.html"
    (dottedPlace.setup.toOption.map fun s => ((s.stack.locator files).find ⟨"page"⟩).toOption) =
        some (some (some ⟨⟨"page"⟩, "page", Names.projectStore⟩)) ∧
      ((dottedPlace.locator files).list.toOption.map fun all => all.any (·.1 == ⟨"page"⟩)) = some false ∧
      (match dottedPlace.watch files none with
        | .watching watcher _ => watcher.active && watcher.sees (.changed "Templates/page.html") == []
        | .ended _ => false) = true := by
  decide +kernel

end Workplace

end Pageweave
