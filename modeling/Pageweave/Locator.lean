import Pageweave.Store.Directory
import Pageweave.Store.Memory
import Pageweave.Text.EditDistance
/-!
# Locating templates

Stores in order: the first that has a key gives its text, so a store hides the keys of those behind it. What cannot be
found is answered with the names that come nearest.
-/
namespace Pageweave

/-- A text with the key it was found under and the name of its store. -/
structure Source where
  key : Key
  text : String
  store : String
  deriving DecidableEq

structure Locator where
  stores : List Store
  extension : String

namespace Locator

/-- The key of a name. -/
def key (l : Locator) (name : String) : Except PageError Key := Key.named l.extension name

/-- The first store of a name. -/
def store? (l : Locator) (name : String) : Option Store := l.stores.find? fun s => s.name == name

/-- The text of the first store that has the key. -/
def findIn : List Store → Key → Except PageError (Option Source)
  | [], _ => .ok none
  | s :: rest, k =>
    match s.read k with
    | .error e => .error e
    | .ok (some text) => .ok (some ⟨k, text, s.name⟩)
    | .ok none => findIn rest k

def find (l : Locator) (k : Key) : Except PageError (Option Source) := findIn l.stores k

/-- Has any store the key? -/
def existsIn : List Store → Key → Except PageError Bool
  | [], _ => .ok false
  | s :: rest, k =>
    match s.read k with
    | .error e => .error e
    | .ok (some _) => .ok true
    | .ok none => existsIn rest k

def «exists» (l : Locator) (k : Key) : Except PageError Bool := existsIn l.stores k

/-- Notes the store of a key, unless one is noted already. -/
def note (store : String) (k : Key) : List (Key × String) → List (Key × String)
  | [] => [(k, store)]
  | e :: rest =>
    if k = e.1 then e :: rest else if k < e.1 then (k, store) :: e :: rest else e :: note store k rest

def listInto : List Store → List (Key × String) → Except PageError (List (Key × String))
  | [], listed => .ok listed
  | s :: rest, listed =>
    match s.list with
    | .error e => .error e
    | .ok ks => listInto rest (ks.foldl (fun acc k => note s.name k acc) listed)

/-- All keys in ascending order, each with the name of the first store that lists it. -/
def list (l : Locator) : Except PageError (List (Key × String)) := listInto l.stores []

/-- How many edits away a name may be to be suggested: half of its bytes. -/
def tolerance (k : Key) : Nat := k.name.utf8ByteSize * 50 / 100

def distance (k : Key) (name : String) : Nat := Text.editDistance k.name.toList name.toList

/-- The three listed keys nearest to one, of those within its tolerance; nearest first, then in ascending order. -/
def nearest (k : Key) (listed : List Key) : List String :=
  let scored := listed.map fun q => (q.name, distance k q.name)
  let close := scored.filter fun e => e.2 ≤ tolerance k
  ((close.mergeSort fun a b => a.2 ≤ b.2).take 3).map Prod.fst

/-- What to suggest for a key that was not found. -/
def suggestions (l : Locator) (k : Key) : List String :=
  match l.list with
  | .ok listed => nearest k (listed.map Prod.fst)
  | .error _ => []

/-- The text of a key, or the error of not finding it. -/
def resolve (l : Locator) (k : Key) : Except PageError Source :=
  match l.find k with
  | .error e => .error e
  | .ok (some s) => .ok s
  | .ok none => .error (.notFound k (l.suggestions k))

/-- Every text that can be found. -/
def texts (l : Locator) : List String := l.stores.flatMap Store.texts

theorem findIn_mem {stores : List Store} {k : Key} {s : Source} (h : findIn stores k = .ok (some s)) :
    s.key = k ∧ s.text ∈ stores.flatMap Store.texts := by
  induction stores with
  | nil => simp [findIn] at h
  | cons store rest ih =>
    unfold findIn at h
    split at h
    · simp at h
    · rename_i text found
      simp only [Except.ok.injEq, Option.some.injEq] at h
      subst h
      exact ⟨rfl, List.mem_flatMap.mpr ⟨store, by simp, store.mem_texts k text found⟩⟩
    · obtain ⟨same, listed⟩ := ih h
      exact ⟨same, by simp [List.flatMap_cons, listed]⟩

theorem exists_findIn {stores : List Store} {k : Key} (reads : ∀ s ∈ stores, ∃ text?, s.read k = .ok text?) :
    ∃ found, findIn stores k = .ok found := by
  induction stores with
  | nil => exact ⟨none, rfl⟩
  | cons s rest ih =>
    obtain ⟨text?, read⟩ := reads s List.mem_cons_self
    rw [findIn, read]
    cases text? with
    | some text => exact ⟨_, rfl⟩
    | none => exact ih fun s' later => reads s' (List.mem_cons_of_mem s later)

end Locator

/-- A place for texts, before the files are looked at. -/
inductive Origin where
  | directory (name root extension : String)
  | memory (name : String) (texts : Texts)

def Origin.name : Origin → String
  | .directory name _ _ => name
  | .memory name _ => name

/-- The store as it is with these files. -/
def Origin.store (files : FileTree) : Origin → Store
  | .directory name root extension => .directory files name root extension
  | .memory name texts => .memory name texts

/-- Origins in order, and the extension of names. -/
structure Stack where
  origins : List Origin
  extension : String

namespace Stack

/-- The templates of the project in front of the bundled ones. -/
def standard (root extension : String) : Stack :=
  ⟨[.directory Names.projectStore root extension, .memory Names.bundledStore Texts.bundled], extension⟩

def locator (s : Stack) (files : FileTree) : Locator := ⟨s.origins.map (Origin.store files), s.extension⟩

end Stack
end Pageweave
