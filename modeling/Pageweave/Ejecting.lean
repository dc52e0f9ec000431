import Pageweave.FileTree.Change
import Pageweave.Locator
/-!
# Ejecting components

A bundled component is copied to the project, where it hides the bundled one and can be changed. A file that is there
is never written over.
-/
namespace Pageweave

/-- What became of a component: its file was written, or one was there. -/
inductive Ejected where
  | written (path : String)
  | skipped (path : String)
  deriving DecidableEq

def Ejected.path : Ejected → String
  | .written path => path
  | .skipped path => path

/-- Steps that may change files; a fault ends them. -/
abbrev Ejection := ExceptT PageError (StateM FileTree)

namespace Locator

/-- The key of a component, given with or without the directory of components. -/
def componentKey (l : Locator) (name : String) : Except PageError Key := do
  let k ← l.key name
  if k.isUnder Names.components then .ok k else l.key (Names.components ++ "/" ++ k.name)

/-- The bundled components in ascending order. -/
def components (l : Locator) : Except PageError (List Key) :=
  match l.store? Names.bundledStore with
  | none => .ok []
  | some s => s.list.map fun ks => Key.ordered (ks.filter fun k => k.isUnder Names.components)

/-- The text of a bundled component. -/
def componentText (l : Locator) (k : Key) : Except PageError String := do
  match l.store? Names.bundledStore with
  | none => .error (.setup .noBundledStore)
  | some s =>
    match ← s.read k with
    | some text => .ok text
    | none => .error (.setup (.unknownComponent k.baseName ((← l.components).map Key.baseName)))

/-- Writes a component's file, unless one is there. -/
def place (root extension : String) (k : Key) (text : String) : Ejection Ejected := fun t =>
  let path := Store.pathBelow root extension k
  let above := Path.parent path
  match FileTree.createDirectories above t with
  | (.error e, t) => (.error (.file above e), t)
  | (.ok (), t) =>
    match t.create path (.file text.toUTF8) with
    | .ok t => (.ok (.written path), t)
    | .error .exists => (.ok (.skipped path), t)
    | .error e => (.error (.file path e), t)

/-- Ejects one component below a root. -/
def eject (l : Locator) (root name : String) : Ejection Ejected := do
  let k ← l.componentKey name
  let text ← l.componentText k
  place root l.extension k text

/-- Ejects all components, one after the other. Where they are ejected at once, in turns or not all to the end,
`Ejection.Runs` says what the files may come to. -/
def ejectAll (l : Locator) (root : String) : Ejection (List Ejected) := do
  (← l.components).mapM fun k => l.eject root k.name

end Locator
end Pageweave
