import Pageweave.FileTree.Change
import Pageweave.Names
import Pageweave.Store.Directory
/-!
# Templates of a project, by name

Templates written, removed and moved by their names, below one root and with one extension. What fails says what was
tried and why.
-/
namespace Pageweave

structure Project where
  root : String
  extension : String := Names.extension

/-- What was tried, where it is told, and why it failed. -/
structure ProjectFault where
  sentence : Option String
  fault : FileFault

def ProjectFault.message (f : ProjectFault) : String :=
  match f.sentence with
  | some s => s ++ ": " ++ f.fault.message
  | none => f.fault.message

namespace Project

/-- Changes of the project's files. -/
abbrev Work := ExceptT ProjectFault (StateM FileTree)

/-- Tells what was tried when it fails. -/
def trying (sentence : Option String) (c : FileTree.Changes Unit) : Work Unit := fun t =>
  match c t with
  | (.ok (), t) => (.ok (), t)
  | (.error e, t) => (.error ⟨sentence, e⟩, t)

/-- The file of a template. -/
def path (p : Project) (k : Key) : String := Store.pathBelow p.root p.extension k

/-- Writes a template, over one that is there, and creates the directories it lies in. -/
def write (p : Project) (k : Key) (text : String) : Work String := do
  let path := p.path k
  let above := Path.parent path
  trying (some ("Failed to create " ++ above)) (FileTree.createDirectories above)
  trying (some ("Failed to write " ++ path)) (FileTree.attempt fun t => t.write path text.toUTF8)
  pure path

def remove (p : Project) (k : Key) : Work Unit :=
  let path := p.path k
  trying (some ("Failed to remove " ++ path)) (FileTree.attempt fun t => t.remove path)

def rename (p : Project) (source target : Key) : Work Unit := do
  let source := p.path source
  let target := p.path target
  trying none (FileTree.createDirectories (Path.parent target))
  trying (some ("Failed to rename " ++ source ++ " to " ++ target))
    (FileTree.attempt fun t => t.rename source target)

end Project
end Pageweave
