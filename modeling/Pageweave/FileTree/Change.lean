import Pageweave.FileTree.Basic
/-!
# Changes of a file tree

Writing, creating, removing and moving. A single change that fails leaves the tree as it was.
-/
namespace Pageweave.FileTree

/-- Writes a file, over one that is there. -/
def write (t : FileTree) (path : String) (bytes : ByteArray) : Except FileFault FileTree := do
  let p ← t.place true path
  match t.get? p with
  | some .directory => .error .isDirectory
  | _ => .ok (t.set p (.file bytes))

/-- Puts a node where nothing is. -/
def create (t : FileTree) (path : String) (n : Node) : Except FileFault FileTree := do
  let p ← t.place false path
  match t.get? p with
  | some _ => .error .exists
  | none => .ok (t.set p n)

/-- Several changes, one after the other; a fault ends them, and what was done before stays. -/
abbrev Changes := ExceptT FileFault (StateM FileTree)

/-- A single change. -/
def attempt (change : FileTree → Except FileFault FileTree) : Changes Unit := fun t =>
  match change t with
  | .ok t => (.ok (), t)
  | .error e => (.error e, t)

/-- Creates a directory, which may be there already. -/
def createDirectory (path : String) : Changes Unit := fun t =>
  match t.create path .directory with
  | .ok t => (.ok (), t)
  | .error e => (if t.isDirectory path then .ok () else .error e, t)

/-- Creates a directory and those above it, given by the parts of its path from the last to the first. -/
def createAbove : List Path.Part → Changes Unit
  | [] => pure ()
  | p :: above => fun t =>
    let path := Path.ofPartList (p :: above).reverse
    match t.create path .directory with
    | .error .missing => (do createAbove above; createDirectory path : Changes Unit) t
    | _ => createDirectory path t

/-- Creates a directory, unless it is there, and the directories above it. -/
def createDirectories (path : String) : Changes Unit := createAbove (Path.parts path.toList).reverse

/-- Removes a file or a link. -/
def remove (t : FileTree) (path : String) : Except FileFault FileTree := do
  let p ← t.place false path
  match t.get? p with
  | none => .error .missing
  | some .directory => .error .isDirectory
  | some _ => .ok (t.erase p)

/-- Removes an empty directory. -/
def removeDirectory (t : FileTree) (path : String) : Except FileFault FileTree := do
  let p ← t.place false path
  match t.get? p with
  | none => .error .missing
  | some .directory => if (t.children p).isEmpty then .ok (t.erase p) else .error .notEmpty
  | some _ => .error .notDirectory

/-- The place that `p` moves to when `source` becomes `target`. -/
def moved (source target p : Place) : Place :=
  if source.isPrefixOf p then target ++ p.drop source.length else p

/-- Moves what is at one path to another, over a file or an empty directory of the same kind. -/
def rename (t : FileTree) (source target : String) : Except FileFault FileTree := do
  let p ← t.place false source
  let q ← t.place false target
  let move : FileTree := { t with nodes := (t.erase q).nodes.map fun e => (moved p q e.1, e.2) }
  if p = q then .ok t
  else
    match t.get? p, t.get? q with
    | none, _ => .error .missing
    | some .directory, some .directory =>
      if p.isPrefixOf q then .error .intoItself
      else if (t.children q).isEmpty then .ok move else .error .notEmpty
    | some .directory, some _ => .error .notDirectory
    | some .directory, none => if p.isPrefixOf q then .error .intoItself else .ok move
    | some _, some .directory => .error .isDirectory
    | some _, _ => .ok move

end Pageweave.FileTree
