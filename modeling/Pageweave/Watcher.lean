import Pageweave.FileTree.Basic
import Pageweave.Key
/-!
# Watching a directory

Which keys a change below a watched root concerns. Created, changed, removed and moved files and directories count, by
their paths; reading does not. A watcher only works if it is wanted and the root is a directory.
-/
namespace Pageweave

/-- Something that happened to files. -/
inductive FileEvent where
  | changed (path : String)
  | removed (path : String)
  | moved (source target : String)
  | read (path : String)
  deriving DecidableEq

/-- The paths that an event changes. -/
def FileEvent.paths : FileEvent → List String
  | .changed path => [path]
  | .removed path => [path]
  | .moved source target => [source, target]
  | .read _ => []

/-- Do two nodes hold the same? -/
def Node.same : Node → Node → Bool
  | .file a, .file b => a.data == b.data
  | .directory, .directory => true
  | .link a, .link b => a == b
  | _, _ => false

/-- What happened between two states of a tree, as far as the states show it. -/
def FileEvent.between (old new : FileTree) : List FileEvent :=
  let path (p : Place) : String := "/" ++ "/".intercalate p
  let isNew (e : Place × Node) : Bool := !((old.get? e.1).any fun n => n.same e.2)
  (new.nodes.filter isNew).map (fun e => FileEvent.changed (path e.1)) ++
    (old.nodes.filter fun e => (new.get? e.1).isNone).map fun e => FileEvent.removed (path e.1)

structure Watcher where
  root : String
  extension : String
  active : Bool
  deriving DecidableEq

namespace Watcher

/-- Begins to watch; `supported` says whether events can be waited for at all. -/
def start (files : FileTree) (root extension : String) (wanted supported : Bool) : Watcher :=
  ⟨root, extension, wanted && files.isDirectory root && supported⟩

def shutdown (w : Watcher) : Watcher := { w with active := false }

/-- The keys that an event concerns, in the order of its paths. -/
def keysOf (w : Watcher) (e : FileEvent) : List Key :=
  e.paths.filterMap fun path => (Key.ofPathBelow w.extension w.root path).key?

/-- The keys that are handed over after an event, in ascending order. -/
def sees (w : Watcher) (e : FileEvent) : List Key := if w.active then Key.sorted (w.keysOf e) else []

end Watcher
end Pageweave
