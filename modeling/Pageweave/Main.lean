import Pageweave.Command.Help
import Pageweave.Command.Run
import Pageweave.Debounce
/-!
# The program

Reads the files that a command needs, runs the command on them, prints what it says and writes what it created.
-/
namespace Pageweave.Program

/-- Directories within directories are followed so far. -/
def deepest : Nat := 40

/-- The place that a path leads to from another, where no link is on the way. -/
def placeFrom (start : Place) (path : String) : Place :=
  (FileTree.steps path).foldl (fun p s =>
    match s with
    | .here => p
    | .up => p.dropLast
    | .name n => p ++ [n]) (if Path.isAbsolute path.toList then [] else start)

/-- A tree with a directory and those above it. -/
def withDirectory (t : FileTree) (p : Place) : FileTree :=
  (List.range p.length).foldl (fun t i => t.set (p.take (i + 1)) .directory) t

/-- Adds what a path leads to, with everything below it. -/
def gather (t : FileTree) (p : Place) : (depth : Nat) → (path : String) → IO FileTree
  | 0, _ => pure t
  | depth + 1, path => do
    let file := (← IO.currentDir) / path
    if !(← file.pathExists) then return t
    if ← file.isDir then
      (← file.readDir).foldlM (fun t entry =>
        gather t (p ++ [entry.fileName]) depth (Path.join path entry.fileName)) (withDirectory t p)
    else
      return (withDirectory t p.dropLast).set p (.file (← IO.FS.readBinFile file))

/-- Adds what a path, given from the current directory, leads to. -/
def gatherPath (t : FileTree) (path : String) : IO FileTree :=
  gather t (placeFrom t.base path) deepest path

/-- Adds the files that a command reads: its settings, its templates and its model. -/
def filesFor (i : Invocation) : IO FileTree := do
  let current ← IO.currentDir
  let base := placeFrom [] current.toString
  let start := withDirectory { base := base } (placeFrom base i.project)
  let t ← gatherPath start (i.settings.getD (Path.join i.project Names.settingsFile))
  match i.workplace t with
  | .error _ => pure t
  | .ok w =>
    let t ← gatherPath t w.templatesRoot
    match i.command with
    | .render o => (o.model.map (gatherPath t)).getD (pure t)
    | _ => pure t

/-- Writes the files that were not there before. -/
def writeNew (old new : FileTree) : IO Unit :=
  new.nodes.forM fun (p, n) => do
    match n, old.get? p with
    | .file bytes, none =>
      IO.FS.createDirAll ("/" ++ "/".intercalate p.dropLast)
      IO.FS.writeBinFile ("/" ++ "/".intercalate p) bytes
    | _, _ => pure ()

/-- Milliseconds between two looks at the files. -/
def tick : Nat := 25

/-- Looks at the files again and again, and tells which keys have changed. -/
partial def observe (w : Watcher) (d : Debouncer) (old : FileTree) : IO Unit := do
  IO.sleep (UInt32.ofNat tick)
  let new ← gatherPath { base := old.base } w.root
  let keys := (FileEvent.between old new).flatMap w.sees
  let (early, d) := if keys.isEmpty then ([], d) else d.step (.push keys)
  let (late, d) := d.step (.advance tick)
  for k in (early ++ late).flatMap Debouncer.Flush.keys do
    IO.println ("changed " ++ k.name)
  observe w d new

/-- Runs a command line; the exit status. -/
def run (args : List String) : IO UInt32 := do
  match Invocation.read args with
  | .error fault =>
    if fault.status = 0 then IO.print fault.message else IO.eprint fault.message
    return UInt32.ofNat fault.status
  | .ok i =>
    let files ← filesFor i
    match i.run files with
    | (.ended o, changed) =>
      writeNew files changed
      IO.print o.output
      IO.eprint o.errors
      return if o.failure.isSome then 1 else 0
    | (.watching w millis, files) =>
      IO.println ("Watching " ++ w.root ++ " (Ctrl-C to stop)")
      observe { w with root := "/" ++ "/".intercalate (placeFrom files.base w.root) } { window := millis }
        (← gatherPath { base := files.base } w.root)
      return 0

end Pageweave.Program

def main (args : List String) : IO UInt32 := Pageweave.Program.run args
