import Pageweave.FileTree.Fault
import Pageweave.Path
/-!
# File trees

Files, directories and symbolic links at places, a place being the names on the way from the root. A path is followed
step by step: every place on the way is a directory, a link stands for the path it holds, and after forty links a path
is given up. Relative paths start from a base, the root unless another is set.
-/
namespace Pageweave

/-- The names on the way from the root. -/
abbrev Place := List String

inductive Node where
  | file (bytes : ByteArray)
  | directory
  | link (target : String)

structure FileTree where
  /-- What lies below the root; the root itself is a directory. -/
  nodes : List (Place × Node) := []
  /-- Where relative paths start. -/
  base : Place := []

namespace FileTree

def get? (t : FileTree) (p : Place) : Option Node :=
  if p.isEmpty then some .directory else (t.nodes.find? fun e => e.1 == p).map Prod.snd

def erase (t : FileTree) (p : Place) : FileTree := { t with nodes := t.nodes.filter fun e => !(e.1 == p) }

def set (t : FileTree) (p : Place) (n : Node) : FileTree := { t with nodes := (t.erase p).nodes ++ [(p, n)] }

/-- The names in a directory, in ascending order. -/
def children (t : FileTree) (p : Place) : List String :=
  let names := t.nodes.filterMap fun e =>
    match e.1.getLast? with
    | some name => if e.1.dropLast = p then some name else none
    | none => none
  names.mergeSort fun a b => a ≤ b

/-- One step on the way along a path; an empty step or a dot stays, but asks for a directory. -/
inductive Step where
  | here
  | up
  | name (text : String)
  deriving DecidableEq

def steps (path : String) : List Step :=
  (Text.pieces '/' path.toList).map fun s =>
    if s = [] || s = ['.'] then .here else if s = ['.', '.'] then .up else .name (String.ofList s)

def longestName : Nat := 255

def longestPath : Nat := 4096

def mostLinks : Nat := 40

/-- The place that the steps lead to from `start`. The last name need not exist; if it is a link it counts as one unless
`through`. Where a link is followed, `jump` goes on with the steps that remain. -/
def walkBy (t : FileTree) (through : Bool) (jump : Place → List Step → Except FileFault Place) (start : Place)
    (ss : List Step) : Except FileFault Place :=
  match ss with
  | [] => .ok start
  | s :: rest =>
    match t.get? start with
    | none => .error .missing
    | some (.file _) => .error .notDirectory
    | some (.link _) => .error .notDirectory
    | some .directory =>
      match s with
      | .here => walkBy t through jump start rest
      | .up => walkBy t through jump start.dropLast rest
      | .name n =>
        if longestName < n.utf8ByteSize then .error .nameTooLong
        else
          match t.get? (start ++ [n]) with
          | some (.link target) =>
            if rest.isEmpty && !through then .ok (start ++ [n])
            else jump (if Path.isAbsolute target.toList then [] else start) (steps target ++ rest)
          | some _ => walkBy t through jump (start ++ [n]) rest
          | none => if rest.isEmpty then .ok (start ++ [n]) else .error .missing

/-- Follows steps through at most so many links. -/
def walk (t : FileTree) (through : Bool) : (links : Nat) → (start : Place) → List Step → Except FileFault Place
  | 0 => t.walkBy through fun _ _ => .error .tooManyLinks
  | links + 1 => t.walkBy through (walk t through links)

/-- The place of a path, perhaps vacant. -/
def place (t : FileTree) (through : Bool) (path : String) : Except FileFault Place :=
  if path.toList.contains '\x00' then .error .nulInName
  else if path = "" then .error .missing
  else if longestPath ≤ path.utf8ByteSize then .error .nameTooLong
  else t.walk through mostLinks (if Path.isAbsolute path.toList then [] else t.base) (steps path)

/-- What a path leads to. -/
def node (t : FileTree) (through : Bool) (path : String) : Except FileFault Node := do
  match t.get? (← t.place through path) with
  | some n => .ok n
  | none => .error .missing

def isFile (t : FileTree) (path : String) : Bool :=
  match t.node true path with
  | .ok (.file _) => true
  | _ => false

def isDirectory (t : FileTree) (path : String) : Bool :=
  match t.node true path with
  | .ok .directory => true
  | _ => false

/-- The text of bytes. -/
def decode (bytes : ByteArray) : Except FileFault String :=
  match String.fromUTF8? bytes with
  | some s => .ok s
  | none => .error .notText

/-- The text of a file. -/
def readText (t : FileTree) (path : String) : Except FileFault String := do
  match ← t.node true path with
  | .file bytes => decode bytes
  | _ => .error .isDirectory

/-- Every text that a file holds. -/
def texts (t : FileTree) : List String :=
  t.nodes.filterMap fun e =>
    match e.2 with
    | .file bytes => String.fromUTF8? bytes
    | _ => none

end FileTree
end Pageweave
