import Pageweave.Text.Blank
/-!
# Paths

A path is text; what it names is its list of parts. Repeated slashes, inner dots and a last slash do not show in the
parts. The extension belongs to the last part, and a path lies below another if its parts start with the other's.
-/
namespace Pageweave.Path

/-- One part of a path: the root, the directory itself (only in front), the one above, or a name. -/
inductive Part where
  | root
  | here
  | up
  | name (text : List Char)
  deriving DecidableEq

def Part.ofText? (s : List Char) : Option Part :=
  if s = [] || s = ['.'] then none else if s = ['.', '.'] then some .up else some (.name s)

def isAbsolute (path : List Char) : Bool :=
  match path with
  | '/' :: _ => true
  | _ => false

/-- The parts of a path; a dot counts only in front of a relative path. -/
def parts (path : List Char) : List Part :=
  match Text.pieces '/' path with
  | [] => []
  | first :: rest =>
    let front :=
      if isAbsolute path then [.root]
      else if first = ['.'] then [.here]
      else (Part.ofText? first).toList
    front ++ rest.filterMap Part.ofText?

/-- The last part, if it is a name. -/
def fileName? (ps : List Part) : Option (List Char) :=
  match ps.getLast? with
  | some (.name s) => some s
  | _ => none

/-- What follows the last dot of a name, unless that dot is the first character. -/
def extension? (name : List Char) : Option (List Char) :=
  let back := name.reverse.takeWhile (· ≠ '.')
  if back.length + 1 < name.length then some back.reverse else none

/-- Does the last part end in a dot and `extension`, up to the case of ASCII letters? -/
def hasExtension (extension : List Char) (ps : List Part) : Bool :=
  match fileName? ps with
  | none => false
  | some name =>
    match extension? name with
    | none => false
    | some found => Text.sameLetters found extension

/-- The parts of `ps` behind `front`, if `ps` starts with it. -/
def below? : (front ps : List Part) → Option (List Part)
  | [], ps => some ps
  | _ :: _, [] => none
  | f :: fs, p :: ps => if f = p then below? fs ps else none

/-- Puts `part` behind a path, with a slash between them where there is none. -/
def push (path part : List Char) : List Char :=
  if isAbsolute part then part
  else match path.getLast? with
    | none => part
    | some c => if c = '/' then path ++ part else path ++ '/' :: part

/-- Pushes several parts. -/
def ofParts (ps : List (List Char)) : List Char := ps.foldl push []

def Part.text : Part → List Char
  | .root => ['/']
  | .here => ['.']
  | .up => ['.', '.']
  | .name s => s

/-- The shortest text with these parts. -/
def ofPartList (ps : List Part) : String := String.ofList (ofParts (ps.map Part.text))

/-- Is this piece of a path no part of it? -/
def isIdle (piece : List Char) : Bool := piece = [] || piece = ['.']

/-- The path of the directory that `path` lies in: without its last part and the slashes in front of it. -/
def parent (path : String) : String :=
  let back := ((Text.pieces '/' path.toList).reverse.dropWhile isIdle).drop 1
  match back.dropWhile isIdle with
  | [] => if isAbsolute path.toList then "/" else ""
  | ps => String.ofList (Text.joined '/' ps.reverse)

/-- The text `path` joined with `part`. -/
def join (path part : String) : String := String.ofList (push path.toList part.toList)

end Pageweave.Path
