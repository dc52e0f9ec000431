import Pageweave.Text.Blank
import Pageweave.Value.Text
/-!
# Paths into values

`a.b.0` names a field of an object or an item of an array; a key with dots in it stands in quotes. Brackets are turned
into dots once the names inside them are known.
-/
namespace Pageweave.Template.Pointer

/-- What the reader of a path remembers: whether it is inside quotes of each kind, or behind a backslash. -/
structure Quoting where
  double : Bool := false
  single : Bool := false
  escaped : Bool := false

/-- The keys of a path: cut at the dots outside of quotes. `current` has its last character first. -/
def keysFrom (q : Quoting) (current : List Char) : List Char → List (List Char)
  | [] => [current.reverse]
  | c :: cs =>
    if c = '"' then keysFrom { q with double := !q.double } (c :: current) cs
    else if c = '\'' then keysFrom { q with single := !q.single } (c :: current) cs
    else if c = '\\' then keysFrom { q with escaped := true } (c :: current) cs
    else if c = '.' then
      if q.double || q.single then keysFrom q (c :: current) cs
      else if q.escaped then keysFrom { q with escaped := false } (c :: current) cs
      else current.reverse :: keysFrom q [] cs
    else keysFrom q (c :: current) cs

def unquote (cs : List Char) : List Char :=
  ((cs.dropWhile (· = '"')).reverse.dropWhile (· = '"')).reverse

/-- Slashes and tildes as they were before brackets were turned into dots. -/
def unescape (cs : List Char) : List Char := Text.replaceAll "~0".toList ['~'] (Text.replaceAll "~1".toList ['/'] cs)

def keys (path : List Char) : List String :=
  (keysFrom {} [] path).map fun k => String.ofList (unescape (unquote k))

/-- A place in an array: digits without needless zeros in front. -/
def index? (key : String) : Option Nat :=
  let cs := key.toList
  if cs.isEmpty || !cs.all Char.isDigit || (cs.head? == some '0' && cs.length != 1) then none
  else some (cs.foldl (fun n c => n * 10 + (c.toNat - 48)) 0)

def step? (v : Value) (key : String) : Option Value :=
  match v with
  | .object fields => Fields.get? key fields
  | .array items => (index? key).bind fun i => items[i]?
  | _ => none

/-- What a path leads to inside a value. -/
def follow? (v : Value) (path : List Char) : Option Value :=
  if path.isEmpty then some v else (keys path).foldlM step? v

/-- The text before the first dot and the one behind it, if there is a dot. -/
def split (path : List Char) : List Char × Option (List Char) :=
  match path.dropWhile (· ≠ '.') with
  | _ :: rest => (path.takeWhile (· ≠ '.'), some rest)
  | [] => (path, none)

/-- What stands between brackets, up to the one that closes; nothing if none does. -/
def bracketed? : (depth : Nat) → (current : List Char) → List Char → Option (List Char × List Char)
  | _, _, [] => none
  | depth, current, ']' :: cs =>
    if depth = 0 then some (current.reverse, cs) else bracketed? (depth - 1) (']' :: current) cs
  | depth, current, '[' :: cs => bracketed? (depth + 1) ('[' :: current) cs
  | depth, current, c :: cs => bracketed? depth (c :: current) cs

def isNumber (cs : List Char) : Bool :=
  let ds := if cs.head? == some '+' then cs.drop 1 else cs
  !ds.isEmpty && ds.all Char.isDigit && ds.foldl (fun n c => n * 10 + (c.toNat - 48)) 0 < Nat.pow 2 64

/-- The paths inside brackets, outermost ones only; texts in quotes and numbers are none. -/
def innerPathsFuel : Nat → List Char → List (List Char)
  | 0, _ => []
  | _ + 1, [] => []
  | fuel + 1, '[' :: cs =>
    match cs with
    | [] => []
    | c :: rest =>
      if c = '"' || c = '\'' then innerPathsFuel fuel rest
      else match bracketed? 0 [] cs with
        | some (inner, rest) =>
          if isNumber inner then innerPathsFuel fuel rest else inner :: innerPathsFuel fuel rest
        | none => []
  | fuel + 1, _ :: cs => innerPathsFuel fuel cs

def innerPaths (path : List Char) : List (List Char) := innerPathsFuel (path.length + 1) path

/-- Puts a known key in the place of the first bracket around `inner`. -/
def place (inner key path : List Char) : List Char :=
  match Text.cutAt? ('[' :: inner ++ [']']) path with
  | some (front, back) => front ++ '.' :: key ++ back
  | none => path ++ '.' :: key

/-- Turns what is left of brackets into dots. -/
def flat (path : List Char) : List Char :=
  let r (mark new : String) (cs : List Char) : List Char := Text.replaceAll mark.toList new.toList cs
  r "]" "" (r "\"]" "\"" (r "']" "\"" (r "[" "." (r "[\"" ".\"" (r "['" ".\"" (r "/" "~1" path))))))

end Pageweave.Template.Pointer
