import Pageweave.FileTree.Basic
/-!
# Listing the files below a directory

Directories are entered in the order of their names, also through links. A link to a directory that is being listed is
a fault, and so is an entry that a link does not lead to; the first fault ends the listing.
-/
namespace Pageweave.FileTree

/-- A directory that is being listed. -/
structure Opened where
  path : String
  place : Place

/-- A fault and the path at which it arose. -/
structure ListingFault where
  path : String
  fault : FileFault

/-- The directory or file behind an entry; a link must lead to one, and not to a directory around it. -/
def entered (t : FileTree) (around : List Opened) (path : String) (p : Place) :
    Except ListingFault (Option Place) :=
  match t.get? p with
  | none => .error ⟨path, .unreadable path .missing⟩
  | some (.file _) => .ok none
  | some .directory => .ok (some p)
  | some (.link _) =>
    match t.place true path with
    | .error e => .error ⟨path, .unreadable path e⟩
    | .ok q =>
      match t.get? q with
      | none => .error ⟨path, .unreadable path .missing⟩
      | some .directory =>
        match around.find? fun o => o.place == q with
        | some o => .error ⟨path, .linkLoop path o.path⟩
        | none => .ok (some q)
      | some _ => .ok none

/-- The files below an entry, each as the names behind `names`; directories nest at most `fuel` deep. -/
def listEntry (t : FileTree) :
    (fuel : Nat) → (around : List Opened) → (path : String) → (names : List String) → Place →
      Except ListingFault (List (List String))
  | 0, _, _, _, _ => .ok []
  | fuel + 1, around, path, names, p => do
    match ← t.entered around path p with
    | none => .ok [names]
    | some q =>
      let found ← (t.children q).mapM fun name =>
        listEntry t fuel (⟨path, q⟩ :: around) (Path.join path name) (names ++ [name]) (q ++ [name])
      .ok found.flatten

/-- The files below a directory, as the names that lead to them; none if there is no such directory. -/
def filesBelow (t : FileTree) (root : String) : Except ListingFault (List (List String)) :=
  match t.place true root with
  | .error _ => .ok []
  | .ok p =>
    match t.get? p with
    | some .directory => t.listEntry ((t.nodes.length + 2) * (t.nodes.length + 2)) [] root [] p
    | _ => .ok []

end Pageweave.FileTree
