import Pageweave.FileTree.Listing
import Pageweave.Store.Basic
/-!
# Directories as stores

A key is the file with its name and the extension, below a root. Keys that are empty or climb are never looked for; a
missing root is an empty store. The listing takes every file whose extension fits in any case, at any depth, also
through links.
-/
namespace Pageweave.Store

/-- The file of a key below a root. -/
def pathBelow (root extension : String) (k : Key) : String := Path.join root (k.relativePath extension)

def readBelow (files : FileTree) (root extension : String) (k : Key) : Except PageError (Option String) :=
  if k.isContained then
    let path := pathBelow root extension k
    match files.node true path with
    | .ok (.file bytes) =>
      match FileTree.decode bytes with
      | .ok text => .ok (some text)
      | .error e => .error (.file path e)
    | .ok _ => .ok none
    | .error .missing => .ok none
    | .error e => .error (.file path e)
  else .ok none

/-- The key of a listed file, given by the names that lead to it. -/
def listedKey (extension : String) (names : List String) : Except PageError (Option Key) :=
  match Key.ofParts extension (names.map fun s => .name s.toList) with
  | .keyless => .ok none
  | .key k => .ok (some k)
  | .malformed => .error .malformedName

def listBelow (files : FileTree) (root extension : String) : Except PageError (List Key) :=
  match files.filesBelow root with
  | .error f => .error (.file f.path f.fault)
  | .ok found => (found.filterMapM (listedKey extension)).map Key.ordered

private theorem mem_texts_of_node {files : FileTree} {path text : String} {bytes : ByteArray}
    (found : files.node true path = .ok (.file bytes)) (decoded : FileTree.decode bytes = .ok text) :
    text ∈ files.texts := by
  have decodes : String.fromUTF8? bytes = some text := by
    unfold FileTree.decode at decoded
    split at decoded <;> simp_all
  unfold FileTree.node at found
  cases reached : files.place true path with
  | error e => simp [reached, bind, Except.bind] at found
  | ok p =>
    simp only [reached, bind, Except.bind] at found
    split at found
    · rename_i n held
      simp only [Except.ok.injEq] at found
      subst found
      unfold FileTree.get? at held
      split at held
      · simp at held
      · obtain ⟨e, listed, same⟩ := Option.map_eq_some_iff.mp held
        refine List.mem_filterMap.mpr ⟨e, List.mem_of_find?_eq_some listed, ?_⟩
        simp [same, decodes]
    · simp at found

private theorem readBelow_mem {files : FileTree} {root extension : String} (k : Key) (text : String)
    (h : readBelow files root extension k = .ok (some text)) : text ∈ files.texts := by
  unfold readBelow at h
  split at h
  · simp only at h
    split at h
    · rename_i bytes found
      split at h
      · rename_i s decoded
        simp only [Except.ok.injEq, Option.some.injEq] at h
        exact mem_texts_of_node found (h ▸ decoded)
      · simp at h
    · simp at h
    · simp at h
    · simp at h
  · simp at h

/-- The templates below a root. -/
def directory (files : FileTree) (name root extension : String) : Store where
  name := name
  read := readBelow files root extension
  list := listBelow files root extension
  texts := files.texts
  mem_texts := readBelow_mem

end Pageweave.Store
