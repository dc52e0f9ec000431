import Pageweave.Path
/-!
# Keys

The normalised name of a template: segments between slashes, without the file extension. The same key addresses a
template in every store. Backslashes count as slashes, empty segments and single dots vanish, and one extension at the
end is dropped. The extension is cut off by its length in bytes, so a name whose cut would fall inside a character has
no key.
-/
namespace Pageweave

structure Key where
  name : String
  deriving DecidableEq, Inhabited

namespace Key

instance : LT Key := ⟨fun a b => a.name < b.name⟩

instance (a b : Key) : Decidable (a < b) := inferInstanceAs (Decidable (a.name < b.name))

/-- Is this segment kept in a key? -/
def isSegment (s : List Char) : Bool := s ≠ [] && s ≠ ['.']

/-- Slashes for backslashes, without empty segments and single dots. -/
def flat (name : List Char) : List Char :=
  let slashed := name.map fun c => if c = '\\' then '/' else c
  Text.joined '/' ((Text.pieces '/' slashed).filter isSegment)

/-- Does `suffix` consist of a dot and `extension`, up to the case of ASCII letters? -/
def isSuffix (extension suffix : List Char) : Bool :=
  match suffix with
  | '.' :: rest => Text.sameLetters rest extension
  | _ => false

/-- Drops one extension, if something is left in front of it; nothing if the cut falls inside a character. -/
def stem? (extension name : List Char) : Option (List Char) :=
  let size := Text.byteSize name
  let cut := Text.byteSize extension + 1
  if size ≤ cut then some name
  else (Text.splitAtByte name (size - cut)).map fun (stem, suffix) =>
    if isSuffix extension suffix then stem else name

/-- The key of a name. -/
def ofName? (extension name : String) : Option Key :=
  (stem? extension.toList (flat name.toList)).map fun cs => ⟨String.ofList cs⟩

/-- The names along relative parts; the root and the way up belong to no key. -/
def names? : List Path.Part → Option (List (List Char))
  | [] => some []
  | .name s :: ps => (names? ps).map (s :: ·)
  | .here :: ps => names? ps
  | .root :: _ => none
  | .up :: _ => none

/-- The outcome of reading a path as a key: it has none, its key, or a key that would be cut inside a character. -/
inductive OfPath where
  | keyless
  | key (key : Key)
  | malformed
  deriving DecidableEq

def OfPath.ofOption : Option Key → OfPath
  | some k => .key k
  | none => .malformed

def OfPath.key? : OfPath → Option Key
  | .key k => some k
  | _ => none

/-- The key of a file at a place relative to its store's root. -/
def ofParts (extension : String) (ps : List Path.Part) : OfPath :=
  if Path.hasExtension extension.toList ps then
    match names? ps with
    | some (s :: ss) => .ofOption (ofName? extension (String.ofList (Text.joined '/' (s :: ss))))
    | _ => .keyless
  else .keyless

/-- The key of a file below `root`. -/
def ofPathBelow (extension : String) (root path : String) : OfPath :=
  match Path.below? (Path.parts root.toList) (Path.parts path.toList) with
  | some ps => ofParts extension ps
  | none => .keyless

/-- The file of a key, relative and with slashes. -/
def fileName (k : Key) (extension : String) : String := k.name ++ "." ++ extension

/-- The file of a key as a path. -/
def relativePath (k : Key) (extension : String) : String :=
  String.ofList (Path.ofParts (Text.pieces '/' (k.fileName extension).toList))

def segments (k : Key) : List (List Char) := Text.pieces '/' k.name.toList

/-- A key that is empty or climbs is never looked for in a directory. -/
def isContained (k : Key) : Bool := k.name ≠ "" && k.segments.all (· ≠ ['.', '.'])

/-- Does the key continue `front` with a slash? -/
def isUnder (k : Key) (front : String) : Bool :=
  match Text.after? front.toList k.name.toList with
  | some ('/' :: _) => true
  | _ => false

/-- The last segment. -/
def baseName (k : Key) : String := String.ofList (k.segments.getLast?.getD [])

/-- Keys in ascending order of their bytes, each once. -/
def insertSorted (k : Key) : List Key → List Key
  | [] => [k]
  | q :: qs => if k = q then q :: qs else if k < q then k :: q :: qs else q :: insertSorted k qs

def sorted (ks : List Key) : List Key := ks.foldl (fun acc k => insertSorted k acc) []

theorem mem_insertSorted (k q : Key) (ks : List Key) : q ∈ insertSorted k ks ↔ q = k ∨ q ∈ ks := by
  induction ks with
  | nil => simp [insertSorted]
  | cons p ps ih => grind [insertSorted]

theorem mem_sorted (q : Key) (ks : List Key) : q ∈ sorted ks ↔ q ∈ ks := by
  have into (acc : List Key) : q ∈ ks.foldl (fun acc k => insertSorted k acc) acc ↔ q ∈ acc ∨ q ∈ ks := by
    induction ks generalizing acc with
    | nil => simp
    | cons k ks ih =>
      rw [List.foldl_cons, ih, mem_insertSorted, List.mem_cons, or_assoc, or_left_comm]
  simp [sorted, into]

end Key
end Pageweave
