/-!
# Blank characters and plain text cuts

The blank characters are those of Unicode's `White_Space` class; trimming removes them from the ends.
`pieces` and `joined` cut a text at a separator and put it together again.
-/
namespace Pageweave.Text

/-- Membership in the `White_Space` class. -/
def isBlank (c : Char) : Bool :=
  let n := c.toNat
  (9 ≤ n && n ≤ 13) || n == 0x20 || n == 0x85 || n == 0xA0 || n == 0x1680 ||
    (0x2000 ≤ n && n ≤ 0x200A) || n == 0x2028 || n == 0x2029 || n == 0x202F || n == 0x205F || n == 0x3000

def trimLeft (cs : List Char) : List Char := cs.dropWhile isBlank

def trimRight (cs : List Char) : List Char := (cs.reverse.dropWhile isBlank).reverse

def trimBoth (cs : List Char) : List Char := trimRight (trimLeft cs)

/-- The text without the blank characters at its two ends. -/
def trim (s : String) : String := String.ofList (trimBoth s.toList)

/-- Equality up to the case of the ASCII letters. -/
def sameLetters (a b : List Char) : Bool := a.map Char.toLower == b.map Char.toLower

/-- `sameLetters` on strings. -/
def sameWord (a b : String) : Bool := sameLetters a.toList b.toList

/-- The length in bytes of the UTF-8 form. -/
def byteSize (cs : List Char) : Nat := cs.foldr (fun c n => c.utf8Size + n) 0

/-- Cuts at every separator, so there is one piece more than there are separators. -/
def pieces (sep : Char) : List Char → List (List Char)
  | [] => [[]]
  | c :: cs =>
    if c = sep then [] :: pieces sep cs
    else match pieces sep cs with
      | [] => [[c]]
      | p :: ps => (c :: p) :: ps

/-- The inverse of `pieces`: one separator between any two neighbours. -/
def joined (sep : Char) : List (List Char) → List Char
  | [] => []
  | [p] => p
  | p :: q :: ps => p ++ sep :: joined sep (q :: ps)

/-- The two parts before and after byte `n`, or nothing when byte `n` lies inside a character or behind the end. -/
def splitAtByte : List Char → Nat → Option (List Char × List Char)
  | cs, 0 => some ([], cs)
  | [], _ + 1 => none
  | c :: cs, n + 1 =>
    if c.utf8Size ≤ n + 1 then
      (splitAtByte cs (n + 1 - c.utf8Size)).map fun (front, back) => (c :: front, back)
    else none

/-- What follows `front` in `cs`, if `cs` starts with it. -/
def after? : (front cs : List Char) → Option (List Char)
  | [], cs => some cs
  | _ :: _, [] => none
  | f :: fs, c :: cs => if f = c then after? fs cs else none

/-- The parts before and after the first occurrence of `mark`. -/
def cutAt? (mark : List Char) : List Char → Option (List Char × List Char)
  | [] => (after? mark []).map fun rest => ([], rest)
  | c :: cs =>
    match after? mark (c :: cs) with
    | some rest => some ([], rest)
    | none => (cutAt? mark cs).map fun (front, back) => (c :: front, back)

def contains (mark cs : List Char) : Bool := (cutAt? mark cs).isSome

/-- Every occurrence of `mark`, found from the left, becomes `by_`. `fuel` bounds the number of characters read. -/
def replaceFuel (mark new : List Char) : Nat → List Char → List Char
  | 0, cs => cs
  | _ + 1, [] => []
  | fuel + 1, c :: cs =>
    match after? mark (c :: cs) with
    | some rest => new ++ replaceFuel mark new fuel rest
    | none => c :: replaceFuel mark new fuel cs

/-- Replaces every occurrence of `mark`; the empty mark occurs before, between and after the characters. -/
def replaceAll (mark new cs : List Char) : List Char :=
  match mark with
  | [] => new ++ cs.flatMap fun c => c :: new
  | _ => replaceFuel mark new (cs.length + 1) cs

/-- `replaceAll` on strings. -/
def replace (s mark new : String) : String := String.ofList (replaceAll mark.toList new.toList s.toList)

/-- The lines of a text: cut at `\n`, without a last empty piece, and one `\r` before a `\n`
belongs to the line's end. -/
def lines (cs : List Char) : List (List Char) :=
  let ps := pieces '\n' cs
  let closed := ps.dropLast.map fun p =>
    match p.reverse with
    | '\r' :: rest => rest.reverse
    | _ => p
  match ps.getLast? with
  | some (c :: rest) => closed ++ [c :: rest]
  | _ => closed

/-- Digits before and after padding with blanks on the left up to `width`. -/
def padLeft (width : Nat) (s : String) : String :=
  String.ofList (List.replicate (width - s.length) ' ') ++ s

def padRight (width : Nat) (s : String) : String :=
  s ++ String.ofList (List.replicate (width - s.length) ' ')

end Pageweave.Text
