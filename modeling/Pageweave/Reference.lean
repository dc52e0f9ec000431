import Pageweave.Text.Blank
/-!
# References

A quick scan for the tags of a source that name other templates. Comments and raw blocks are taken out first. It reads
no expressions, so it also sees tags that stand inside a string.
-/
namespace Pageweave

/-- One tag: its candidate names in order, and whether it may go without all of them. -/
structure Reference where
  names : List String
  ignoreMissing : Bool
  deriving DecidableEq

namespace Reference

def skipBlanks (cs : List Char) : List Char := cs.dropWhile Text.isBlank

/-- What follows the opening of a tag and the blanks in it. -/
def opened? (cs : List Char) : Option (List Char) :=
  match cs with
  | '\x7b' :: '%' :: '-' :: rest => some (skipBlanks rest)
  | '\x7b' :: '%' :: rest => some (skipBlanks rest)
  | _ => none

def closed? (cs : List Char) : Option (List Char) :=
  match skipBlanks cs with
  | '-' :: '%' :: '\x7d' :: rest => some rest
  | '%' :: '\x7d' :: rest => some rest
  | _ => none

/-- What follows a tag that holds just one word. -/
def plainTag? (word : String) (cs : List Char) : Option (List Char) :=
  ((opened? cs).bind (Text.after? word.toList)).bind closed?

/-- What follows the first place where `reads` succeeds. -/
def findAfter? (reads : List Char → Option (List Char)) : List Char → Option (List Char)
  | [] => reads []
  | c :: cs => match reads (c :: cs) with
    | some rest => some rest
    | none => findAfter? reads cs

/-- What follows a comment or a raw block. -/
def inert? (cs : List Char) : Option (List Char) :=
  match cs with
  | '\x7b' :: '#' :: rest => (Text.cutAt? ['#', '\x7d'] rest).map Prod.snd
  | _ => (plainTag? "raw" cs).bind (findAfter? (plainTag? "endraw"))

/-- Takes out comments and raw blocks; `fuel` bounds the characters read. -/
def activeFuel : Nat → List Char → List Char
  | 0, cs => cs
  | _ + 1, [] => []
  | fuel + 1, c :: cs =>
    match inert? (c :: cs) with
    | some rest => activeFuel fuel rest
    | none => c :: activeFuel fuel cs

/-- A source without its comments and raw blocks. -/
def active (cs : List Char) : List Char := activeFuel (cs.length + 1) cs

/-- The text up to `close`, and what follows that. -/
def upTo? (close : Char) (cs : List Char) : Option (List Char × List Char) :=
  match cs.dropWhile (· ≠ close) with
  | _ :: rest => some (cs.takeWhile (· ≠ close), rest)
  | [] => none

/-- What a tag refers to: a list in brackets or one quoted name, with its delimiters. -/
def target? (cs : List Char) : Option (List Char × List Char) :=
  match cs with
  | '[' :: rest => (upTo? ']' rest).map fun (inner, rest) => ('[' :: inner ++ [']'], rest)
  | '"' :: rest => (upTo? '"' rest).map fun (inner, rest) => ('"' :: inner ++ ['"'], rest)
  | '\'' :: rest => (upTo? '\'' rest).map fun (inner, rest) => ('\'' :: inner ++ ['\''], rest)
  | _ => none

/-- A name of at least one character between quotes of one kind. -/
def quoted? (cs : List Char) : Option (List Char × List Char) :=
  let between (quote : Char) (rest : List Char) :=
    match upTo? quote rest with
    | some (c :: inner, rest) => some (c :: inner, rest)
    | _ => none
  match cs with
  | '"' :: rest => between '"' rest
  | '\'' :: rest => between '\'' rest
  | _ => none

def namesFuel : Nat → List Char → List String
  | 0, _ => []
  | _ + 1, [] => []
  | fuel + 1, c :: cs =>
    match quoted? (c :: cs) with
    | some (name, rest) => String.ofList name :: namesFuel fuel rest
    | none => namesFuel fuel cs

/-- The quoted names of a target. -/
def namesIn (cs : List Char) : List String := namesFuel (cs.length + 1) cs

/-- At least one blank, then `word`. -/
def blankThen? (word : String) (cs : List Char) : Option (List Char) :=
  match cs with
  | c :: _ => if Text.isBlank c then Text.after? word.toList (skipBlanks cs) else none
  | [] => none

/-- What follows ` ignore missing`. -/
def leave? (cs : List Char) : Option (List Char) := (blankThen? "ignore" cs).bind (blankThen? "missing")

def keyword? (cs : List Char) : Option (List Char) :=
  (Text.after? "include".toList cs).or
    ((Text.after? "extends".toList cs).or (Text.after? "import".toList cs))

/-- One referring tag and what follows the part of it that counts. -/
def tag? (cs : List Char) : Option (Reference × List Char) := do
  let rest ← opened? cs
  let rest ← keyword? rest
  let rest ← match rest with
    | c :: _ => if Text.isBlank c then some (skipBlanks rest) else none
    | [] => none
  let (target, rest) ← target? rest
  match leave? rest with
  | some rest => some (⟨namesIn target, true⟩, rest)
  | none => some (⟨namesIn target, false⟩, rest)

def tagsFuel : Nat → List Char → List Reference
  | 0, _ => []
  | _ + 1, [] => []
  | fuel + 1, c :: cs =>
    match tag? (c :: cs) with
    | some (r, rest) => r :: tagsFuel fuel rest
    | none => tagsFuel fuel cs

/-- The references of a source, in order; a tag without a name is none. -/
def scan (source : String) : List Reference :=
  let cs := active source.toList
  (tagsFuel (cs.length + 1) cs).filter fun r => !r.names.isEmpty

end Reference
end Pageweave
