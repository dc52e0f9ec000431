import Pageweave.Text.Blank
import Pageweave.Toml.Basic
/-!
# Single values of settings

Quoted texts in their four forms, numbers, truth values and points in time. A word that is none of them is refused.
-/
namespace Pageweave.Toml

def isSpace (c : Char) : Bool := c = ' ' || c = '\t'

def skipSpaces (cs : List Char) : List Char := cs.dropWhile isSpace

/-- Control characters, which stand nowhere but for tabs and line ends. -/
def isControl (c : Char) : Bool := (c.toNat < 32 && c ≠ '\t') || c.toNat = 127

def newline? : List Char → Option (List Char)
  | '\n' :: rest => some rest
  | '\r' :: '\n' :: rest => some rest
  | _ => none

def hexValue (ds : List Char) : Option Nat :=
  ds.foldl (fun n c =>
    if c.isDigit then n.map (· * 16 + (c.toNat - 48))
    else if 'a' ≤ c.toLower && c.toLower ≤ 'f' then n.map (· * 16 + (c.toLower.toNat - 87))
    else none) (some 0)

/-- A character given by so many hexadecimal digits. -/
def codePoint? (count : Nat) (cs : List Char) : Option (Char × List Char) :=
  let ds := cs.take count
  if ds.length = count then
    (hexValue ds).bind fun n => if n.isValidChar then some (Char.ofNat n, cs.drop count) else none
  else none

/-- What a backslash and what follows it stand for. -/
def escape? : List Char → Option (Char × List Char)
  | 'b' :: rest => some ('\x08', rest)
  | 't' :: rest => some ('\t', rest)
  | 'n' :: rest => some ('\n', rest)
  | 'f' :: rest => some ('\x0c', rest)
  | 'r' :: rest => some ('\r', rest)
  | '"' :: rest => some ('"', rest)
  | '\\' :: rest => some ('\\', rest)
  | 'u' :: rest => codePoint? 4 rest
  | 'U' :: rest => codePoint? 8 rest
  | _ => none

/-- The rest of a text with escapes on one line; `fuel` bounds its characters. -/
def quotedLine : (fuel : Nat) → List Char → Option (List Char × List Char)
  | 0, _ => none
  | _ + 1, [] => none
  | fuel + 1, c :: cs =>
    if c = '"' then some ([], cs)
    else if c = '\\' then do
      let (d, rest) ← escape? cs
      let (more, rest) ← quotedLine fuel rest
      some (d :: more, rest)
    else if isControl c then none
    else (quotedLine fuel cs).map fun (more, rest) => (c :: more, rest)

/-- The rest of a text without escapes on one line. -/
def plainLine (cs : List Char) : Option (List Char × List Char) :=
  let body := cs.takeWhile (· ≠ '\'')
  match cs.dropWhile (· ≠ '\'') with
  | _ :: rest => if body.any isControl then none else some (body, rest)
  | [] => none

/-- Three closing quotes, perhaps with one or two in front that belong to the text. -/
def closing? (q : Char) (cs : List Char) : Option (List Char × List Char) :=
  let run := cs.takeWhile (· = q)
  if run.length < 3 then none
  else if run.length < 6 then some (run.drop 3, cs.drop run.length)
  else some ([q, q], cs.drop 5)

/-- Skips spaces and line ends behind a backslash that ends a line. -/
def skipLineEnds (cs : List Char) : List Char := cs.dropWhile fun c => isSpace c || c = '\n' || c = '\r'

def endsLine (cs : List Char) : Bool := (newline? (skipSpaces cs)).isSome

/-- The rest of a text over several lines. -/
def manyLines (q : Char) : (fuel : Nat) → List Char → Option (List Char × List Char)
  | 0, _ => none
  | _ + 1, [] => none
  | fuel + 1, c :: cs =>
    match closing? q (c :: cs) with
    | some found => some found
    | none =>
      if q = '"' && c = '\\' then
        if endsLine cs then manyLines q fuel (skipLineEnds cs)
        else do
          let (d, rest) ← escape? cs
          let (more, rest) ← manyLines q fuel rest
          some (d :: more, rest)
      else
        match newline? (c :: cs) with
        | some rest => (manyLines q fuel rest).map fun (more, rest) => ('\n' :: more, rest)
        | none =>
          if isControl c then none else (manyLines q fuel cs).map fun (more, rest) => (c :: more, rest)

/-- The text behind three opening quotes, which may be followed by a line end. -/
def manyLined (q : Char) (cs : List Char) : Option (List Char × List Char) :=
  manyLines q (cs.length + 1) ((newline? cs).getD cs)

/-- A quoted text on one line. -/
def lineText? : List Char → Option (List Char × List Char)
  | '"' :: cs => quotedLine (cs.length + 1) cs
  | '\'' :: cs => plainLine cs
  | _ => none

/-- A quoted text. -/
def text? : List Char → Option (List Char × List Char)
  | '"' :: '"' :: '"' :: cs => manyLined '"' cs
  | '\'' :: '\'' :: '\'' :: cs => manyLined '\'' cs
  | cs => lineText? cs

/-- Digits, perhaps with single low lines between them, without those. -/
def digits? (isDigit : Char → Bool) (cs : List Char) : Option (List Char) :=
  let groups := Text.pieces '_' cs
  if groups.all fun g => !g.isEmpty && g.all isDigit then some groups.flatten else none

def isHexDigit (c : Char) : Bool := c.isDigit || ('a' ≤ c.toLower && c.toLower ≤ 'f')

/-- The value of digits to a base. -/
def number (base : Nat) (ds : List Char) : Nat :=
  ds.foldl (fun n c => n * base + (if c.isDigit then c.toNat - 48 else c.toLower.toNat - 87)) 0

/-- A sign in front, and what follows. -/
def signed : List Char → Bool × List Char
  | '-' :: cs => (true, cs)
  | '+' :: cs => (false, cs)
  | cs => (false, cs)

/-- Digits without a zero in front of others. -/
def wholeDigits? (cs : List Char) : Option (List Char) :=
  (digits? Char.isDigit cs).bind fun ds =>
    match ds with
    | '0' :: _ :: _ => none
    | _ => some ds

def integer? : List Char → Option Int
  | '0' :: 'x' :: cs => (digits? isHexDigit cs).map fun ds => (number 16 ds : Int)
  | '0' :: 'o' :: cs => (digits? (fun c => '0' ≤ c && c ≤ '7') cs).map fun ds => (number 8 ds : Int)
  | '0' :: 'b' :: cs => (digits? (fun c => c = '0' || c = '1') cs).map fun ds => (number 2 ds : Int)
  | cs =>
    let (negative, cs) := signed cs
    (wholeDigits? cs).map fun ds => if negative then -(number 10 ds : Int) else number 10 ds

def exponent? (cs : List Char) : Option Int :=
  let (negative, cs) := signed cs
  (digits? Char.isDigit cs).map fun ds => if negative then -(number 10 ds : Int) else number 10 ds

/-- The double nearest to `digits * 10 ^ exponent`, if that is not too large. -/
def nearest? (negative : Bool) (digits : Nat) (exponent : Int) : Option Float :=
  let x :=
    if digits = 0 || exponent < -100000 then 0.0
    else if 100000 < exponent then Float.ofScientific 1 false 400
    else Float.ofScientific digits (exponent < 0) exponent.natAbs
  if x.isInf then none else some (if negative then -x else x)

/-- A number with a point or an exponent; the inner option is empty if it is too large. -/
def float? (cs : List Char) : Option (Option Float) :=
  let (negative, cs) := signed cs
  if cs = "inf".toList then some (some (if negative then -(1.0 / 0.0) else 1.0 / 0.0))
  else if cs = "nan".toList then some (some (0.0 / 0.0))
  else
    let mantissa := cs.takeWhile fun c => c ≠ 'e' && c ≠ 'E'
    let power := cs.drop (mantissa.length + 1)
    let exponent := if mantissa.length = cs.length then some 0 else exponent? power
    match Text.pieces '.' mantissa with
    | [whole] =>
      if mantissa.length = cs.length then none
      else do
        let ds ← wholeDigits? whole
        some (nearest? negative (number 10 ds) (← exponent))
    | [whole, fraction] => do
      let ds ← wholeDigits? whole
      let fs ← digits? Char.isDigit fraction
      some (nearest? negative (number 10 (ds ++ fs)) ((← exponent) - fs.length))
    | _ => none

/-- So many digits, as a number, and what follows. -/
def fixed? (count : Nat) (cs : List Char) : Option (Nat × List Char) :=
  let ds := cs.take count
  if ds.length = count && ds.all Char.isDigit then some (number 10 ds, cs.drop count) else none

def mark? (c : Char) : List Char → Option (List Char)
  | d :: rest => if c = d then some rest else none
  | [] => none

def isLeap (year : Nat) : Bool := year % 4 = 0 && (year % 100 ≠ 0 || year % 400 = 0)

def daysIn (year month : Nat) : Nat :=
  if month = 2 then (if isLeap year then 29 else 28)
  else if month = 4 || month = 6 || month = 9 || month = 11 then 30
  else 31

def date? (cs : List Char) : Option (List Char) := do
  let (year, cs) ← fixed? 4 cs
  let (month, cs) ← fixed? 2 (← mark? '-' cs)
  let (day, cs) ← fixed? 2 (← mark? '-' cs)
  if 1 ≤ month && month ≤ 12 && 1 ≤ day && day ≤ daysIn year month then some cs else none

def time? (cs : List Char) : Option (List Char) := do
  let (hour, cs) ← fixed? 2 cs
  let (minute, cs) ← fixed? 2 (← mark? ':' cs)
  let (second, cs) ← fixed? 2 (← mark? ':' cs)
  if hour ≤ 23 && minute ≤ 59 && second ≤ 60 then
    match cs with
    | '.' :: rest => if (rest.takeWhile Char.isDigit).isEmpty then none else some (rest.dropWhile Char.isDigit)
    | _ => some cs
  else none

def offset? : List Char → Option (List Char)
  | [] => some []
  | c :: cs =>
    if c = 'Z' || c = 'z' then some cs
    else if c = '+' || c = '-' then do
      let (hour, cs) ← fixed? 2 cs
      let (minute, cs) ← fixed? 2 (← mark? ':' cs)
      if hour ≤ 23 && minute ≤ 59 then some cs else none
    else none

def isMoment (cs : List Char) : Bool :=
  match date? cs with
  | some [] => true
  | some (c :: rest) => (c = 'T' || c = 't' || c = ' ') && ((time? rest).bind offset?) == some []
  | none => time? cs == some []

def isWordChar (c : Char) : Bool := c.isAlphanum || c = '+' || c = '-' || c = '_' || c = '.' || c = ':'

/-- A word at the front; a date takes a time behind one space with it. -/
def word (cs : List Char) : List Char × List Char :=
  let front := cs.takeWhile isWordChar
  match cs.dropWhile isWordChar with
  | ' ' :: c :: rest =>
    if date? front = some [] && c.isDigit then
      (front ++ ' ' :: (c :: rest).takeWhile isWordChar, (c :: rest).dropWhile isWordChar)
    else (front, ' ' :: c :: rest)
  | rest => (front, rest)

/-- The value that a word stands for. -/
def ofWord? (w : List Char) : Option Toml :=
  if w = "true".toList then some (.bool true)
  else if w = "false".toList then some (.bool false)
  else if isMoment w then some .moment
  else
    match integer? w with
    | some n => some (.integer n)
    | none => (float? w).map .float

/-- A value that is neither a list nor a table. -/
def scalar? (cs : List Char) : Option (Toml × List Char) :=
  match cs with
  | '"' :: _ => (text? cs).map fun (s, rest) => (.string (String.ofList s), rest)
  | '\'' :: _ => (text? cs).map fun (s, rest) => (.string (String.ofList s), rest)
  | _ =>
    let (w, rest) := word cs
    (ofWord? w).map fun v => (v, rest)

end Pageweave.Toml
