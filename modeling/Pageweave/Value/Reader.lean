import Pageweave.Text.Blank
import Pageweave.Value.Basic
/-!
# Reading values

A recursive-descent reader of the exchange form. A fault carries the text that was left when it was found,
from which line and column follow. Arrays and objects nest at most 127 deep.
-/
namespace Pageweave.Value
namespace Reader

/-- What can be wrong with a text. -/
inductive Fault where
  | endInList | endInObject | endInString | endInValue
  | wantsColon | wantsListCommaOrEnd | wantsObjectCommaOrEnd | wantsIdentifier | wantsValue
  | badEscape | badNumber | outOfRange | controlCharacter | keyNotString
  | loneSurrogate | endOfHexEscape | trailingComma | trailingCharacters | tooDeep

def Fault.message : Fault → String
  | .endInList => "EOF while parsing a list"
  | .endInObject => "EOF while parsing an object"
  | .endInString => "EOF while parsing a string"
  | .endInValue => "EOF while parsing a value"
  | .wantsColon => "expected `:`"
  | .wantsListCommaOrEnd => "expected `,` or `]`"
  | .wantsObjectCommaOrEnd => "expected `,` or `\x7d`"
  | .wantsIdentifier => "expected ident"
  | .wantsValue => "expected value"
  | .badEscape => "invalid escape"
  | .badNumber => "invalid number"
  | .outOfRange => "number out of range"
  | .controlCharacter => "control character (\\u0000-\\u001F) found while parsing a string"
  | .keyNotString => "key must be a string"
  | .loneSurrogate => "lone leading surrogate in hex escape"
  | .endOfHexEscape => "unexpected end of hex escape"
  | .trailingComma => "trailing comma"
  | .trailingCharacters => "trailing characters"
  | .tooDeep => "recursion limit exceeded"

/-- A fault, the text left, and whether the fault is the next character rather than the last one read. -/
structure Problem where
  fault : Fault
  rest : List Char
  ahead : Bool

private def stop {α : Type} (fault : Fault) (rest : List Char) : Except Problem α := .error ⟨fault, rest, false⟩
private def stopAt {α : Type} (fault : Fault) (rest : List Char) : Except Problem α := .error ⟨fault, rest, true⟩

/-- Blanks between tokens. -/
def skip (cs : List Char) : List Char :=
  cs.dropWhile fun c => c = ' ' || c = '\n' || c = '\t' || c = '\r'

/-- The rest of a word such as `null`. -/
def word (value : Value) : List Char → List Char → Except Problem (Value × List Char)
  | [], cs => .ok (value, cs)
  | _ :: _, [] => stop .endInValue []
  | w :: ws, c :: cs => if w = c then word value ws cs else stop .wantsIdentifier cs

def digit? (c : Char) : Option Nat := if c.isDigit then some (c.toNat - 48) else none

def hexDigit? (c : Char) : Option Nat :=
  if c.isDigit then some (c.toNat - 48)
  else if 'a' ≤ c && c ≤ 'f' then some (c.toNat - 87)
  else if 'A' ≤ c && c ≤ 'F' then some (c.toNat - 55)
  else none

/-- Four hexadecimal digits. -/
def hex : List Char → Except Problem (Nat × List Char)
  | a :: b :: c :: d :: rest =>
    match hexDigit? a, hexDigit? b, hexDigit? c, hexDigit? d with
    | some a, some b, some c, some d => .ok (((a * 16 + b) * 16 + c) * 16 + d, rest)
    | _, _, _, _ => stop .badEscape rest
  | _ => stop .endInString []

/-- The character of an escape, after its backslash. -/
def escape : List Char → Except Problem (Char × List Char)
  | [] => stop .endInString []
  | 'u' :: cs => do
    let (n, rest) ← hex cs
    if 0xDC00 ≤ n && n ≤ 0xDFFF then stop .loneSurrogate rest
    else if 0xD800 ≤ n && n ≤ 0xDBFF then
      match rest with
      | [] => stop .endInString []
      | '\\' :: 'u' :: rest => do
        let (m, rest) ← hex rest
        if 0xDC00 ≤ m && m ≤ 0xDFFF then
          .ok (Char.ofNat (0x10000 + (n - 0xD800) * 0x400 + (m - 0xDC00)), rest)
        else stop .loneSurrogate rest
      | ['\\'] => stop .endInString []
      | '\\' :: _ :: rest => stop .endOfHexEscape rest
      | _ :: rest => stop .endOfHexEscape rest
    else .ok (Char.ofNat n, rest)
  | c :: cs =>
    if c = '"' || c = '\\' || c = '/' then .ok (c, cs)
    else if c = 'b' then .ok ('\x08', cs)
    else if c = 'f' then .ok ('\x0c', cs)
    else if c = 'n' then .ok ('\n', cs)
    else if c = 'r' then .ok ('\r', cs)
    else if c = 't' then .ok ('\t', cs)
    else stop .badEscape cs

/-- The characters up to the closing quote. -/
def string : (fuel : Nat) → (acc : List Char) → List Char → Except Problem (String × List Char)
  | 0, _, cs => stop .endInString cs
  | _ + 1, _, [] => stop .endInString []
  | fuel + 1, acc, c :: cs =>
    if c = '"' then .ok (String.ofList acc.reverse, cs)
    else if c = '\\' then
      match escape cs with
      | .ok (d, rest) => string fuel (d :: acc) rest
      | .error p => .error p
    else if c.toNat < 32 then stop .controlCharacter cs
    else string fuel (c :: acc) cs

/-- `significand * 10 ^ exponent` with at most one rounding where the power of ten is a double; larger negative
exponents divide in steps of `10 ^ 308`. -/
def floatOfParts (negative : Bool) (significand : Nat) (rest : List Char) : (fuel : Nat) → (exponent : Int) →
    Float → Except Problem Float
  | 0, _, _ => .ok 0.0
  | fuel + 1, exponent, x =>
    if exponent.natAbs ≤ 308 then
      let scale := Float.ofScientific 1 false exponent.natAbs
      if 0 ≤ exponent then
        let y := x * scale
        if y.isInf then stop .outOfRange rest else .ok (if negative then -y else y)
      else .ok (if negative then -(x / scale) else x / scale)
    else if x == 0.0 then .ok (if negative then -x else x)
    else if 0 ≤ exponent then stop .outOfRange rest
    else floatOfParts negative significand rest fuel (exponent + 308) (x / 1e308)

def makeFloat (negative : Bool) (significand : Nat) (exponent : Int) (rest : List Char) :
    Except Problem (Value × List Char) := do
  let x ← floatOfParts negative significand rest (exponent.natAbs / 308 + 2) exponent (Float.ofNat significand)
  .ok (.number (.float x), rest)

/-- Digits are gathered while the number fits into 64 bits; the first digit that does not ends it. -/
def gather : (significand count : Nat) → List Char → Nat × Nat × List Char × Bool
  | s, n, c :: cs =>
    match digit? c with
    | some d => if Nat.pow 2 64 ≤ s * 10 + d then (s, n, c :: cs, true) else gather (s * 10 + d) (n + 1) cs
    | none => (s, n, c :: cs, false)
  | s, n, [] => (s, n, [], false)

private def startsExponent : List Char → Bool
  | c :: _ => c = 'e' || c = 'E'
  | [] => false

/-- The exponent after its letter. -/
def exponent (negative : Bool) (significand : Nat) (start : Int) (cs : List Char) :
    Except Problem (Value × List Char) :=
  let (down, cs) := match cs with
    | '+' :: cs => (false, cs)
    | '-' :: cs => (true, cs)
    | cs => (false, cs)
  match cs with
  | [] => stop .endInValue []
  | c :: rest =>
    match digit? c with
    | none => stop .badNumber rest
    | some first =>
      let ds := rest.takeWhile Char.isDigit
      let tail := rest.dropWhile Char.isDigit
      let e := ds.foldl (fun e c => e * 10 + (c.toNat - 48)) first
      if Nat.pow 2 31 ≤ e then
        if significand != 0 && !down then stop .outOfRange tail
        else .ok (.number (.float (if negative then -0.0 else 0.0)), tail)
      else makeFloat negative significand (if down then start - e else start + e) tail

/-- The digits behind the point. -/
def fraction (negative : Bool) (significand : Nat) (start : Int) (cs : List Char) :
    Except Problem (Value × List Char) :=
  let (s, n, rest, full) := gather significand 0 cs
  if full then
    let rest := rest.dropWhile Char.isDigit
    if startsExponent rest then exponent negative s (start - n) (rest.drop 1)
    else makeFloat negative s (start - n) rest
  else if n == 0 then
    match rest with
    | [] => stopAt .endInValue []
    | _ => stopAt .badNumber rest
  else if startsExponent rest then exponent negative s (start - n) (rest.drop 1)
  else makeFloat negative s (start - n) rest

/-- What follows the whole part of a number. -/
def afterWhole (negative : Bool) (significand : Nat) : List Char → Except Problem (Value × List Char)
  | '.' :: cs => fraction negative significand 0 cs
  | cs =>
    if startsExponent cs then exponent negative significand 0 (cs.drop 1)
    else if negative then
      if significand == 0 || Nat.pow 2 63 < significand then .ok (.number (.float (-(Float.ofNat significand))), cs)
      else .ok (.number (.int (-(significand : Int))), cs)
    else .ok (.number (.int significand), cs)

/-- A number after its sign. -/
def number (negative : Bool) : List Char → Except Problem (Value × List Char)
  | [] => stop .endInValue []
  | '0' :: cs =>
    match cs with
    | c :: _ => if c.isDigit then stopAt .badNumber cs else afterWhole negative 0 cs
    | [] => afterWhole negative 0 []
  | c :: cs =>
    match digit? c with
    | none => stop .badNumber cs
    | some d =>
      let (s, _, rest, full) := gather d 0 cs
      if full then
        let dropped := (rest.takeWhile Char.isDigit).length
        match rest.dropWhile Char.isDigit with
        | '.' :: rest => fraction negative s dropped rest
        | rest =>
          if startsExponent rest then exponent negative s dropped (rest.drop 1)
          else makeFloat negative s dropped rest
      else afterWhole negative s rest

/-- The items of an array after the first, up to the closing bracket. -/
def items (item : List Char → Except Problem (Value × List Char)) :
    (fuel : Nat) → (acc : List Value) → List Char → Except Problem (Value × List Char)
  | 0, _, cs => stopAt .endInList cs
  | fuel + 1, acc, cs =>
    match skip cs with
    | [] => stopAt .endInList []
    | ']' :: rest => .ok (.array acc.reverse, rest)
    | ',' :: rest =>
      if acc.isEmpty then stopAt .wantsValue (',' :: rest)
      else match skip rest with
        | [] => stopAt .endInValue []
        | ']' :: more => stopAt .trailingComma (']' :: more)
        | rest => do
          let (v, rest) ← item rest
          items item fuel (v :: acc) rest
    | rest =>
      if acc.isEmpty then do
        let (v, rest) ← item rest
        items item fuel (v :: acc) rest
      else stopAt .wantsListCommaOrEnd rest

/-- One field after its opening quote. -/
def field (item : List Char → Except Problem (Value × List Char)) (cs : List Char) :
    Except Problem ((String × Value) × List Char) := do
  let (key, rest) ← string (cs.length + 1) [] cs
  match skip rest with
  | ':' :: rest =>
    let (v, rest) ← item (skip rest)
    .ok ((key, v), rest)
  | [] => stopAt .endInObject []
  | rest => stopAt .wantsColon rest

/-- The fields of an object up to the closing brace; `first` is true before any field. -/
def fields (item : List Char → Except Problem (Value × List Char)) :
    (fuel : Nat) → (first : Bool) → Fields → List Char → Except Problem (Value × List Char)
  | 0, _, _, cs => stopAt .endInObject cs
  | fuel + 1, first, acc, cs =>
    match skip cs with
    | [] => stopAt .endInObject []
    | '\x7d' :: rest => .ok (.object acc, rest)
    | rest =>
      let start : Except Problem (List Char) :=
        if first then
          match rest with
          | '"' :: rest => .ok rest
          | rest => stopAt .keyNotString rest
        else match rest with
          | ',' :: rest =>
            match skip rest with
            | '"' :: rest => .ok rest
            | '\x7d' :: more => stopAt .trailingComma ('\x7d' :: more)
            | [] => stopAt .endInValue []
            | rest => stopAt .keyNotString rest
          | rest => stopAt .wantsObjectCommaOrEnd rest
      do
        let rest ← start
        let ((k, v), rest) ← field item rest
        fields item fuel false (Fields.insert k v acc) rest

/-- A value, with `depth` levels of nesting to spend. -/
def value : (depth : Nat) → List Char → Except Problem (Value × List Char)
  | 0, cs => stopAt .tooDeep cs
  | depth + 1, cs =>
    match skip cs with
    | [] => stopAt .endInValue []
    | 'n' :: rest => word .null ['u', 'l', 'l'] rest
    | 't' :: rest => word (.bool true) ['r', 'u', 'e'] rest
    | 'f' :: rest => word (.bool false) ['a', 'l', 's', 'e'] rest
    | '-' :: rest => number true rest
    | '"' :: rest => do
      let (s, rest) ← string (rest.length + 1) [] rest
      .ok (.string s, rest)
    | '[' :: rest =>
      if depth == 0 then stopAt .tooDeep ('[' :: rest) else items (value depth) (rest.length + 1) [] rest
    | '\x7b' :: rest =>
      if depth == 0 then stopAt .tooDeep ('\x7b' :: rest) else fields (value depth) (rest.length + 1) true [] rest
    | c :: rest => if c.isDigit then number false (c :: rest) else stopAt .wantsValue (c :: rest)

/-- Line and column of the end of a text; columns count bytes. -/
def position (consumed : List Char) (more : Nat) : Nat × Nat :=
  let current := (consumed.reverse.takeWhile (· ≠ '\n'))
  (consumed.count '\n' + 1, Text.byteSize current + more)

def Problem.message (p : Problem) (whole : List Char) : String :=
  let consumed := whole.take (whole.length - p.rest.length)
  let (line, column) := match p.ahead, p.rest with
    | true, '\n' :: _ => (consumed.count '\n' + 2, 0)
    | true, _ :: _ => position consumed 1
    | _, _ => position consumed 0
  p.fault.message ++ " at line " ++ toString line ++ " column " ++ toString column

end Reader

/-- The value written in a text, or what is wrong with it and where. -/
def read (s : String) : Except String Value :=
  let cs := s.toList
  match Reader.value 128 cs with
  | .error p => .error (p.message cs)
  | .ok (v, rest) =>
    match Reader.skip rest with
    | [] => .ok v
    | rest => .error (Reader.Problem.message ⟨.trailingCharacters, rest, true⟩ cs)

end Pageweave.Value
