import Pageweave.Toml.Scalar
/-!
# Reading settings texts

Lines with names and values, headers that open tables, comments. Lists run over several lines, tables within braces do
not. A span is counted from the number of characters that are left, so a reader only carries the rest of the text. What
does not read is answered with the characters left where reading stopped.
-/
namespace Pageweave.Toml

/-- A step of reading; a failing one gives the rest at which it stopped. -/
abbrev Step := Except (List Char)

private def orStop {α : Type} (cs : List Char) : Option α → Except (List Char) α
  | some a => .ok a
  | none => .error cs

/-- The span from where `cs` was left to where `rest` is left, in a text of `size` characters. -/
def spanOf (size : Nat) (cs rest : List Char) : Span := ⟨size - cs.length, size - rest.length⟩

/-- A comment up to the end of its line. -/
def skipComment (cs : List Char) : List Char :=
  match cs with
  | '#' :: _ => cs.dropWhile fun c => !isControl c
  | _ => cs

/-- Spaces, a comment and the end of the line or the text. -/
def endLine (cs : List Char) : Except (List Char) (List Char) :=
  match skipComment (skipSpaces cs) with
  | [] => .ok []
  | rest => orStop rest (newline? rest)

/-- Spaces, comments and line ends. -/
def skipLines : (fuel : Nat) → List Char → List Char
  | 0, cs => cs
  | fuel + 1, cs =>
    let rest := skipComment (skipSpaces cs)
    match newline? rest with
    | some rest => skipLines fuel rest
    | none => rest

def skipToValue (cs : List Char) : List Char := skipLines (cs.length + 1) cs

def isNameChar (c : Char) : Bool := c.isAlphanum || c = '_' || c = '-'

/-- One part of a dotted name. -/
def namePart (size : Nat) (cs : List Char) : Step (Name × List Char) :=
  let bare := cs.takeWhile isNameChar
  if bare.isEmpty then
    match lineText? cs with
    | some (text, rest) => .ok (⟨String.ofList text, spanOf size cs rest⟩, rest)
    | none => .error cs
  else
    let rest := cs.dropWhile isNameChar
    .ok (⟨String.ofList bare, spanOf size cs rest⟩, rest)

/-- A dotted name. -/
def dottedName (size : Nat) : (fuel : Nat) → List Char → Step (List Name × List Char)
  | 0, cs => .error cs
  | fuel + 1, cs => do
    let (first, rest) ← namePart size cs
    match skipSpaces rest with
    | '.' :: rest => do
      let (more, rest) ← dottedName size fuel (skipSpaces rest)
      .ok (first :: more, rest)
    | rest => .ok ([first], rest)

mutual
/-- A value. -/
def value (size : Nat) : (fuel : Nat) → List Char → Step (Toml × List Char)
  | 0, cs => .error cs
  | fuel + 1, cs =>
    match cs with
    | '[' :: rest => (items size fuel (skipToValue rest)).map fun (vs, rest) => (.array false vs, rest)
    | '\x7b' :: rest =>
      match skipSpaces rest with
      | '\x7d' :: rest => .ok (.table .inline [], rest)
      | rest => (fields size fuel rest []).map fun (es, rest) => (.table .inline es, rest)
    | _ => orStop cs (scalar? cs)

/-- The rest of a list. -/
def items (size : Nat) : (fuel : Nat) → List Char → Step (List (Span × Toml) × List Char)
  | 0, cs => .error cs
  | fuel + 1, cs =>
    match cs with
    | ']' :: rest => .ok ([], rest)
    | _ => do
      let (v, rest) ← value size fuel cs
      let item := (spanOf size cs rest, v)
      match skipToValue rest with
      | ',' :: rest =>
        let (more, rest) ← items size fuel (skipToValue rest)
        .ok (item :: more, rest)
      | ']' :: rest => .ok ([item], rest)
      | rest => .error rest

/-- The rest of a table within braces. -/
def fields (size : Nat) : (fuel : Nat) → List Char → Entries → Step (Entries × List Char)
  | 0, cs, _ => .error cs
  | fuel + 1, cs, es => do
    let (names, rest) ← dottedName size (cs.length + 1) (skipSpaces cs)
    match rest with
    | '=' :: rest =>
      let start := skipSpaces rest
      let (v, rest) ← value size fuel start
      let es ← orStop cs (Entries.put names (spanOf size start rest) v es)
      match skipSpaces rest with
      | ',' :: rest => fields size fuel rest es
      | '\x7d' :: rest => .ok (es, rest)
      | rest => .error rest
    | rest => .error rest
end

/-- A document as far as it is read: the table that lines go to, and all entries. -/
structure Document where
  header : List Name := []
  entries : Entries := []

/-- A name and its value. -/
def assignment (size : Nat) (d : Document) (cs : List Char) : Step (Document × List Char) := do
  let (names, rest) ← dottedName size (cs.length + 1) cs
  match rest with
  | '=' :: rest =>
    let start := skipSpaces rest
    let (v, rest) ← value size (start.length + 1) start
    let es ← orStop cs (Entries.enter (Entries.put names (spanOf size start rest) v) d.header d.entries)
    .ok ({ d with entries := es }, rest)
  | rest => .error rest

/-- A header behind its opening brackets; `opens` makes its table. -/
def header (size : Nat) (d : Document) (start cs closing : List Char)
    (opens : Name → Span → Entries → Option Entries) : Step (Document × List Char) := do
  let (names, rest) ← dottedName size (cs.length + 1) (skipSpaces cs)
  let rest ← orStop rest (Text.after? closing rest)
  match names.getLast? with
  | some last =>
    let es ← orStop start (Entries.enter (opens last (spanOf size start rest)) names.dropLast d.entries)
    .ok (⟨names, es⟩, rest)
  | none => .error start

/-- One line. -/
def line (size : Nat) (d : Document) (cs : List Char) : Step (Document × List Char) :=
  match cs with
  | '[' :: '[' :: rest => header size d cs rest [']', ']'] Entries.openItem
  | '[' :: rest => header size d cs rest [']'] Entries.openTable
  | _ => assignment size d cs

/-- The lines of a document. -/
def lines (size : Nat) : (fuel : Nat) → Document → List Char → Except (List Char) Document
  | 0, _, cs => .error cs
  | fuel + 1, d, cs =>
    match skipToValue cs with
    | [] => .ok d
    | rest => do
      let (d, rest) ← line size d rest
      lines size fuel d (← endLine rest)

/-- The entries of a settings text, or the place, counted in characters, at which reading stopped. -/
def read (text : String) : Except Nat Entries :=
  let cs := text.toList
  let body := match cs with
    | '\ufeff' :: rest => rest
    | _ => cs
  match lines cs.length (body.length + 1) {} body with
  | .ok d => .ok d.entries
  | .error rest => .error (cs.length - rest.length)

end Pageweave.Toml
