/-!
# Settings data

What a settings text holds: tables of named values, each with the stretch of the text that it was read from.
-/
namespace Pageweave

/-- The characters from `start` up to `stop`, counted from 0. -/
structure Span where
  start : Nat
  stop : Nat
  deriving DecidableEq

/-- How a table came to be: by its own header, as part of a longer header or of a dotted key, or within braces. -/
inductive TableKind where
  | own | implied | dotted | inline
  deriving DecidableEq

/-- A value; a floating-point number that no double is near to has none. -/
inductive Toml where
  | string (text : String)
  | integer (value : Int)
  | float (value : Option Float)
  | bool (value : Bool)
  /-- A date, a time or both. -/
  | moment
  /-- A list; `grows` if further headers add tables to it. -/
  | array (grows : Bool) (items : List (Span × Toml))
  /-- Names with their own spans and those of their values, in the order of the text. -/
  | table (kind : TableKind) (entries : List (String × Span × Span × Toml))

namespace Toml

/-- One name of a table with its value. -/
abbrev Entry := String × Span × Span × Toml

abbrev Entries := List Entry

/-- A name as it stands in a text. -/
structure Name where
  text : String
  span : Span

def Entries.get? (es : Entries) (name : String) : Option (Span × Toml) :=
  (es.find? fun e => e.1 == name).map fun e => e.2.2

/-- Replaces the value of a name that is there. -/
def Entries.set (es : Entries) (name : String) (v : Toml) : Entries :=
  es.map fun e => if e.1 = name then (e.1, e.2.1, e.2.2.1, v) else e

def Entries.add (es : Entries) (n : Name) (span : Span) (v : Toml) : Entries := es ++ [(n.text, n.span, span, v)]

/-- Changes the table behind a value: the table itself, or the last one of a growing list. -/
def change (f : TableKind → Entries → Option Toml) : Toml → Option Toml
  | .table kind es => f kind es
  | .array true items =>
    match items.reverse with
    | (span, .table kind es) :: before => (f kind es).map fun v => .array true (before.reverse ++ [(span, v)])
    | _ => none
  | _ => none

/-- May a dotted name add to the table of this kind behind a value? -/
def takesDotted : Toml → TableKind → Bool
  | .array _ _, _ => true
  | _, kind => kind = .implied || kind = .dotted

/-- Adds a value under a dotted name. Tables on the way may not have a header or braces of their own. -/
def Entries.put : List Name → Span → Toml → Entries → Option Entries
  | [], _, _, _ => none
  | [n], span, v, es => if (Entries.get? es n.text).isSome then none else some (Entries.add es n span v)
  | n :: rest, span, v, es =>
    match Entries.get? es n.text with
    | none => (Entries.put rest span v []).map fun inner => Entries.add es n n.span (.table .dotted inner)
    | some (_, there) =>
      let into (kind : TableKind) (inner : Entries) : Option Toml :=
        if there.takesDotted kind then (Entries.put rest span v inner).map (.table kind) else none
      (change into there).map (Entries.set es n.text)

/-- Changes the entries of the table that a header's names lead to, creating tables on the way. -/
def Entries.enter (f : Entries → Option Entries) : List Name → Entries → Option Entries
  | [], es => f es
  | n :: rest, es =>
    match Entries.get? es n.text with
    | none => (Entries.enter f rest []).map fun inner => Entries.add es n n.span (.table .implied inner)
    | some (_, there) =>
      let into (kind : TableKind) (inner : Entries) : Option Toml :=
        if kind = .inline then none else (Entries.enter f rest inner).map (.table kind)
      (change into there).map (Entries.set es n.text)

/-- Opens a table by its header; one that a longer header implied may be opened once. -/
def Entries.openTable (n : Name) (span : Span) (es : Entries) : Option Entries :=
  match Entries.get? es n.text with
  | none => some (Entries.add es n span (.table .own []))
  | some (_, .table .implied inner) => some (Entries.set es n.text (.table .own inner))
  | some _ => none

/-- Opens one more table of a growing list. -/
def Entries.openItem (n : Name) (span : Span) (es : Entries) : Option Entries :=
  let item : Span × Toml := (span, .table .own [])
  match Entries.get? es n.text with
  | none => some (Entries.add es n span (.array true [item]))
  | some (_, .array true items) => some (Entries.set es n.text (.array true (items ++ [item])))
  | some _ => none

end Toml
end Pageweave
