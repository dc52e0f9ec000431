import Pageweave.Digest.Sha256
import Pageweave.Error
import Pageweave.Request
import Pageweave.Template.Render
import Pageweave.Text.Digit
/-!
# Compiled pages

A page's text together with the texts it refers to, read and checked, ready to run against values. It remembers the
keys of what it refers to: the keys whose change makes it out of date.
-/
namespace Pageweave

/-- How texts are compiled and run. -/
structure Engine where
  autoescape : Bool := true
  asset : String → String := id

/-- A text under the name that refers to it. -/
structure Included where
  name : String
  key : Key
  text : String
  deriving DecidableEq

structure Compiled where
  key : Key
  source : String
  included : List Included
  /-- Keys in ascending order, without the page's own. -/
  dependencies : List Key
  library : Template.Library

namespace Compiled

/-- The length of the source in bytes. -/
def sourceSize (c : Compiled) : Nat := c.source.utf8ByteSize

def sourceDigest (c : Compiled) : String := Sha256.ofText c.source

def dependsOn (c : Compiled) (k : Key) : Bool := c.dependencies.contains k

/-- The digits in front, if there are any, and what follows them. -/
def numeral? (cs : List Char) : Option (List Char × List Char) :=
  let ds := cs.takeWhile Text.isDecimal
  if ds.isEmpty then none else some (ds, cs.dropWhile Text.isDecimal)

/-- The digits of the line in a place `--> line:column`, if a text starts with one. -/
def place? (cs : List Char) : Option (List Char) := do
  let rest ← Text.after? "-->".toList cs
  let (line, rest) ← numeral? (Text.trimLeft rest)
  match rest with
  | ':' :: rest =>
    let _ ← numeral? rest
    some line
  | _ => none

/-- The number that digits stand for, if they are ASCII digits and it fits a word. -/
def word? (ds : List Char) : Option Nat :=
  let n := Template.Reading.digitsValue ds
  if ds.all Char.isDigit && n < Nat.pow 2 64 then some n else none

/-- The line of the first place that a message names. -/
def lineIn? : List Char → Option Nat
  | [] => none
  | c :: cs =>
    match place? (c :: cs) with
    | some ds => word? ds
    | none => lineIn? cs

end Compiled

namespace Engine

/-- Compiles a text with the texts that it and they refer to. -/
def compile (_ : Engine) (key : Key) (source : String) (included : List Included) : Except PageError Compiled :=
  match Template.Library.build ((key.name, source) :: included.map fun i => (i.name, i.text)) with
  | .error fault => .error (.parse key fault.message (Compiled.lineIn? fault.message.toList))
  | .ok library =>
    let dependencies := Key.sorted ((included.map Included.key).filter (· ≠ key))
    .ok { key, source, included, dependencies, library }

/-- Runs a compiled page. -/
def execute (e : Engine) (c : Compiled) (context : Context) : Except PageError String :=
  match c.library.page? c.key.name with
  | none => .error (.render c.key ("Template '" ++ c.key.name ++ "' not found"))
  | some page =>
    match c.library.render ⟨e.asset⟩ e.autoescape page context with
    | .ok text => .ok text
    | .error message => .error (.render c.key message)

end Engine
end Pageweave
