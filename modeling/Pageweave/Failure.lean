import Pageweave.Error
import Pageweave.Names
/-!
# Failures in friendly words

What a command tells its user when it fails: the failure with everything that led to it, numbered, and what may help.
-/
namespace Pageweave

/-- Where a failure began. -/
inductive Cause where
  | page (error : PageError)
  | file (fault : FileFault)
  /-- A settings file that does not read: the short message and the long text that shows the place. -/
  | settings (text : String)
  | plain (text : String)

def Cause.chain : Cause → List String
  | .page e => e.message :: e.causes
  | .file f => f.message :: f.causes
  | .settings text => [text]
  | .plain text => [text]

/-- A cause, and the sentences put in front of it, the outermost first. -/
structure Failure where
  context : List String
  cause : Cause

/-- A message with details and advice where there are any. -/
structure Friendly where
  message : String
  details : Option String := none
  suggestion : Option String := none

namespace Failure

def ofPage (e : PageError) : Failure := ⟨[], .page e⟩

/-- Puts a sentence in front. -/
def within (f : Failure) (sentence : String) : Failure := { f with context := sentence :: f.context }

def chain (f : Failure) : List String := f.context ++ f.cause.chain

/-- The first sentence and, numbered from 1, all that led to it. -/
def message (f : Failure) : String :=
  match f.chain with
  | [] => ""
  | [first] => first
  | first :: rest =>
    first ++ "\n\nCaused by:" ++
      String.join (rest.mapIdx fun i cause => "\n  " ++ toString (i + 1) ++ ": " ++ cause)

/-- Details and advice for an error of the page engine. -/
def pageAdvice : PageError → Option String × Option String
  | .notFound key suggestions =>
    (if suggestions.isEmpty then none else some ("Did you mean: " ++ ", ".intercalate suggestions),
      some ("Create " ++ key.fileName Names.extension ++
        " in the project template directory or run `hxview list` to see available templates"))
  | .parse _ _ line =>
    (line.map fun n => "The parser stopped at line " ++ toString n,
      some ("Check template syntax: variables use \x7b\x7b var \x7d\x7d, control flow uses \x7b% %\x7d, " ++
        "comments use \x7b# #\x7d"))
  | .render _ _ =>
    (some "Render errors usually come from undefined variables, filter argument errors or type mismatches",
      some ("Make sure every variable the template uses is in the model, or guard it with `is defined`"))
  | .unknownLayout _ =>
    (none, some "Add the layout to `layouts` in hxview.toml or pass a registered layout with --layout")
  | .reservedKey _ _ =>
    (some "`content`, `model` and keys starting with `_` are set by the renderer and cannot come from layout data",
      none)
  | .setup _ => (none, some "Check hxview.toml and the command-line options")
  | .invalidModel _ => (none, some "The model must be valid JSON; objects are exposed at the top level")
  | .sideData _ _ _ => (none, none)
  | .file _ _ => (none, none)
  | .malformedName => (none, none)

def fileAdvice (f : FileFault) : Option String :=
  match f.kind with
  | .notFound => some "Check that the file or directory exists and the path is correct"
  | .permissionDenied => some "Check the file permissions and ownership"
  | _ => none

def friendly (f : Failure) : Friendly :=
  match f.cause with
  | .page e => ⟨f.message, (pageAdvice e).1, (pageAdvice e).2⟩
  | .settings text =>
    ⟨f.message, some text, some "Check the TOML syntax in hxview.toml. Verify quotes, brackets and key names"⟩
  | .file fault => ⟨f.message, none, fileAdvice fault⟩
  | .plain _ => ⟨f.message, none, none⟩

end Failure

namespace Friendly

private def more (label : String) : Option String → String
  | some s => "\n" ++ label ++ ": " ++ s
  | none => ""

/-- One text of all. -/
def text (f : Friendly) : String := f.message ++ more "Details" f.details ++ more "Suggestion" f.suggestion

/-- The lines that a command prints last. -/
def printed (f : Friendly) : String :=
  "error: " ++ f.message ++ more "details" f.details ++ more "suggestion" f.suggestion ++ "\n"

end Friendly
end Pageweave
