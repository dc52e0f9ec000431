import Pageweave.Settings.Basic
import Pageweave.Toml.Basic
/-!
# Faults in a settings text

What can be wrong with a settings text, and the report that shows the place: the line with the fault, and carets under
what is at fault.
-/
namespace Pageweave

inductive SettingsFault where
  /-- The text does not read; the place is the character where reading stopped. -/
  | unreadable (place : Nat)
  | unknownName (name : String) (span : Span)
  /-- A value of another kind than wanted. -/
  | wrongKind (found wanted : String) (span : Span)
  /-- A value of the right kind that is not possible. -/
  | wrongValue (found wanted : String) (span : Span)
  | floatTooLarge (span : Span)
  | integerTooLarge (span : Span)
  deriving DecidableEq

namespace SettingsFault

def message : SettingsFault → String
  | .unreadable _ => "invalid settings"
  | .unknownName name _ =>
    let known := ", ".intercalate (Settings.names.map fun n => "`" ++ n ++ "`")
    "unknown field `" ++ name ++ "`, expected one of " ++ known
  | .wrongKind found wanted _ => "invalid type: " ++ found ++ ", expected " ++ wanted
  | .wrongValue found wanted _ => "invalid value: " ++ found ++ ", expected " ++ wanted
  | .floatTooLarge _ => "floating-point number overflowed"
  | .integerTooLarge _ => "integer number overflowed"

def span : SettingsFault → Span
  | .unreadable place => ⟨place, place⟩
  | .unknownName _ span => span
  | .wrongKind _ _ span => span
  | .wrongValue _ _ span => span
  | .floatTooLarge span => span
  | .integerTooLarge span => span

private def blanks (n : Nat) : String := String.ofList (List.replicate n ' ')

/-- The report on a stretch of a text: line and column, the line, and carets. -/
def report (source : String) (span : Span) (message : String) : String :=
  let cs := source.toList
  let start := min span.start (cs.length - 1)
  let before := cs.take start
  let lineNumber := (before.filter (· = '\n')).length + 1
  let column := (before.reverse.takeWhile (· ≠ '\n')).length + (span.start - start)
  let content := ((Text.pieces '\n' cs)[lineNumber - 1]?).getD []
  let size := Text.byteSize ((cs.drop span.start).take (span.stop - span.start))
  let marks := min size (Text.byteSize content - column)
  let number := toString lineNumber
  let gutter := blanks (number.length + 1) ++ "|"
  "TOML parse error at line " ++ number ++ ", column " ++ toString (column + 1) ++ "\n" ++ gutter ++ "\n" ++
    number ++ " | " ++ String.ofList content ++ "\n" ++
    gutter ++ blanks (column + 1) ++ "^" ++ String.ofList (List.replicate (marks - 1) '^') ++ "\n" ++
    message ++ "\n"

def text (f : SettingsFault) (source : String) : String := report source f.span f.message

end SettingsFault
end Pageweave
