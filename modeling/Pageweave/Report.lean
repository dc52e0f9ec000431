import Pageweave.Error
/-!
# Reports of errors

The long form of an error for the author of a template. A parse error shows the lines around the place where reading
stopped, with a mark in front of that line.
-/
namespace Pageweave

namespace Report

/-- Lines shown before and after the marked one. -/
def margin : Nat := 3

/-- A text without the carriage returns at its end. -/
def withoutReturns (cs : List Char) : List Char := (cs.reverse.dropWhile (· = '\r')).reverse

/-- The lines from `line - size` to `line + size`, with their numbers from 1; none if there is no such line. -/
def window (source : String) (line size : Nat) : List (Nat × String) :=
  let all := Text.lines source.toList
  if line = 0 || all.length < line then []
  else
    let first := line - (size + 1)
    let last := min (line + size) all.length
    ((all.take last).drop first).mapIdx fun i cs => (first + i + 1, String.ofList (withoutReturns cs))

def numbered (line : Option Nat) (entry : Nat × String) : String :=
  let mark := if line = some entry.1 then ">" else " "
  mark ++ " " ++ Text.padLeft 4 (toString entry.1) ++ " | " ++ entry.2 ++ "\n"

def excerpt (source : Option String) (line : Option Nat) : String :=
  match source with
  | none => ""
  | some text =>
    match window text (line.getD 0) margin with
    | [] => ""
    | entries => "\n" ++ String.join (entries.map (numbered line))

def parseAdvice : String :=
  "\nSUGGESTION: Check for unclosed \x7b\x7b \x7d\x7d or \x7b% %\x7d delimiters,\n" ++
    "unknown tags and filters, and missing quotes around strings.\n"

end Report

/-- The report, with the text of the failing template if it is at hand. -/
def PageError.report (e : PageError) (source : Option String) : String :=
  match e with
  | .parse key text line =>
    "ERROR: Template Parse Error\n\nTemplate: " ++ key.name ++ "\n" ++
      (match line with
        | some n => "Line: " ++ toString n ++ "\n"
        | none => "") ++
      "Error: " ++ text ++ "\n" ++ Report.excerpt source line ++ Report.parseAdvice
  | .notFound key suggestions =>
    "ERROR: Template Not Found\n\nTemplate: " ++ key.name ++ "\n" ++
      (if suggestions.isEmpty then ""
        else "\nDid you mean one of these?\n" ++ String.join (suggestions.map fun s => "  - " ++ s ++ "\n"))
  | other => "ERROR: " ++ other.message ++ "\n"

end Pageweave
