import Pageweave.Template.Node
import Pageweave.Text.Blank
import Pageweave.Value.Text
/-!
# Faults while a template runs

Each cause with its sentence. A fault is a chain of causes, the outermost first.
-/
namespace Pageweave.Template

inductive Cause where
  | unknownPath (path template : String)
  | unknownPlace (path template evaluated : String)
  | indexFault (path reason : String)
  | indexKind (inner path : String)
  | concatPath (path : String)
  | concatCall (name : String)
  | noDefault
  | unknownFilter (name : String)
  | unknownFunction (name : String)
  | unknownTest (name : String)
  | inFilter (name : String)
  | inFunction (name : String)
  | inTest (name : String)
  | filterValue (filter : String) (value : Value) (wanted : String)
  | filterArg (filter arg : String) (value : Value) (wanted : String)
  | reverseValue (value : Value)
  | roundMethod (method : String)
  | noArg (helper arg : String)
  | rangeArg (arg shown : String) (value : Value)
  | testArgs (name : String)
  | testUndefined (name : String)
  | notBool (function : String)
  | notNumber (path : String)
  | notNumberCall (function : String)
  | notNumberFiltered
  | mathOnText (text : String)
  | mathOnBool (value : Bool)
  | mathOnConcat (text : String)
  | mathOnTest (name : String)
  | mathOther
  | outOfBounds (left sign right kind : String)
  | moduloByZero (left right : String)
  | compareNaN
  | membershipItem (item place : String)
  | membershipContainer
  | loopKind (shown : String)
  | loopContainer (name : String)
  | loopNoKey (name : String)
  | loopKey (name : String)
  | outsideLoop (word : String)
  | macroSpace (space template : String)
  | macroName (space name template : String)
  | macroArg (name arg : String)
  | noTemplate (names : List String)
  | includedChild (parent : String)
  | superTop
  | place (text : String)
  | math (text : String)
  | sentence (text : String)
  | tooDeep

namespace Cause

/-- The sentence of a cause. -/
def message : Cause → String
  | .unknownPath path template =>
    "Variable `" ++ path ++ "` not found in context while rendering '" ++ template ++ "'"
  | .unknownPlace path template evaluated =>
    "Variable `" ++ path ++ "` not found in context while rendering '" ++ template ++
      "': the evaluated version was `" ++ evaluated ++ "`. Maybe the index is out of bounds?"
  | .indexFault path reason => "Variable " ++ path ++ " can not be evaluated because: " ++ reason
  | .indexKind inner path =>
    "Only variables evaluating to String or Number can be used as index (`" ++ inner ++ "` of `" ++ path ++ "`)"
  | .concatPath path =>
    "Tried to concat a value that is not a string or a number from ident " ++ path
  | .concatCall name =>
    "Tried to concat a value that is not a string or a number from function call " ++ name
  | .noDefault => "The `default` filter requires a `value` argument."
  | .unknownFilter name => "Filter '" ++ name ++ "' not found"
  | .unknownFunction name => "Function '" ++ name ++ "' not found"
  | .unknownTest name => "Test '" ++ name ++ "' not found"
  | .inFilter name => "Filter call '" ++ name ++ "' failed"
  | .inFunction name => "Function call '" ++ name ++ "' failed"
  | .inTest name => "Test call '" ++ name ++ "' failed"
  | .filterValue filter value wanted =>
    "Filter `" ++ filter ++ "` was called on an incorrect value: got `" ++ value.text ++ "` but expected a " ++ wanted
  | .filterArg filter arg value wanted =>
    "Filter `" ++ filter ++ "` received an incorrect type for arg `" ++ arg ++ "`: got `" ++ value.text ++
      "` but expected a " ++ wanted
  | .reverseValue value =>
    "Filter `reverse` received an incorrect type for arg `value`: got `" ++ value.text ++ "` but expected Array|String"
  | .roundMethod method =>
    "Filter `round` received an incorrect value for arg `method`: got `" ++ Value.quoted method ++
      "`, only common, ceil and floor are allowed"
  | .noArg helper arg => helper ++ ": missing required argument `" ++ arg ++ "`"
  | .rangeArg arg shown value =>
    "Function `range` received " ++ arg ++ "=" ++ value.text ++ " but `" ++ shown ++ "` can only be a number"
  | .testArgs name => "Tester `" ++ name ++ "` was called with some args but this test doesn't take args"
  | .testUndefined name => "Tester `" ++ name ++ "` was called on an undefined variable"
  | .notBool function =>
    "Function `" ++ function ++ "` was used in a logic operation but is not returning a bool"
  | .notNumber path => "Variable `" ++ path ++ "` is not a number"
  | .notNumberCall function => "Function `" ++ function ++ "` is not returning a number"
  | .notNumberFiltered => "Tried to do math with an expression not resulting in a number"
  | .mathOnText text => "Tried to do math with a string: `" ++ text ++ "`"
  | .mathOnBool value => "Tried to do math with a boolean: `" ++ (if value then "true" else "false") ++ "`"
  | .mathOnConcat text => "Tried to do math with a string concatenation: " ++ text
  | .mathOnTest name => "Tried to do math with a test: " ++ name
  | .mathOther => "Tried to do math with an expression not resulting in a number"
  | .outOfBounds left sign right kind =>
    left ++ " " ++ sign ++ " " ++ right ++ " results in an out of bounds " ++ kind
  | .moduloByZero left right => "Tried to do a modulo by zero: " ++ left ++ "/" ++ right
  | .compareNaN => "Comparison to NaN"
  | .membershipItem item container =>
    "Tried to check if " ++ item ++ " is in a " ++ container ++ ", but it isn't a string"
  | .membershipContainer => "The `in` operator only supports strings, arrays and objects."
  | .loopKind shown =>
    "Forloop containers have to be an ident or a function call (tried to iterate on '" ++ shown ++ "')"
  | .loopContainer name => "Tried to iterate on a container (`" ++ name ++ "`) that has a unsupported type"
  | .loopNoKey name => "Tried to iterate using key value on variable `" ++ name ++ "`, but it is missing a key"
  | .loopKey name => "Tried to iterate using key value on variable `" ++ name ++ "`, but it isn't an object/map"
  | .outsideLoop word => "Attempted `" ++ word ++ "` while not in `for loop`"
  | .macroSpace space template =>
    "Macro namespace `" ++ space ++ "` was not found in template `" ++ template ++
      "`. Have you maybe forgotten to import it, or misspelled it?"
  | .macroName space name template =>
    "Macro `" ++ space ++ "::" ++ name ++ "` not found in template `" ++ template ++ "`"
  | .macroArg name arg => "Macro `" ++ name ++ "` is missing the argument `" ++ arg ++ "`"
  | .noTemplate names => "Template '[" ++ ", ".intercalate names ++ "]' not found"
  | .includedChild parent =>
    "Inheritance in included templates is currently not supported: extended `" ++ parent ++ "`"
  | .superTop => "Tried to use super() in the top level block"
  | .place text => text
  | .math text => text
  | .sentence text => text
  | .tooDeep => "the template nests too deeply"

end Cause

/-- A fault: causes, the outermost first. -/
abbrev Fault := List Cause

namespace Fault

/-- Neighbours that are equal count once. -/
def distinct : List String → List String
  | [] => []
  | [a] => [a]
  | a :: b :: rest => if a = b then distinct (b :: rest) else a :: distinct (b :: rest)

/-- The sentences of a chain on lines of their own; the inner ones lose blanks around them, and empty ones vanish. -/
def text (sentences : List String) : String :=
  match sentences with
  | [] => ""
  | first :: inner =>
    "\n  -> ".intercalate (distinct (first :: (inner.map Text.trim).filter (· ≠ "")))

def message (f : Fault) : String := text (f.map Cause.message)

end Fault
end Pageweave.Template
