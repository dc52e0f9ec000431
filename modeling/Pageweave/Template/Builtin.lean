import Pageweave.Query
import Pageweave.Template.Cause
import Pageweave.Text.Words
/-!
# Filters, functions and tests

What an expression may call by name. A filter gets a value and named arguments; a function gets arguments only; a test
gets a value that may be missing.
-/
namespace Pageweave.Template

/-- How a value stands in the output: null is empty, arrays show their items, objects do not show their fields. -/
def Output.array (items : List String) : String := "[" ++ ", ".intercalate items ++ "]"

mutual
def output : Value → String
  | .null => ""
  | .bool b => if b then "true" else "false"
  | .number n => n.plainText
  | .string s => s
  | .array items => Output.array (outputs items)
  | .object _ => "[object]"

def outputs : List Value → List String
  | [] => []
  | v :: vs => output v :: outputs vs
end

def escapeChar (c : Char) : List Char :=
  if c = '&' then "&amp;".toList
  else if c = '<' then "&lt;".toList
  else if c = '>' then "&gt;".toList
  else if c = '"' then "&quot;".toList
  else if c = '\'' then "&#x27;".toList
  else if c = '/' then "&#x2F;".toList
  else [c]

/-- A text that is safe between tags and in attributes. -/
def escape (s : String) : String := String.ofList (s.toList.flatMap escapeChar)

abbrev Args := List (String × Value)

namespace Args

def get? (args : Args) (name : String) : Option Value := (args.find? fun a => a.1 == name).map Prod.snd

end Args

/-- What is asked of the program around the templates. -/
structure Surroundings where
  /-- The address of an asset. -/
  asset : String → String := id

namespace Builtin

private def one (c : Cause) : Except Fault Value := .error [c]

def asText (filter : String) (v : Value) : Except Fault String :=
  match v with
  | .string s => .ok s
  | other => .error [.filterValue filter other "String"]

def asItems (filter : String) (v : Value) : Except Fault (List Value) :=
  match v with
  | .array items => .ok items
  | other => .error [.filterValue filter other "Vec<Value>"]

def asFloat (filter : String) (v : Value) : Except Fault Float :=
  match v with
  | .number n => .ok n.toFloat
  | other => .error [.filterValue filter other "f64"]

def textArg? (filter arg : String) (args : Args) : Except Fault (Option String) :=
  match args.get? arg with
  | none => .ok none
  | some (.string s) => .ok (some s)
  | some other => .error [.filterArg filter arg other "String"]

def needed (sentence : String) : Option String → Except Fault String
  | some s => .ok s
  | none => .error [.sentence sentence]

def overText (name : String) (f : List Char → List Char) (v : Value) : Except Fault Value := do
  let s ← asText name v
  .ok (.string (String.ofList (f s.toList)))

def length (v : Value) : Except Fault Value :=
  match v with
  | .array items => .ok (.ofNat items.length)
  | .object fields => .ok (.ofNat fields.length)
  | .string s => .ok (.ofNat s.length)
  | _ => one (.sentence "Filter `length` was used on a value that isn't an array, an object, or a string.")

def nth (v : Value) (args : Args) : Except Fault Value := do
  match ← asItems "nth" v with
  | [] => .ok (.string "")
  | items =>
    match args.get? "n" with
    | none => one (.sentence "The `nth` filter has to have an `n` argument")
    | some (.number (.int n)) =>
      if 0 ≤ n then .ok (items[n.toNat]?.getD (.string ""))
      else one (.filterArg "nth" "n" (.number (.int n)) "usize")
    | some other => one (.filterArg "nth" "n" other "usize")

/-- The separator's mistaken name in the message is the filter's own. -/
def join (v : Value) (args : Args) : Except Fault Value := do
  let items ← asItems "join" v
  let sep ← textArg? "truncate" "sep" args
  let sep := Text.replace (Text.replace (sep.getD "") "\\n" "\n") "\\t" "\t"
  .ok (.string (sep.intercalate (items.map output)))

def reverse (v : Value) : Except Fault Value :=
  match v with
  | .array items => .ok (.array items.reverse)
  | .string s => .ok (.string (String.ofList s.toList.reverse))
  | other => one (.reverseValue other)

def replace (v : Value) (args : Args) : Except Fault Value := do
  let s ← asText "replace" v
  let old ← textArg? "replace" "from" args
  let old ← needed "Filter `replace` expected an arg called `from`" old
  let new ← textArg? "replace" "to" args
  let new ← needed "Filter `replace` expected an arg called `to`" new
  .ok (.string (Text.replace s old new))

def roundWith (method : String) (x : Float) : Except Fault Float :=
  match method with
  | "common" => .ok x.round
  | "ceil" => .ok x.ceil
  | "floor" => .ok x.floor
  | other => .error [.roundMethod other]

def powerOfTen : (exponent : Nat) → Float
  | 0 => 1.0
  | n + 1 => 10.0 * powerOfTen n

def round (v : Value) (args : Args) : Except Fault Value := do
  let x ← asFloat "round" v
  let method ← textArg? "round" "method" args
  let places ← match args.get? "precision" with
    | none => .ok 0
    | some (.number (.int n)) =>
      if -2147483648 ≤ n && n ≤ 2147483647 then .ok n
      else Except.error [Cause.filterArg "round" "precision" (.number (.int n)) "i32"]
    | some other => .error [.filterArg "round" "precision" other "i32"]
  let power := powerOfTen (min places.natAbs 400)
  let scale := if places < 0 then 1.0 / power else power
  let rounded ← roundWith (method.getD "common") (scale * x)
  let result := rounded / scale
  .ok (if result.isFinite then .number (.float result) else .null)

def abs (v : Value) : Except Fault Value :=
  match v with
  | .number (.int n) => .ok (.number (.int n.natAbs))
  | .number (.float x) => .ok (.number (.float x.abs))
  | _ => one (.sentence "Filter `abs` was used on a value that isn't a number.")

def pluralize (v : Value) (args : Args) : Except Fault Value := do
  let x ← asFloat "pluralize" v
  let plural ← textArg? "pluralize" "plural" args
  let singular ← textArg? "pluralize" "singular" args
  .ok (.string (if 2.220446049250313e-16 < (x.abs - 1.0).abs then plural.getD "s" else singular.getD ""))

def jsonEncode (v : Value) (args : Args) : Value :=
  match args.get? "pretty" with
  | some (.bool true) => .string v.pretty
  | _ => .string v.text

/-- An argument of a helper, as text. -/
def shownArg (helper name : String) (args : Args) : Except Fault String :=
  match args.get? name with
  | some v => .ok v.shown
  | none => .error [.noArg helper name]

/-- The class, if the value is the current one up to the case of ASCII letters. -/
def activeClass (v : Value) (args : Args) : Except Fault Value := do
  let found ← shownArg "active_class" "class" args
  let current := ((args.get? "current").map Value.shown).getD ""
  .ok (.string (if Text.sameWord v.shown current then found else ""))

def appendQuery (v : Value) (args : Args) : Except Fault Value := do
  let key ← shownArg "append_query" "key" args
  let value ← shownArg "append_query" "value" args
  .ok (.string (Query.append v.shown key value))

/-- The filters by name. -/
def filter? (name : String) : Option (Value → Args → Except Fault Value) :=
  match name with
  | "upper" => some fun v _ => overText "upper" Text.upper v
  | "lower" => some fun v _ => overText "lower" Text.lower v
  | "trim" => some fun v _ => overText "trim" Text.trimBoth v
  | "capitalize" => some fun v _ => overText "capitalize" Text.capitalize v
  | "title" => some fun v _ => overText "title" Text.title v
  | "escape" => some fun v _ => do
    let s ← asText "escape_html" v
    .ok (.string (Template.escape s))
  | "length" => some fun v _ => length v
  | "first" => some fun v _ => do
    let items ← asItems "first" v
    .ok (items.head?.getD (.string ""))
  | "last" => some fun v _ => do
    let items ← asItems "last" v
    .ok (items.getLast?.getD (.string ""))
  | "nth" => some nth
  | "join" => some join
  | "reverse" => some fun v _ => reverse v
  | "replace" => some replace
  | "json_encode" => some fun v args => .ok (jsonEncode v args)
  | "round" => some round
  | "abs" => some fun v _ => abs v
  | "pluralize" => some pluralize
  | "hx_vals" => some fun v _ => .ok (.string v.text)
  | "active_class" => some activeClass
  | "append_query" => some appendQuery
  | _ => none

def boundArg (arg shown : String) (other : Option Nat) (args : Args) : Except Fault Nat :=
  match args.get? arg with
  | some (.number (.int n)) => if 0 ≤ n then .ok n.toNat else .error [.rangeArg arg shown (.number (.int n))]
  | some v => .error [.rangeArg arg shown v]
  | none => match other with
    | some n => .ok n
    | none => .error [.sentence "Function `range` was called without a `end` argument"]

/-- The numbers from `start` to below `stop` in steps; there are at most `fuel`. -/
def countUp (step stop : Nat) : (fuel : Nat) → (start : Nat) → List Value
  | 0, _ => []
  | fuel + 1, start => if start < stop then .ofNat start :: countUp step stop fuel (start + step) else []

def range (args : Args) : Except Fault Value := do
  let start ← boundArg "start" "start" (some 0) args
  let step ← boundArg "step_by" "step" (some 1) args
  let stop ← boundArg "end" "end" none args
  if stop < start then
    one (.sentence "Function `range` was called with a `start` argument greater than the `end` one")
  else .ok (.array (countUp step stop (stop - start) start))

/-- A function, and whether its text goes out as it is. -/
structure Function where
  run : Args → Except Fault Value
  isSafe : Bool

def function? (around : Surroundings) (name : String) : Option Function :=
  match name with
  | "range" => some ⟨range, false⟩
  | "asset" => some ⟨fun args => do
      let path ← shownArg "asset" "path" args
      .ok (.string (around.asset path)), true⟩
  | _ => none

/-- A test that wants a value and no arguments. -/
def plainTest (name : String) (holds : Value → Bool) (v : Option Value) (args : List Value) : Except Fault Bool :=
  if args.isEmpty then
    match v with
    | some v => .ok (holds v)
    | none => .error [.testUndefined name]
  else .error [.testArgs name]

def isString : Value → Bool
  | .string _ => true
  | _ => false

def isNumber : Value → Bool
  | .number _ => true
  | _ => false

def isArray : Value → Bool
  | .array _ => true
  | _ => false

def isObject : Value → Bool
  | .object _ => true
  | _ => false

def test? (name : String) : Option (Option Value → List Value → Except Fault Bool) :=
  match name with
  | "defined" => some fun v args => if args.isEmpty then .ok v.isSome else .error [.testArgs "defined"]
  | "undefined" => some fun v args => if args.isEmpty then .ok v.isNone else .error [.testArgs "undefined"]
  | "string" => some (plainTest "string" isString)
  | "number" => some (plainTest "number" isNumber)
  | "iterable" => some (plainTest "iterable" fun v => isArray v || isObject v)
  | "object" => some (plainTest "object" isObject)
  | _ => none

end Builtin
end Pageweave.Template
