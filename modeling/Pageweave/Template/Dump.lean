import Pageweave.Template.Node
import Pageweave.Text.Quoted
import Pageweave.Value.Text
/-!
# The long form of expressions

How an expression, or a value, is spelled out in the few messages that show its whole structure.
-/
namespace Pageweave.Template.Dump

def floatLayout : Decimal.Layout := ⟨fun e => -5 ≤ e && e < 16, true, false, "NaN", "inf"⟩

/-- A named record. -/
def record (name : String) (fields : List (String × String)) : String :=
  name ++ " \x7b " ++ ", ".intercalate (fields.map fun f => f.1 ++ ": " ++ f.2) ++ " \x7d"

def list (items : List String) : String := "[" ++ ", ".intercalate items ++ "]"

def map (entries : List (String × String)) : String :=
  "\x7b" ++ ", ".intercalate (entries.map fun e => Text.visible e.1 ++ ": " ++ e.2) ++ "\x7d"

def bool (b : Bool) : String := if b then "true" else "false"

def mathOp : MathOp → String
  | .add => "Add"
  | .sub => "Sub"
  | .mul => "Mul"
  | .div => "Div"
  | .modulo => "Modulo"

def logicOp : LogicOp → String
  | .or => "Or"
  | .and => "And"
  | .gt => "Gt"
  | .gte => "Gte"
  | .lt => "Lt"
  | .lte => "Lte"
  | .eq => "Eq"
  | .notEq => "NotEq"

mutual
def expr : Expr → String
  | .mk t negated filters =>
    record "Expr" [("val", term t), ("negated", bool negated), ("filters", list (calls filters))]

def exprs : List Expr → List String
  | [] => []
  | e :: es => expr e :: exprs es

def args : List (String × Expr) → List (String × String)
  | [] => []
  | (name, e) :: rest => (name, expr e) :: args rest

def calls : List Call → List String
  | [] => []
  | c :: cs => call c :: calls cs

def call : Call → String
  | .mk name as => record "FunctionCall" [("name", Text.visible name), ("args", map (args as))]

def terms : List Term → List String
  | [] => []
  | t :: ts => term t :: terms ts

def term : Term → String
  | .text s => "String(" ++ Text.visible s ++ ")"
  | .int n => "Int(" ++ toString n ++ ")"
  | .float x => "Float(" ++ floatLayout.text x ++ ")"
  | .bool b => "Bool(" ++ bool b ++ ")"
  | .path name => "Ident(" ++ Text.visible name ++ ")"
  | .math op a b =>
    "Math(" ++ record "MathExpr" [("lhs", expr a), ("rhs", expr b), ("operator", mathOp op)] ++ ")"
  | .logic op a b =>
    "Logic(" ++ record "LogicExpr" [("lhs", expr a), ("rhs", expr b), ("operator", logicOp op)] ++ ")"
  | .test path negated name as =>
    "Test(" ++ record "Test" [("ident", Text.visible path), ("negated", bool negated), ("name", Text.visible name),
      ("args", list (exprs as))] ++ ")"
  | .macroCall space name as =>
    "MacroCall(" ++
      record "MacroCall"
        [("namespace", Text.visible space), ("name", Text.visible name), ("args", map (args as))] ++
      ")"
  | .call c => "FunctionCall(" ++ call c ++ ")"
  | .array items => "Array(" ++ list (exprs items) ++ ")"
  | .concat parts => "StringConcat(" ++ record "StringConcat" [("values", list (terms parts))] ++ ")"
  | .membership a b negated =>
    "In(" ++ record "In" [("lhs", expr a), ("rhs", expr b), ("negated", bool negated)] ++ ")"
end

mutual
def value : Value → String
  | .null => "Null"
  | .bool b => "Bool(" ++ bool b ++ ")"
  | .number n => "Number(" ++ n.text ++ ")"
  | .string s => "String(" ++ Text.visible s ++ ")"
  | .array items => "Array " ++ list (values items)
  | .object fields => "Object " ++ map (entries fields)

def values : List Value → List String
  | [] => []
  | v :: vs => value v :: values vs

def entries : List (String × Value) → List (String × String)
  | [] => []
  | (k, v) :: rest => (k, value v) :: entries rest
end

end Pageweave.Template.Dump
