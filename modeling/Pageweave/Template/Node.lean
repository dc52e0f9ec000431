import Pageweave.Value.Basic
/-!
# Templates as trees

Expressions, and the nodes that a template's body is made of. An expression is a term with filters behind it and
perhaps a `not` in front.
-/
namespace Pageweave.Template

inductive MathOp where
  | add | sub | mul | div | modulo
  deriving DecidableEq

inductive LogicOp where
  | or | and | gt | gte | lt | lte | eq | notEq
  deriving DecidableEq

mutual
inductive Expr where
  | mk (term : Term) (negated : Bool) (filters : List Call)

inductive Term where
  | text (value : String)
  | int (value : Int)
  | float (value : Float)
  | bool (value : Bool)
  /-- A variable, with dots and brackets as written. -/
  | path (name : String)
  | math (op : MathOp) (left right : Expr)
  | logic (op : LogicOp) (left right : Expr)
  | test (path : String) (negated : Bool) (name : String) (args : List Expr)
  | macroCall (space name : String) (args : List (String × Expr))
  | call (call : Call)
  | array (items : List Expr)
  | concat (parts : List Term)
  | membership (item container : Expr) (negated : Bool)

/-- A filter or a function with its named arguments. -/
inductive Call where
  | mk (name : String) (args : List (String × Expr))
end

instance : Inhabited Expr := ⟨.mk (.text "") false []⟩
instance : Inhabited Call := ⟨.mk "" []⟩

namespace Call

def name : Call → String
  | .mk name _ => name

def args : Call → List (String × Expr)
  | .mk _ args => args

end Call

namespace Expr

def term : Expr → Term
  | .mk term _ _ => term

def negated : Expr → Bool
  | .mk _ negated _ => negated

def filters : Expr → List Call
  | .mk _ _ filters => filters

def ofTerm (t : Term) : Expr := .mk t false []

def withNegated (e : Expr) (negated : Bool) : Expr := .mk e.term negated e.filters

/-- The expression to fall back to, if `default` is the first filter; the inner option is its argument. -/
def fallback? (e : Expr) : Option (Option Expr) :=
  match e.filters with
  | .mk "default" args :: _ => some ((args.find? fun a => a.1 == "value").map Prod.snd)
  | _ => none

end Expr

/-- Sets a named argument; a later one of the same name wins. -/
def setArg (name : String) (e : Expr) : List (String × Expr) → List (String × Expr)
  | [] => [(name, e)]
  | a :: rest => if a.1 = name then (name, e) :: rest else a :: setArg name e rest

inductive Node where
  | text (value : String)
  /-- Text that no neighbour trims. -/
  | raw (value : String)
  | output (expr : Expr)
  | super
  | includes (names : List String) (ignoreMissing : Bool)
  | extending (name : String)
  | importing (file space : String)
  | set (name : String) (value : Expr) (everywhere : Bool)
  | block (name : String) (body : List Node)
  | macroDefinition (name : String) (params : List (String × Option Expr)) (body : List Node)
  | section (filter : Call) (body : List Node)
  | loop (key : Option String) (item : String) (container : Expr) (body : List Node) (otherwise : Option (List Node))
  | cond (branches : List (Expr × List Node)) (otherwise : Option (List Node))
  | breakLoop
  | continueLoop
  | comment

instance : Inhabited Node := ⟨.comment⟩

/-- A macro of a template. -/
structure MacroDef where
  name : String
  params : List (String × Option Expr)
  body : List Node

structure Block where
  name : String
  body : List Node

/-- A read template: its body, and what is found in it. -/
structure Source where
  name : String
  nodes : List Node
  parent : Option String := none
  blocks : List Block := []
  macros : List MacroDef := []
  imports : List (String × String) := []

end Pageweave.Template
