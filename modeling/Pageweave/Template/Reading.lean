import Pageweave.Template.Grammar
import Pageweave.Template.Tidy
/-!
# From text to template

Works out the body of a template from the nodes that the grammar leaves: literals, operators by their strength, calls
and tests, and the tags with the bodies between them.
-/
namespace Pageweave.Template

open Peg

/-- Why a text is no template. -/
inductive SourceFault where
  | malformed (line column : Nat)
  | integerOutOfBounds (text : String)
  | blockTwice (name : String)
  | macroTwice (name : String)
  deriving DecidableEq

/-- The message; the place of a malformed text stands behind an arrow. -/
def SourceFault.message : SourceFault → String
  | .malformed line column => "--> " ++ toString line ++ ":" ++ toString column
  | .integerOutOfBounds text => "Integer out of bounds: `" ++ text ++ "`"
  | .blockTwice name => "Block `" ++ name ++ "` is duplicated"
  | .macroTwice name => "Macro `" ++ name ++ "` is duplicated"

namespace Reading

/-- What a node of the grammar stands for. -/
inductive Part where
  | word (rule : Rule) (text : List Char)
  | expr (value : Expr)
  | call (value : Call)
  | argument (name : String) (value : Expr)
  | asked (name : String) (args : List Expr)
  | args (items : List Expr)
  | param (name : String) (fallback : Option Expr)
  | head (name : String) (params : List (String × Option Expr))
  | strings (names : List String)
  | tag (rule : Rule) (trim : Trim) (inner : List Part)
  | pieces (items : List Piece)

instance : Inhabited Part := ⟨.pieces []⟩

abbrev Result (α : Type) := Except SourceFault α

def nameOf : Part → String
  | .word _ text => String.ofList text
  | _ => ""

/-- A text without its quotes. -/
def unquoted (text : List Char) : String := String.ofList (text.drop 1).dropLast

def digitsValue (ds : List Char) : Nat := ds.foldl (fun n c => n * 10 + (c.toNat - 48)) 0

/-- A whole number that a signed word holds. -/
def intValue (text : List Char) : Result Int :=
  let n : Int := match text with
    | '-' :: ds => -(digitsValue ds : Int)
    | ds => (digitsValue ds : Int)
  if Number.signedMin ≤ n && n ≤ Number.signedMax then .ok n
  else .error (.integerOutOfBounds (String.ofList text))

def floatValue (text : List Char) : Float :=
  let unsigned (ds : List Char) : Float :=
    let whole := ds.takeWhile (· ≠ '.')
    let fraction := (ds.dropWhile (· ≠ '.')).drop 1
    Float.ofScientific (digitsValue (whole ++ fraction)) true fraction.length
  match text with
  | '-' :: ds => -(unsigned ds)
  | ds => unsigned ds

/-- A part that may stand where a value is wanted. -/
def exprOf : Part → Result Expr
  | .expr e => .ok e
  | .call c => .ok (.ofTerm (.call c))
  | .word .int text => do
    let n ← intValue text
    .ok (.ofTerm (.int n))
  | .word .float text => .ok (.ofTerm (.float (floatValue text)))
  | .word .string text => .ok (.ofTerm (.text (unquoted text)))
  | .word .boolean text => .ok (.ofTerm (.bool (text = "true".toList || text = "True".toList)))
  | .word _ text => .ok (.ofTerm (.path (String.ofList text)))
  | _ => .ok default

def mathOp? : Part → Option MathOp
  | .word .opPlus _ => some .add
  | .word .opMinus _ => some .sub
  | .word .opTimes _ => some .mul
  | .word .opSlash _ => some .div
  | .word .opModulo _ => some .modulo
  | _ => none

def logicOp? : Part → Option LogicOp
  | .word .opOr _ => some .or
  | .word .opAnd _ => some .and
  | .word .opLte _ => some .lte
  | .word .opGte _ => some .gte
  | .word .opLt _ => some .lt
  | .word .opGt _ => some .gt
  | .word .opEq _ => some .eq
  | .word .opIneq _ => some .notEq
  | _ => none

/-- An operand and, after it, operators each with its right operand. -/
structure Chain (Op : Type) where
  first : Expr
  rest : List (Op × Expr)

def chain {Op : Type} (op? : Part → Option Op) : List Part → Result (Chain Op)
  | [] => .ok ⟨default, []⟩
  | p :: ps => do
    let first ← exprOf p
    let rest ← pairs ps
    .ok ⟨first, rest⟩
where
  pairs : List Part → Result (List (Op × Expr))
    | o :: p :: ps => do
      let e ← exprOf p
      let rest ← pairs ps
      match op? o with
      | some op => .ok ((op, e) :: rest)
      | none => .ok rest
    | _ => .ok []

/-- Puts a chain together from the left, operators for which `strong` holds before the others. `pending` is a weak
operator with its left operand, waiting for its right one. -/
def climb {Op : Type} (strong : Op → Bool) (make : Op → Expr → Expr → Expr) :
    (pending : Option (Expr × Op)) → (current : Expr) → List (Op × Expr) → Expr
  | pending, current, [] => close pending current
  | pending, current, (op, e) :: rest =>
    if strong op then climb strong make pending (make op current e) rest
    else climb strong make (some (close pending current, op)) e rest
where
  close : Option (Expr × Op) → Expr → Expr
    | none, e => e
    | some (left, op), e => make op left e

def isStrongMath : MathOp → Bool
  | .mul => true
  | .div => true
  | .modulo => true
  | _ => false

def makeMath (op : MathOp) (a b : Expr) : Expr := .ofTerm (.math op a b)

def makeLogic (op : LogicOp) (a b : Expr) : Expr := .ofTerm (.logic op a b)

def math (parts : List Part) : Result Part := do
  let c ← chain mathOp? parts
  .ok (.expr (climb isStrongMath makeMath none c.first c.rest))

def logic (parts : List Part) : Result Part := do
  let c ← chain logicOp? parts
  .ok (.expr (climb (· == .and) makeLogic none c.first c.rest))

def filtersOf (parts : List Part) : List Call :=
  parts.filterMap fun p => match p with
    | .call c => some c
    | _ => none

/-- A value with filters behind it. -/
def filtered : List Part → Result Part
  | [] => .ok default
  | p :: ps => do
    let e ← exprOf p
    .ok (.expr (.mk e.term false (filtersOf ps)))

def argsOf (parts : List Part) : List (String × Expr) :=
  parts.foldl (fun args p => match p with
    | .argument name e => setArg name e args
    | _ => args) []

/-- Joins the literals of a chain of texts; `done` has the last part first. -/
def joinLiterals (current : String) (done : List Term) : List Part → List Term
  | [] => if current = "" then done.reverse else (Term.text current :: done).reverse
  | .word .string text :: ps => joinLiterals (current ++ unquoted text) done ps
  | .word .int text :: ps => joinLiterals (current ++ String.ofList text) done ps
  | .word .float text :: ps => joinLiterals (current ++ String.ofList text) done ps
  | p :: ps =>
    let done := if current = "" then done else .text current :: done
    match p with
    | .call c => joinLiterals "" (.call c :: done) ps
    | other => joinLiterals "" (.path (nameOf other) :: done) ps

/-- A chain of texts; one of literals only is a literal. -/
def concat (parts : List Part) : Part :=
  match joinLiterals "" [] parts with
  | [] => .expr (.ofTerm (.text ""))
  | [.text s] => .expr (.ofTerm (.text s))
  | terms => .expr (.ofTerm (.concat terms))

def isWord (rule : Rule) : Part → Bool
  | .word r _ => r == rule
  | _ => false

def test (negated : Bool) : List Part → Part
  | [path, .asked name args] => .expr (.ofTerm (.test (nameOf path) negated name args))
  | _ => default

def membership (parts : List Part) : Result Part := do
  let negated := parts.any (isWord .opNot)
  match parts.filter fun p => !isWord .opNot p with
  | [item, container] =>
    let item ← exprOf item
    let container ← exprOf container
    .ok (.expr (.ofTerm (.membership item container negated)))
  | _ => .ok default

/-- A `not` in front counts only at this level: one inside parentheses is lost. -/
def logicValue (parts : List Part) : Result Part := do
  let negated := parts.any (isWord .opNot)
  match parts.filter fun p => !isWord .opNot p with
  | [p] =>
    let e ← exprOf p
    .ok (.expr (e.withNegated negated))
  | _ => .ok default

def param : List Part → Result Part
  | [name] => .ok (.param (nameOf name) none)
  | name :: value :: _ => do
    let e ← exprOf value
    .ok (.param (nameOf name) (some e))
  | [] => .ok default

def head : List Part → Part
  | [] => default
  | name :: params => .head (nameOf name) (params.filterMap fun p => match p with
    | .param n fallback => some (n, fallback)
    | _ => none)

def isDelimiter : Part → Bool
  | .word r _ => r == .variableStart || r == .variableEnd || r == .tagStart || r == .tagEnd || r == .commentStart ||
    r == .commentEnd
  | _ => false

def hasMinus (rules : List Rule) : Part → Bool
  | .word r text => rules.contains r && text.contains '-'
  | _ => false

def trimOf (parts : List Part) : Trim :=
  ⟨parts.any (hasMinus [.variableStart, .tagStart, .commentStart]),
    parts.any (hasMinus [.variableEnd, .tagEnd, .commentEnd])⟩

def inside (parts : List Part) : List Part := parts.filter fun p => !isDelimiter p

def namesOf : Part → List String
  | .strings names => names
  | .word _ text => [unquoted text]
  | _ => []

def quotedName (p : Part) : String := (namesOf p).headD ""

/-- A tag that stands alone. -/
def single (trim : Trim) (n : Node) : Part := .pieces [.ofTag trim n]

def setNode (everywhere : Bool) : List Part → Result Node
  | [name, value] => do
    let e ← exprOf value
    .ok (.set (nameOf name) e everywhere)
  | _ => .ok default

/-- A tag, and the pieces between it and the next one. -/
structure Group where
  rule : Rule
  trim : Trim
  inner : List Part
  pieces : List Piece

def groups : List Part → List Group
  | [] => []
  | .tag rule trim inner :: ps => ⟨rule, trim, inner, loose ps⟩ :: groups ps
  | _ :: ps => groups ps
where
  loose : List Part → List Piece
    | .pieces items :: ps => items ++ loose ps
    | _ => []

/-- The branches of a conditional up to its last tag, and the last branch if it has no condition. -/
def branches : List Group → Result (List (Expr × List Node) × Option (List Node))
  | g :: next :: rest => do
    let body := tidy g.trim.right next.trim.left g.pieces
    if g.rule == .elseTag then .ok ([], some body)
    else
      let e ← exprOf (g.inner.headD default)
      let (more, otherwise) ← branches (next :: rest)
      .ok ((e, body) :: more, otherwise)
  | _ => .ok ([], none)

def firstTrim (gs : List Group) : Trim := (gs.head?.map Group.trim).getD {}

def lastTrim (gs : List Group) : Trim := (gs.getLast?.map Group.trim).getD {}

def conditional (parts : List Part) : Result Part := do
  let gs := groups parts
  let (found, otherwise) ← branches gs
  .ok (.pieces [.between (firstTrim gs) (lastTrim gs) (.cond found otherwise)])

/-- A tag pair around one body, or, in a loop, two bodies; the outer tags trim them all. -/
def paired (parts : List Part) (make : List Part → List Node → Option (List Node) → Result Node) :
    Result Part := do
  let gs := groups parts
  let first := firstTrim gs
  let last := lastTrim gs
  let bodies := gs.dropLast.map fun g => tidy first.right last.left g.pieces
  let n ← make ((gs.head?.map Group.inner).getD []) (bodies.headD []) (bodies.drop 1).head?
  .ok (.pieces [.between first last n])

def loopNode (inner : List Part) (body : List Node) (otherwise : Option (List Node)) : Result Node :=
  match inner with
  | [item, container] => do
    let e ← exprOf container
    .ok (.loop none (nameOf item) e body otherwise)
  | [key, item, container] => do
    let e ← exprOf container
    .ok (.loop (some (nameOf key)) (nameOf item) e body otherwise)
  | _ => .ok default

def callOf : Part → Call
  | .call c => c
  | p => .mk (nameOf p) []

def macroNode (inner : List Part) (body : List Node) : Node :=
  match inner with
  | [.head name params] => .macroDefinition name params body
  | _ => default

def rawNode (gs : List Part) : Part :=
  match gs with
  | [.tag _ first _, .word _ text, .tag _ last _] =>
    let text := if first.right then Text.trimLeft text else text
    let text := if last.left then Text.trimRight text else text
    .pieces [.between first last (.raw (String.ofList text))]
  | _ => default

/-- The pieces of a content node; a comment tag inside it becomes a piece here. -/
def contentOf (parts : List Part) : Part :=
  .pieces (parts.flatMap fun p => match p with
    | .pieces items => items
    | .tag .commentTag trim _ => [.ofTag trim .comment]
    | _ => [])

/-- The pieces of a whole template; comments before everything else leave no trace. -/
def wholeOf (parts : List Part) : Part :=
  .pieces (parts.flatMap fun p => match p with
    | .pieces items => items
    | _ => [])

/-- The part that a node of the grammar stands for. -/
def part (rule : Rule) (text : List Char) (parts : List Part) : Result Part :=
  let trim := trimOf parts
  let inner := inside parts
  match rule with
  | .kwarg =>
    match parts with
    | [name, value] => do
      let e ← exprOf value
      .ok (.argument (nameOf name) e)
    | _ => .ok default
  | .call => .ok (.call (.mk (nameOf (parts.headD default)) (argsOf parts)))
  | .filter => .ok (.call (callOf (parts.headD default)))
  | .testArg => do
    let e ← exprOf (parts.headD default)
    .ok (.expr e)
  | .testArgs => do
    let es ← parts.mapM exprOf
    .ok (.args es)
  | .testCall =>
    .ok (.asked (nameOf (parts.headD default)) (match parts with
      | [_, .args es] => es
      | _ => []))
  | .testNot => .ok (test true parts)
  | .test => .ok (test false parts)
  | .macroCall =>
    match parts with
    | space :: name :: args => .ok (.expr (.ofTerm (.macroCall (nameOf space) (nameOf name) (argsOf args))))
    | _ => .ok default
  | .param => param parts
  | .macroHead => .ok (head parts)
  | .concat => .ok (concat parts)
  | .basic => math parts
  | .comparisonValue => math parts
  | .basicFilter => filtered parts
  | .stringFilter => filtered parts
  | .arrayFilter => filtered parts
  | .comparison => logic parts
  | .logic => logic parts
  | .membership => membership parts
  | .logicValue => logicValue parts
  | .array => do
    let es ← parts.mapM exprOf
    .ok (.expr (.ofTerm (.array es)))
  | .stringArray => .ok (.strings (parts.flatMap namesOf))
  | .includeTag =>
    .ok (single trim (.includes (namesOf (inner.headD default)) (inner.any (isWord .ignoreMissing))))
  | .commentTag => .ok (.tag rule trim [])
  | .setTag => do
    let n ← setNode false inner
    .ok (single trim n)
  | .setGlobalTag => do
    let n ← setNode true inner
    .ok (single trim n)
  | .variableTag => do
    let e ← exprOf (inner.headD default)
    .ok (single trim (.output e))
  | .superTag => .ok (.pieces [⟨.super, false, none⟩])
  | .breakTag => .ok (single trim .breakLoop)
  | .continueTag => .ok (single trim .continueLoop)
  | .extendsTag => .ok (single trim (.extending (quotedName (inner.headD default))))
  | .importTag =>
    match inner with
    | [file, space] => .ok (single trim (.importing (quotedName file) (nameOf space)))
    | _ => .ok default
  | .blockTag | .macroTag | .ifTag | .elifTag | .elseTag | .forTag | .filterTag | .endblockTag | .endmacroTag
  | .endifTag | .endforTag | .endfilterTag | .rawTag | .endrawTag => .ok (.tag rule trim inner)
  | .raw => .ok (rawNode parts)
  | .text => .ok (.pieces [⟨.text (String.ofList text), false, none⟩])
  | .loopIn => paired parts loopNode
  | .sectionIn =>
    paired parts fun inner body _ => .ok (.section (callOf (inner.headD default)) body)
  | .block => paired parts fun inner body _ => .ok (.block (nameOf (inner.headD default)) body)
  | .macroDefinition => paired parts fun inner body _ => .ok (macroNode inner body)
  | .contentIf | .blockIf | .loopIf | .macroIf | .sectionIf => conditional parts
  | .content | .blockContent | .loopContent | .macroContent | .sectionContent => .ok (contentOf parts)
  | .template => .ok (wholeOf parts)
  | _ => .ok (.word rule text)

/-- Line and column, from 1, of a place in a text. -/
def place (text : List Char) (position : Nat) : Nat × Nat :=
  let before := text.take position
  (before.count '\n' + 1, (before.reverse.takeWhile (· ≠ '\n')).length + 1)

/-- The body of a template's text. -/
def nodes (text : List Char) : Result (List Node) :=
  match Peg.read grammar .template text with
  | .error furthest =>
    let (line, column) := place text furthest
    .error (.malformed line column)
  | .ok tree => do
    match ← tree.fold part with
    | .pieces items => .ok (tidyAll items)
    | _ => .ok []

end Reading

mutual
/-- The blocks of a body and those directly inside them, outer ones first. -/
def blocksOf (found : List Block) : List Node → Except SourceFault (List Block)
  | [] => .ok found
  | n :: rest => do
    let found ← blocksOfNode found n
    blocksOf found rest

def blocksOfNode (found : List Block) : Node → Except SourceFault (List Block)
  | .block name body =>
    if found.any fun b => b.name == name then .error (.blockTwice name)
    else blocksOf (found ++ [⟨name, body⟩]) body
  | _ => .ok found
end

namespace Source

/-- Notes what a node at the top says about the whole template. -/
def note (s : Source) : Node → Except SourceFault Source
  | .extending name => .ok { s with parent := some name }
  | .importing file space => .ok { s with imports := s.imports ++ [(file, space)] }
  | .macroDefinition name params body =>
    if s.macros.any fun m => m.name == name then .error (.macroTwice name)
    else .ok { s with macros := s.macros ++ [⟨name, params, body⟩] }
  | _ => .ok s

/-- Reads a template. -/
def read (name text : String) : Except SourceFault Source := do
  let nodes ← Reading.nodes text.toList
  let blocks ← blocksOf [] nodes
  nodes.foldlM note { name, nodes, blocks }

end Source
end Pageweave.Template
