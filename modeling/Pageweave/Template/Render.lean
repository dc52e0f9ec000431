import Pageweave.Template.Scope
import Pageweave.Text.Graphemes
/-!
# Running templates

Evaluation of expressions and bodies. A run keeps its scope also where it fails, because the message of a fault tells
in which macro and block it happened. Depth is bounded by fuel; lists of nodes and turns are worked through by their own
recursion.
-/
namespace Pageweave.Template

/-- An outcome, and the scope after it. -/
abbrev Eval := ExceptT Fault (StateM Scope)

namespace Eval

def fail {α : Type} (c : Cause) : Eval α := throw [c]

/-- Puts a cause in front of a fault. -/
def within {α : Type} (c : Cause) (x : Eval α) : Eval α := tryCatch x fun f => throw (c :: f)

def lift {α : Type} (x : Except Fault α) : Eval α :=
  match x with
  | .ok a => pure a
  | .error f => throw f

def ofCause {α : Type} (x : Except Cause α) : Eval α :=
  match x with
  | .ok a => pure a
  | .error c => fail c

/-- The outcome of `x`, as a value. -/
def attempt {α : Type} (x : Eval α) : Eval (Except Fault α) :=
  tryCatch (do
    let a ← x
    pure (.ok a)) fun f => pure (.error f)

/-- Runs without escaping; what was set before holds again afterwards, also after a fault. -/
def unescaped {α : Type} (x : Eval α) : Eval α := do
  let before := (← get).escaping
  modify fun s => { s with escaping := false }
  let outcome ← attempt x
  modify fun s => { s with escaping := before }
  lift outcome

/-- The texts of a body's nodes, up to one after which the current turn is to end. -/
def nodes (one : Node → Eval String) : List Node → Eval String
  | [] => pure ""
  | n :: rest => do
    let text ← one n
    let s ← get
    if s.signal = .none then
      let more ← nodes one rest
      pure (text ++ more)
    else pure text

/-- The texts of a loop's turns. Each starts without the variables of the one before it. -/
def turns (body : Eval String) (keyName : Option String) (itemName : String) (size : Nat) :
    (index : Nat) → List (String × Value) → Eval String
  | _, [] => pure ""
  | index, (key, item) :: rest => do
    modify fun s => { s with
      frame := { s.frame with vars := [], turn := some { keyName, itemName, key, item, index, size } } }
    let text ← body
    let s ← get
    if s.signal = .stop then pure text
    else
      let more ← turns body keyName itemName size (index + 1) rest
      pure (text ++ more)

end Eval

open Eval

/-! ## Numbers -/

/-- Both whole and within a signed word; or both whole and not negative; or taken as doubles. -/
inductive Operands where
  | signed (a b : Int)
  | unsigned (a b : Int)
  | floats (a b : Float)

def operands (a b : Number) : Operands :=
  match a.signed?, b.signed? with
  | some x, some y => .signed x y
  | _, _ =>
    match a.unsigned?, b.unsigned? with
    | some x, some y => .unsigned x y
    | _, _ => .floats a.toFloat b.toFloat

def finite? (x : Float) : Option Number := if x.isFinite then some (.float x) else none

/-- A whole result that fits its kind. -/
def bounded (a b : Int) (sign : String) (isSigned : Bool) (result : Int) : Except Fault (Option Number) :=
  let fits :=
    if isSigned then Number.signedMin ≤ result && result ≤ Number.signedMax
    else 0 ≤ result && result ≤ Number.unsignedMax
  if fits then .ok (some (.int result))
  else .error [.outOfBounds (toString a) sign (toString b) (if isSigned then "i64" else "u64")]

def arithmetic (sign : String) (whole : Int → Int → Int) (real : Float → Float → Float) (a b : Number) :
    Except Fault (Option Number) :=
  match operands a b with
  | .signed x y => bounded x y sign true (whole x y)
  | .unsigned x y => bounded x y sign false (whole x y)
  | .floats x y => .ok (finite? (real x y))

/-- The remainder of doubles, with the sign of the first; exact, because both are whole multiples
of one power of two. -/
def floatRemainder (x y : Float) : Option Float :=
  match Decimal.decode x.toBits, Decimal.decode y.toBits with
  | (negative, some a), (_, some b) =>
    if b.mantissa = 0 then none
    else
      let low := min a.exponent b.exponent
      let r := (a.mantissa * Nat.pow 2 (a.exponent - low).toNat) % (b.mantissa * Nat.pow 2 (b.exponent - low).toNat)
      let z := (Float.ofNat r).scaleB low
      some (if negative then -z else z)
  | (_, some _), (_, none) => if y.isNaN then none else some x
  | _, _ => none

/-- A quotient is whole where it can be. -/
def quotient (a b : Number) : Option Number :=
  let q := a.toFloat / b.toFloat
  if q.isNaN then none
  else if q.round == q && q.isFinite then some (.int q.toInt64.toInt)
  else finite? q

def mathOf (op : MathOp) (left right : Expr) (a b : Number) : Except Fault (Option Number) :=
  match op with
  | .mul => arithmetic "x" (· * ·) (· * ·) a b
  | .add => arithmetic "+" (· + ·) (· + ·) a b
  | .sub => arithmetic "-" (· - ·) (· - ·) a b
  | .div => .ok (quotient a b)
  | .modulo =>
    let zero : Except Fault (Option Number) := .error [.moduloByZero (Dump.expr left) (Dump.expr right)]
    match operands a b with
    | .signed x y => if y = 0 then zero else .ok (some (.int (Int.tmod x y)))
    | .unsigned x y => if y = 0 then zero else .ok (some (.int (Int.tmod x y)))
    | .floats x y => .ok ((floatRemainder x y).map .float)

def compared (op : LogicOp) (a b : Float) : Bool :=
  match op with
  | .gt => b < a
  | .gte => b ≤ a
  | .lt => a < b
  | _ => a ≤ b

/-- Equality; numbers are equal as doubles. A number and anything else do not compare. -/
def equality? (a b : Value) : Option Bool :=
  match a, b with
  | .number x, .number y => some (x.toFloat == y.toFloat)
  | .number _, _ => none
  | _, .number _ => none
  | x, y => some (x.same y)

/-! ## Pieces of expressions -/

/-- The text of a value in a chain of texts. -/
def chainText? : Value → Option String
  | .string s => some s
  | .number n => some n.text
  | _ => none

def contained (item container : Value) : Except Fault Bool :=
  match container with
  | .array items => .ok (items.any item.same)
  | .string s =>
    match item with
    | .string t => .ok (Text.contains t.toList s.toList)
    | other => .error [.membershipItem (Dump.value other) "string"]
  | .object fields =>
    match item with
    | .string t => .ok (Fields.contains t fields)
    | other => .error [.membershipItem (Dump.value other) "object"]
  | _ => .error [.membershipContainer]

/-- What a container is called in messages, if it is of a kind that may be looped over. -/
def containerName? : Term → Option String
  | .path name => some name
  | .call c => some c.name
  | .array _ => some "an array literal"
  | _ => none

/-- The turns of a container. -/
def entries (name : String) (hasKey : Bool) : Value → Except Fault (List (String × Value))
  | .array items => if hasKey then .error [.loopKey name] else .ok (items.map fun v => ("", v))
  | .string s =>
    if hasKey then .error [.loopKey name] else .ok ((Text.graphemes s).map fun g => ("", .string g))
  | .object fields => if hasKey then .ok fields else .error [.loopNoKey name]
  | _ => .error [.loopContainer name]

def blockOf? (p : Page) (name : String) : Option (List (String × Block)) :=
  (p.blocks.find? fun b => b.1 == name).map Prod.snd

/-- The literal parts of a chain of texts, as written. -/
def chainSource (parts : List Term) : String :=
  " ~ ".intercalate (parts.map fun p => match p with
    | .text s => "\"" ++ s ++ "\""
    | .path name => name
    | .call c => c.name
    | _ => "")

/-! ## Evaluation -/

/-- The filters behind a value, the ones that are handled elsewhere left out; the flag tells whether to escape. -/
def applyFilters (one : Value → Call → Eval Value) : (value : Value) → (escapes : Bool) → List Call →
    Eval (Value × Bool)
  | v, escapes, [] => pure (v, escapes)
  | v, escapes, c :: rest =>
    if c.name = "safe" || c.name = "default" then applyFilters one v escapes rest
    else do
      let v ← one v c
      applyFilters one v true rest

def namedValues (one : Expr → Eval Value) (args : List (String × Expr)) : Eval Args :=
  args.mapM fun a => do
    let v ← one a.2
    pure (a.1, v)

/-- The values of a macro's parameters: those given, or the ones to fall back to. -/
def paramValues (one : Expr → Eval Value) (name : String) (args : List (String × Expr))
    (params : List (String × Option Expr)) : Eval Fields := do
  let pairs ← params.mapM fun p => do
    match (args.find? fun a => a.1 == p.1).map Prod.snd, p.2 with
    | some e, _ =>
      let v ← one e
      pure (p.1, v)
    | none, some e =>
      let v ← one e
      pure (p.1, v)
    | none, none => fail (.macroArg name p.1)
  pure (Fields.ofList pairs)

def chainTexts (r : Run) (callValue : Call → Eval (Value × Bool)) :
    (text : String) → (escapes : Bool) → List Term →
    Eval (Value × Bool)
  | text, escapes, [] => pure (.string text, escapes)
  | text, escapes, t :: rest =>
    match t with
    | .text s => chainTexts r callValue (text ++ s) escapes rest
    | .path name => do
      let v ← ofCause (Scope.value r (← get) name)
      match chainText? v with
      | some s => chainTexts r callValue (text ++ s) escapes rest
      | none => fail (.concatPath name)
    | .call c => do
      let (v, callEscapes) ← callValue c
      match chainText? v with
      | some s => chainTexts r callValue (text ++ s) callEscapes rest
      | none => fail (.concatCall c.name)
    | _ => chainTexts r callValue text escapes rest

/-- The first branch whose condition holds. -/
def branch (holds : Expr → Eval Bool) (body : List Node → Eval String) (otherwise : Option (List Node)) :
    List (Expr × List Node) → Eval String
  | [] => match otherwise with
    | some nodes => body nodes
    | none => pure ""
  | (condition, nodes) :: rest => do
    if ← holds condition then body nodes else branch holds body otherwise rest

/-- The name of the template whose macros are meant here. -/
def macroHome (r : Run) (s : Scope) : String :=
  match s.blocks with
  | b :: _ => b.template
  | [] => if r.page.name != r.root.name then r.root.name else s.templateName

/-- The block that a template, or the nearest of its ancestors with one, has for a name, and how far up. -/
def findBlock (r : Run) (name : String) (level : Nat) : List String → Option (String × Nat × List Node)
  | [] => none
  | template :: rest =>
    match (r.library.page? template).bind fun p => (blockOf? p name).bind List.head? with
    | some (_, b) => some (template, level, b.body)
    | none => findBlock r name (level + 1) rest

mutual
/-- The value of an expression. -/
def expression (r : Run) : (fuel : Nat) → Expr → Eval Value
  | 0, _ => fail .tooDeep
  | fuel + 1, e => do
    let found ← operand r fuel e
    match found with
    | .inl v => pure v
    | .inr (v, escapes) =>
      let (v, escapes) ← applyFilters (filtered r fuel) v escapes e.filters
      if e.negated then pure (.bool !v.truthy)
      else
        let s ← get
        let unsafeText := s.escaping && escapes && (e.filters.getLast?.map Call.name) != some "safe"
        match v with
        | .string t => pure (.string (if unsafeText then escape t else t))
        | other => pure other

/-- The value in front of the filters and whether it is to be escaped; or, at once, the value of the whole. -/
def operand (r : Run) : (fuel : Nat) → Expr → Eval (Value ⊕ (Value × Bool))
  | 0, _ => fail .tooDeep
  | fuel + 1, e =>
    match e.term with
    | .array items => do
      let vs ← items.mapM (expression r fuel)
      pure (.inr (.array vs, false))
    | .membership item container negated => do
      let b ← membership r fuel item container negated
      pure (.inr (.bool b, false))
    | .text s => pure (.inr (.string s, true))
    | .concat parts => do
      let found ← chainTexts r (callValue r fuel) "" false parts
      pure (.inr found)
    | .int n => pure (.inr (.number (.int n), false))
    | .float x => pure (.inr (.number (.float x), false))
    | .bool b => pure (.inr (.bool b, false))
    | .path name => do
      match Scope.value r (← get) name, e.fallback? with
      | .ok .null, some other =>
        let v ← fallback r fuel other
        pure (.inr (v, true))
      | .ok v, _ => pure (.inr (v, true))
      | .error _, some other =>
        let v ← fallback r fuel other
        pure (.inr (v, true))
      | .error c, none => if e.negated then pure (.inl (.bool true)) else fail c
    | .call c => do
      let found ← callValue r fuel c
      pure (.inr found)
    | .macroCall space name args => do
      let text ← callMacro r fuel space name args
      pure (.inr (.string text, false))
    | .test path negated name args => do
      let b ← test r fuel path negated name args
      pure (.inr (.bool b, false))
    | .logic _ _ _ => do
      let b ← condition r fuel e
      pure (.inr (.bool b, false))
    | .math _ _ _ => do
      match ← attempt (number r fuel e.term) with
      | .ok (some n) => pure (.inr (.number n, false))
      | .ok none => pure (.inr (.string "NaN", false))
      | .error f => fail (.math ((f.head?.map Cause.message).getD ""))

def fallback (r : Run) : (fuel : Nat) → Option Expr → Eval Value
  | 0, _ => fail .tooDeep
  | fuel + 1, some e => expression r fuel e
  | _ + 1, none => fail .noDefault

def filtered (r : Run) : (fuel : Nat) → Value → Call → Eval Value
  | 0, _, _ => fail .tooDeep
  | fuel + 1, v, c =>
    match Builtin.filter? c.name with
    | none => fail (.unknownFilter c.name)
    | some f => within (.inFilter c.name) do
      let args ← namedValues (fun e => unescaped (expression r fuel e)) c.args
      lift (f v args)

/-- What a function answers, and whether it is to be escaped. -/
def callValue (r : Run) : (fuel : Nat) → Call → Eval (Value × Bool)
  | 0, _ => fail .tooDeep
  | fuel + 1, c =>
    match Builtin.function? r.around c.name with
    | none => fail (.unknownFunction c.name)
    | some f => within (.inFunction c.name) do
      let args ← namedValues (fun e => unescaped (expression r fuel e)) c.args
      let v ← lift (f.run args)
      pure (v, !f.isSafe)

def test (r : Run) :
    (fuel : Nat) → (path : String) → (negated : Bool) → (name : String) → List Expr → Eval Bool
  | 0, _, _, _, _ => fail .tooDeep
  | fuel + 1, path, negated, name, args =>
    match Builtin.test? name with
    | none => fail (.unknownTest name)
    | some t => do
      let vs ← within (.inTest name) (args.mapM fun e => unescaped (expression r fuel e))
      let found := match Scope.value r (← get) path with
        | .ok v => some v
        | .error _ => none
      let b ← within (.inTest name) (lift (t found vs))
      pure (b != negated)

def membership (r : Run) : (fuel : Nat) → (item container : Expr) → (negated : Bool) → Eval Bool
  | 0, _, _, _ => fail .tooDeep
  | fuel + 1, item, container, negated => do
    let v ← unescaped (expression r fuel item)
    let c ← unescaped (expression r fuel container)
    let b ← lift (contained v c)
    pure (b != negated)

/-- An expression as a condition. A path that leads nowhere does not hold. Filters count only behind paths and in
comparisons. -/
def condition (r : Run) : (fuel : Nat) → Expr → Eval Bool
  | 0, _ => fail .tooDeep
  | fuel + 1, e => do
    match ← bare? r fuel e with
    | some b => pure (b != e.negated)
    | none => pure false

/-- The condition without the `not` in front of it; none for values that do not compare, which never hold. -/
def bare? (r : Run) : (fuel : Nat) → Expr → Eval (Option Bool)
  | 0, _ => fail .tooDeep
  | fuel + 1, e =>
    match e.term with
    | .logic .or a b => do
      if ← condition r fuel a then pure (some true)
      else
        let b ← condition r fuel b
        pure (some b)
    | .logic .and a b => do
      if ← condition r fuel a then
        let b ← condition r fuel b
        pure (some b)
      else pure (some false)
    | .logic .eq a b => do
      let x ← expression r fuel a
      let y ← expression r fuel b
      pure (equality? x y)
    | .logic .notEq a b => do
      let x ← expression r fuel a
      let y ← expression r fuel b
      pure ((equality? x y).map not)
    | .logic op a b => do
      let x ← numberOf r fuel a
      let y ← numberOf r fuel b
      match x, y with
      | some x, some y => pure (some (compared op x.toFloat y.toFloat))
      | _, _ => fail .compareNaN
    | .path _ => do
      let b := match ← attempt (expression r fuel e) with
        | .ok v => v.truthy
        | .error _ => false
      pure (some (b != e.negated))
    | .math _ _ _ => do
      let n ← number r fuel e.term
      pure (some (n.any fun n => n.toFloat != 0.0))
    | .int n => pure (some (n != 0))
    | .float x => pure (some (x != 0.0))
    | .membership item container negated => do
      let b ← membership r fuel item container negated
      pure (some b)
    | .test path negated name args => do
      let b ← test r fuel path negated name args
      pure (some b)
    | .bool b => pure (some b)
    | .text s => pure (some (s != ""))
    | .call c => do
      match ← callValue r fuel c with
      | (.bool b, _) => pure (some b)
      | _ => fail (.notBool c.name)
    | .concat _ => do
      let v ← expression r fuel e
      pure (some v.truthy)
    | .macroCall space name args => do
      let text ← callMacro r fuel space name args
      pure (some (text != ""))
    | .array items => pure (some !items.isEmpty)

/-- An operand of a calculation or an order. -/
def numberOf (r : Run) : (fuel : Nat) → Expr → Eval (Option Number)
  | 0, _ => fail .tooDeep
  | fuel + 1, e =>
    if e.filters.isEmpty then number r fuel e.term
    else do
      match ← expression r fuel e with
      | .number n => pure (some n)
      | _ => fail .notNumberFiltered

/-- A term as a number; none where the result is no finite number. -/
def number (r : Run) : (fuel : Nat) → Term → Eval (Option Number)
  | 0, _ => fail .tooDeep
  | fuel + 1, t =>
    match t with
    | .path name => do
      match ← ofCause (Scope.value r (← get) name) with
      | .number n => pure (some n)
      | _ => fail (.notNumber name)
    | .int n => pure (some (.int n))
    | .float x => pure (some (.float x))
    | .math op a b => do
      let x ← numberOf r fuel a
      let y ← numberOf r fuel b
      match x, y with
      | some x, some y => lift (mathOf op a b x y)
      | _, _ => pure none
    | .text s => fail (.mathOnText s)
    | .bool b => fail (.mathOnBool b)
    | .concat parts => fail (.mathOnConcat (chainSource parts))
    | .test _ _ name _ => fail (.mathOnTest name)
    | .call c => do
      match ← callValue r fuel c with
      | (.number n, _) => pure (some n)
      | _ => fail (.notNumberCall c.name)
    | _ => fail .mathOther

/-- The text of a macro. -/
def callMacro (r : Run) : (fuel : Nat) → (space name : String) → List (String × Expr) → Eval String
  | 0, _, _, _ => fail .tooDeep
  | fuel + 1, space, name, args => do
    let s ← get
    let (file, m) ← ofCause (Loaded.macro? s.loaded (macroHome r s) space name)
    let vars ← paramValues (fun e => unescaped (expression r fuel e)) name args m.params
    let page := (r.library.page? file).getD r.page
    modify fun s => s.push { kind := .macroFrame space name, page, vars }
    let text ← nodes (node r fuel) m.body
    modify Scope.pop
    pure text

/-- The text of a node. -/
def node (r : Run) : (fuel : Nat) → Node → Eval String
  | 0, _ => fail .tooDeep
  | fuel + 1, n =>
    let body (ns : List Node) : Eval String := nodes (node r fuel) ns
    match n with
    | .text s => pure s
    | .raw s => pure s
    | .output e => do
      let v ← expression r fuel e
      pure (output v)
    | .set name e everywhere => do
      let v ← unescaped (expression r fuel e)
      modify fun s => if everywhere then s.setEverywhere name v else s.set name v
      pure ""
    | .section c ns => do
      let text ← body ns
      if c.name = "safe" then pure text
      else
        let v ← filtered r fuel (.string text) c
        pure (output v)
    | .cond branches otherwise => branch (condition r fuel) body otherwise branches
    | .loop key item container ns otherwise => do
      match containerName? container.term with
      | none => fail (.loopKind (Dump.term container.term))
      | some name =>
        let v ← unescaped (expression r fuel container)
        let found ← lift (entries name key.isSome v)
        match found, otherwise with
        | [], some ns => body ns
        | [], none => pure ""
        | found, _ =>
          modify fun s => s.push { kind := .loop, page := s.frame.page }
          let text ← turns (body ns) key item found.length 0 found
          modify Scope.pop
          pure text
    | .breakLoop => endTurn .stop "break"
    | .continueLoop => endTurn .next "continue"
    | .block name ns => do
      let page := (← get).frame.page
      match findBlock r name 0 (page.name :: page.parents) with
      | some (template, level, inner) =>
        modify fun s => { s with blocks := ⟨name, template, level⟩ :: s.blocks }
        body inner
      | none => body ns
    | .super => above r fuel
    | .includes names ignoreMissing =>
      match names.findSome? r.library.page? with
      | some p => do
        modify fun s => { s with
          loaded := Loaded.load r.library (r.library.pages.length + 1) s.loaded p }
        modify fun s => s.push { kind := .included, page := p }
        let text ← body p.source.nodes
        modify Scope.pop
        pure text
      | none => if ignoreMissing then pure "" else fail (.noTemplate names)
    | .extending parent => fail (.includedChild parent)
    | .importing _ _ => pure ""
    | .macroDefinition _ _ _ => pure ""
    | .comment => pure ""
where
  endTurn (signal : Signal) (word : String) : Eval String := do
    match (← get).frame.turn with
    | some t =>
      modify fun s => { s with frame := { s.frame with turn := some { t with signal } } }
      pure ""
    | none => fail (.outsideLoop word)

/-- What the current block is further up. -/
def above (r : Run) : (fuel : Nat) → Eval String
  | 0 => fail .tooDeep
  | fuel + 1 => do
    match (← get).blocks with
    | [] => fail .superTop
    | b :: _ =>
      match findBlock r b.name (b.level + 1) (r.page.parents.drop b.level) with
      | none => fail .superTop
      | some (template, level, inner) =>
        modify fun s => { s with blocks := ⟨b.name, template, level⟩ :: s.blocks }
        let text ← nodes (node r fuel) inner
        modify fun s => { s with blocks := s.blocks.drop 1 }
        if r.page.parents.length ≤ level then modify fun s => { s with blocks := s.blocks.drop 1 }
        pure text
end

/-- Where a run was when it failed. -/
def faultPlace (r : Run) (s : Scope) : String :=
  let inMacro := match s.frame.kind with
    | .macroFrame space name => ": error while rendering macro `" ++ space ++ "::" ++ name ++ "`"
    | _ => ""
  let happened (name : String) := " (error happened in '" ++ name ++ "')."
  let inBlock := match s.blocks with
    | b :: _ =>
      match (blockOf? r.page b.name).bind fun defs => defs[b.level]? with
      | some (name, _) => if name != r.page.name then happened name else ""
      | none => " (error happened in a parent template)"
    | [] => match r.page.parents.getLast? with
      | some parent => happened parent
      | none => ""
  "Failed to render '" ++ r.page.name ++ "'" ++ inMacro ++ inBlock

/-- How deep a run may nest. -/
def depth : Nat := 20000

/-- The text of a template of a library, or the message of the fault that stopped it. -/
def Library.render (lib : Library) (around : Surroundings) (escaping : Bool) (page : Page) (context : Fields) :
    Except String String :=
  let root := (page.parents.getLast?.bind lib.page?).getD page
  let r : Run := ⟨lib, around, page, root, context⟩
  let start : Scope :=
    { frame := { kind := .origin, page }, loaded := Loaded.load lib (lib.pages.length + 1) [] page, escaping }
  match (Eval.nodes (node r depth) root.source.nodes).run.run start with
  | (.ok text, _) => .ok text
  | (.error fault, s) => .error (Fault.message (.place (faultPlace r s) :: fault))

end Pageweave.Template
