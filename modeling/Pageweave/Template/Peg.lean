import Pageweave.Text.Blank
/-!
# Parsing expressions

Grammars as data, and one reader for all of them. A choice keeps its first alternative that fits. A rule may leave a
node, and sets whether blanks between the parts of a sequence are skipped. The reader also keeps the furthest place at
which a rule was tried in vain (or, behind a negative look ahead, fitted): the place that a syntax error names.
-/
namespace Pageweave.Peg

inductive Pattern (R : Type) where
  | chars (text : List Char)
  | range (first last : Char)
  | any
  | finish
  | rule (name : R)
  | seq (front back : Pattern R)
  | alt (one other : Pattern R)
  | opt (inner : Pattern R)
  | star (inner : Pattern R)
  /-- Fits where `inner` does not, and reads nothing. -/
  | unless (inner : Pattern R)

namespace Pattern

variable {R : Type}

def lit (s : String) : Pattern R := .chars s.toList

/-- One after the other. -/
def all : List (Pattern R) → Pattern R
  | [] => .chars []
  | [p] => p
  | p :: q :: ps => .seq p (all (q :: ps))

/-- The first that fits. -/
def oneOf : List (Pattern R) → Pattern R
  | [] => .unless (.chars [])
  | [p] => p
  | p :: q :: ps => .alt p (oneOf (q :: ps))

def plus (p : Pattern R) : Pattern R := .seq p (.star p)

/-- Everything up to a place where `stop` fits. -/
def upTo (stop : Pattern R) : Pattern R := .seq (.unless stop) .any

end Pattern

/-- What a rule does beside fitting. `plain` rules leave a node and read like the rule around them; `silent` ones leave
none. `token` rules skip no blanks and leave no nodes inside, `tight` ones skip none, `loose` ones skip them. -/
inductive Kind where
  | plain | silent | token | tight | loose
  deriving DecidableEq

inductive Mode where
  | loose | tight | token
  deriving DecidableEq

def Kind.mode (k : Kind) (around : Mode) : Mode :=
  match k with
  | .plain => around
  | .silent => around
  | .token => .token
  | .tight => .tight
  | .loose => .loose

structure Grammar (R : Type) where
  kind : R → Kind
  body : R → Pattern R

/-- A node: its rule, the text from its first character on, its length, and the nodes inside. -/
inductive Tree (R : Type) where
  | node (rule : R) (start : List Char) (size : Nat) (inner : List (Tree R))

/-- Where the reader is: the text left, its place, the nodes left so far (last one first), the furthest place. -/
structure State (R : Type) where
  rest : List Char
  position : Nat
  trees : List (Tree R)
  furthest : Nat

inductive Outcome (R : Type) where
  | fits (state : State R)
  | fails (furthest : Nat)

/-- How deep in look aheads the reader is: nodes are left only outside of them. -/
inductive Look where
  | outside | positive | negative
  deriving DecidableEq

def Look.negated : Look → Look
  | .negative => .positive
  | _ => .negative

structure Setting where
  mode : Mode
  look : Look

/-- Does a rule leave a node here? -/
def Setting.leaves (c : Setting) : Bool := c.mode ≠ .token && c.look = .outside

def isSpace (c : Char) : Bool := c = ' ' || c = '\t' || c = '\r' || c = '\n'

variable {R : Type}

def advance (n : Nat) : State R → State R
  | s => { s with rest := s.rest.drop n, position := s.position + n }

/-- Skips blanks where they may be skipped. -/
def skip (c : Setting) (s : State R) : State R :=
  if c.mode = .loose then advance (s.rest.takeWhile isSpace).length s else s

/-- Notes a tried rule at `position`. -/
def track (c : Setting) (noted : Bool) (position furthest : Nat) : Nat :=
  if noted && c.mode ≠ .token then max position furthest else furthest

def oneChar (ok : Char → Bool) (s : State R) : Outcome R :=
  match s.rest with
  | [] => .fails s.furthest
  | c :: _ => if ok c then .fits (advance 1 s) else .fails s.furthest

mutual
/-- Fits a pattern; `fuel` bounds the nesting of calls. -/
def run (g : Grammar R) : (fuel : Nat) → Setting → Pattern R → State R → Outcome R
  | 0, _, _, s => .fails s.furthest
  | fuel + 1, c, p, s =>
    match p with
    | .chars text =>
      match Text.after? text s.rest with
      | some rest => .fits { s with rest, position := s.position + text.length }
      | none => .fails s.furthest
    | .range first last => oneChar (fun x => first ≤ x && x ≤ last) s
    | .any => oneChar (fun _ => true) s
    | .finish => if s.rest.isEmpty then .fits s else .fails s.furthest
    | .rule r => runRule g fuel c r s
    | .seq front back =>
      match run g fuel c front s with
      | .fails f => .fails f
      | .fits s => run g fuel c back (skip c s)
    | .alt one other =>
      match run g fuel c one s with
      | .fits s => .fits s
      | .fails f => run g fuel c other { s with furthest := f }
    | .opt inner =>
      match run g fuel c inner s with
      | .fits s => .fits s
      | .fails f => .fits { s with furthest := f }
    | .star inner =>
      match run g fuel c inner s with
      | .fits s => more g fuel c inner s
      | .fails f => .fits { s with furthest := f }
    | .unless inner =>
      match run g fuel { c with look := c.look.negated } inner s with
      | .fits t => .fails t.furthest
      | .fails f => .fits { s with furthest := f }

def runRule (g : Grammar R) : (fuel : Nat) → Setting → R → State R → Outcome R
  | 0, _, _, s => .fails s.furthest
  | fuel + 1, c, r, s =>
    let kind := g.kind r
    let inside := { c with mode := kind.mode c.mode }
    if kind = .silent then run g fuel inside (g.body r) s
    else if c.leaves then
      match run g fuel inside (g.body r) { s with trees := [] } with
      | .fits t => .fits { t with trees := .node r s.rest (t.position - s.position) t.trees.reverse :: s.trees }
      | .fails f => .fails (track c true s.position f)
    else
      match run g fuel inside (g.body r) s with
      | .fits t => .fits { t with furthest := track c (c.look = .negative) s.position t.furthest }
      | .fails f => .fails (track c (c.look ≠ .negative) s.position f)

/-- Further repetitions of a pattern. -/
def more (g : Grammar R) : (fuel : Nat) → Setting → Pattern R → State R → Outcome R
  | 0, _, _, s => .fits s
  | fuel + 1, c, p, s =>
    match run g fuel c p (skip c s) with
    | .fits s => more g fuel c p s
    | .fails f => .fits { s with furthest := f }
end

/-- The tree of a whole text under a rule, or the furthest place. -/
def read (g : Grammar R) (r : R) (text : List Char) : Except Nat (Tree R) :=
  match run g (1000 * (text.length + 1)) ⟨.loose, .outside⟩ (.rule r) ⟨text, 0, [], 0⟩ with
  | .fits s =>
    match s.trees with
    | t :: _ => .ok t
    | [] => .error s.furthest
  | .fails f => .error f

namespace Tree

variable {α ε : Type}

mutual
/-- Works out a value for every node from those of the nodes inside it; the first fault from the left wins. -/
def fold (f : R → List Char → List α → Except ε α) : Tree R → Except ε α
  | .node r start size inner => do
    let parts ← foldAll f inner
    f r (start.take size) parts

def foldAll (f : R → List Char → List α → Except ε α) : List (Tree R) → Except ε (List α)
  | [] => .ok []
  | t :: ts => do
    let a ← fold f t
    let rest ← foldAll f ts
    .ok (a :: rest)
end

end Tree
end Pageweave.Peg
