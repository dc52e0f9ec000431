import Pageweave.Template.Builtin
import Pageweave.Template.Library
import Pageweave.Template.Pointer
/-!
# Scopes

Where a running template finds its variables: frames, the innermost first, and behind them the values of the page. A
loop's frame knows the current item and forgets what was set with each turn; a macro's frame hides those around it.
-/
namespace Pageweave.Template

/-- Did a turn of a loop ask to end? -/
inductive Signal where
  | none | stop | next
  deriving DecidableEq

/-- The current turn of a loop. -/
structure Turn where
  keyName : Option String
  itemName : String
  key : String
  item : Value
  index : Nat
  size : Nat
  signal : Signal := .none

inductive FrameKind where
  | origin
  | loop
  | macroFrame (space name : String)
  | included

structure Frame where
  kind : FrameKind
  page : Page
  vars : Fields := []
  turn : Option Turn := none

/-- A block being rendered: its name, the template it came from, and how far up that is. -/
structure ActiveBlock where
  name : String
  template : String
  level : Nat

structure Scope where
  frame : Frame
  outer : List Frame := []
  blocks : List ActiveBlock := []
  loaded : Loaded := []
  escaping : Bool := true

/-- What does not change during a run. -/
structure Run where
  library : Library
  around : Surroundings
  /-- The template that was asked for, and the one furthest up that its body comes from. -/
  page : Page
  root : Page
  context : Fields

namespace Turn

/-- How far a loop has come, under the names that are kept for it. -/
def counter? (t : Turn) (path : List Char) : Option Value :=
  if path = "loop.index".toList then some (.ofNat (t.index + 1))
  else if path = "loop.index0".toList then some (.ofNat t.index)
  else if path = "loop.first".toList then some (.bool (t.index == 0))
  else if path = "loop.last".toList then some (.bool (t.index + 1 == t.size))
  else none

/-- The key or the item of the current turn, or a part of the item. -/
def entry? (t : Turn) (path : List Char) : Option Value :=
  if t.keyName.any fun k => k.toList = path then some (.string t.key)
  else match Pointer.split path with
    | (name, none) => if name = t.itemName.toList then some t.item else none
    | (name, some rest) => if name = t.itemName.toList then Pointer.follow? t.item rest else none

def find? (t : Turn) (path : List Char) : Option Value := (t.counter? path).or (t.entry? path)

end Turn

namespace Frame

def hides (f : Frame) : Bool :=
  match f.kind with
  | .origin => true
  | .macroFrame _ _ => true
  | _ => false

/-- A variable that was set in this frame. -/
def findSet? (f : Frame) (path : List Char) : Option Value :=
  match Pointer.split path with
  | (name, none) => Fields.get? (String.ofList name) f.vars
  | (name, some rest) => (Fields.get? (String.ofList name) f.vars).bind fun v => Pointer.follow? v rest

def find? (f : Frame) (path : List Char) : Option Value :=
  (findSet? f path).or (f.turn.bind fun t => t.find? path)

end Frame

namespace Scope

/-- The first frame that knows the path, none behind one that hides what is around it. -/
def inFrames? (path : List Char) : List Frame → Option Value
  | [] => none
  | f :: rest =>
    match f.find? path with
    | some v => some v
    | none => if f.hides then none else inFrames? path rest

def lookUp? (r : Run) (s : Scope) (path : List Char) : Option Value :=
  match inFrames? path (s.frame :: s.outer) with
  | some v => some v
  | none =>
    match Pointer.split path with
    | (name, none) => Fields.get? (String.ofList name) r.context
    | (name, some rest) => (Fields.get? (String.ofList name) r.context).bind fun v => Pointer.follow? v rest

def templateName (s : Scope) : String := s.frame.page.name

/-- The value of a path without brackets. -/
def plainValue (r : Run) (s : Scope) (path : List Char) : Except Cause Value :=
  match lookUp? r s path with
  | some v => .ok v
  | none => .error (.unknownPath (String.ofList path) s.templateName)

/-- A value as a key of a path. -/
def keyOf? : Value → Option (List Char)
  | .string t => some ('"' :: t.toList ++ ['"'])
  | .number n => some n.text.toList
  | _ => none

/-- Puts the values of the paths inside brackets in their places. -/
def resolveInner (valueOf : List Char → Except Cause Value) (path : List Char) :
    List (List Char) → (current : List Char) → Except Cause (List Char)
  | [], current => .ok current
  | inner :: rest, current =>
    match valueOf inner with
    | .error c => .error (.indexFault (String.ofList path) c.message)
    | .ok v =>
      match keyOf? v with
      | some key => resolveInner valueOf path rest (Pointer.place inner key current)
      | none => .error (.indexKind (String.ofList inner) (String.ofList path))

/-- The value of a path; `fuel` bounds how deep brackets nest. -/
def valueFuel (r : Run) (s : Scope) : (fuel : Nat) → (path : List Char) → Except Cause Value
  | 0, _ => .error .tooDeep
  | fuel + 1, path =>
    if path.contains '[' then
      match resolveInner (valueFuel r s fuel) path (Pointer.innerPaths path) path with
      | .error c => .error c
      | .ok full =>
        let full := Pointer.flat full
        match lookUp? r s full with
        | some v => .ok v
        | none => .error (.unknownPlace (String.ofList path) s.templateName (String.ofList full))
    else plainValue r s path

def value (r : Run) (s : Scope) (path : String) : Except Cause Value :=
  valueFuel r s (path.length + 1) path.toList

/-- Sets a variable in the innermost frame. -/
def set (s : Scope) (name : String) (v : Value) : Scope :=
  { s with frame := { s.frame with vars := Fields.insert name v s.frame.vars } }

def setBehindLoops (name : String) (v : Value) : List Frame → List Frame
  | [] => []
  | f :: rest =>
    match f.kind with
    | .loop => f :: setBehindLoops name v rest
    | _ => { f with vars := Fields.insert name v f.vars } :: rest

/-- Sets a variable in the innermost frame that is no loop. -/
def setEverywhere (s : Scope) (name : String) (v : Value) : Scope :=
  match setBehindLoops name v (s.frame :: s.outer) with
  | f :: rest => { s with frame := f, outer := rest }
  | [] => s

def push (s : Scope) (f : Frame) : Scope := { s with frame := f, outer := s.frame :: s.outer }

def pop (s : Scope) : Scope :=
  match s.outer with
  | f :: rest => { s with frame := f, outer := rest }
  | [] => s

def signal (s : Scope) : Signal := (s.frame.turn.map Turn.signal).getD .none

end Scope
end Pageweave.Template
