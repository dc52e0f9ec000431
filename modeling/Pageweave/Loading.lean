import Pageweave.Compiled
import Pageweave.Locator
import Pageweave.Reference
/-!
# Loading a page

A page is loaded by following references: a queue holds those still to look at, a table says which names have been
looked up and whether they were found. Each step asks the locator at most once, so other work may happen between two
steps. Names are tried as they are written; the page's own name counts as found. What is optional may be missing, but
stays known, since creating it later changes the page.
-/
namespace Pageweave

/-- All that a page is compiled from, and the keys of the names that were not found. -/
structure Loaded where
  key : Key
  text : String
  included : List Included := []
  missing : List Key := []
  deriving DecidableEq

/-- A reference whose names are being tried in order. -/
structure Trying where
  reference : Reference
  rest : List String
  resolved : Bool
  deriving DecidableEq

structure Worklist where
  loaded : Loaded
  /-- The names that were looked up, and whether they were found. -/
  seen : List (String × Bool)
  trying : Option Trying := none
  queue : List Reference

inductive Loading where
  | opening (key : Key)
  | reading (work : Worklist)
  | done (result : Except PageError Loaded)

namespace Worklist

/-- The queue of a page whose own text is known. -/
def start (k : Key) (text : String) : Worklist :=
  { loaded := { key := k, text }, seen := [(k.name, true)], queue := Reference.scan text }

def seen? (w : Worklist) (name : String) : Option Bool := (w.seen.find? fun e => e.1 == name).map Prod.snd

/-- Notes the text behind a name and queues its references. -/
def found (w : Worklist) (name : String) (s : Source) : Worklist :=
  { w with
    loaded := { w.loaded with included := w.loaded.included ++ [⟨name, s.key, s.text⟩] },
    seen := w.seen ++ [(name, true)], queue := w.queue ++ Reference.scan s.text }

/-- Notes that there is nothing behind a name. -/
def absent (w : Worklist) (name : String) (k : Key) : Worklist :=
  { w with
    loaded := { w.loaded with missing := w.loaded.missing ++ [k] }, seen := w.seen ++ [(name, false)] }

/-- Goes on with the names of a reference. -/
def proceed (w : Worklist) (t : Trying) : Loading := .reading { w with trying := some t }

/-- Tries the next name of a reference. -/
def tryName (l : Locator) (w : Worklist) (t : Trying) (name : String) (rest : List String) : Loading :=
  match w.seen? name with
  | some there => w.proceed { t with rest, resolved := t.resolved || there }
  | none =>
    match l.key name with
    | .error e => .done (.error e)
    | .ok k =>
      match l.find k with
      | .error e => .done (.error e)
      | .ok (some s) => (w.found name s).proceed { t with rest, resolved := true }
      | .ok none => (w.absent name k).proceed { t with rest }

/-- A reference without a text behind any of its names is an error, unless it is optional. -/
def conclude (l : Locator) (w : Worklist) (t : Trying) : Loading :=
  let next : Loading := .reading { w with trying := none }
  if t.resolved || t.reference.ignoreMissing then next
  else
    match t.reference.names with
    | [] => next
    | first :: _ =>
      match l.key first >>= l.resolve with
      | .error e => .done (.error e)
      | .ok _ => next

def step (l : Locator) (w : Worklist) : Loading :=
  match w.trying with
  | some t =>
    match t.rest with
    | name :: rest => tryName l w t name rest
    | [] => conclude l w t
  | none =>
    match w.queue with
    | r :: rest => .reading { w with queue := rest, trying := some ⟨r, r.names, false⟩ }
    | [] => .done (.ok w.loaded)

end Worklist

namespace Loading

/-- One step; what is done stays. -/
def step (l : Locator) : Loading → Loading
  | .opening k =>
    match l.resolve k with
    | .error e => .done (.error e)
    | .ok s => .reading (Worklist.start k s.text)
  | .reading w => w.step l
  | .done r => .done r

def run (l : Locator) : (fuel : Nat) → Loading → Loading
  | 0, s => s
  | _ + 1, .done r => .done r
  | fuel + 1, s => run l fuel (s.step l)

def result? : Loading → Option (Except PageError Loaded)
  | .done r => some r
  | _ => none

/-- The names of the references in some texts. -/
def namesIn (texts : List String) : List String :=
  texts.flatMap fun text => (Reference.scan text).flatMap Reference.names

/-- The steps that references take when each is looked at once. -/
def stepsFor (rs : List Reference) : Nat := rs.foldr (fun r n => r.names.length + 2 + n) 0

/-- The steps that the references of some texts take. -/
def stepsIn (texts : List String) : Nat := texts.foldr (fun text n => stepsFor (Reference.scan text) + n) 0

/-- Steps enough: every name that occurs is looked up once at most and then brings the references of one text. -/
def steps (l : Locator) : Nat := ((namesIn l.texts).length + 1) * (stepsIn l.texts + 1) + 2

end Loading

namespace Engine

/-- All that a page is compiled from. -/
def gather (l : Locator) (k : Key) : Except PageError Loaded :=
  ((Loading.opening k).run l (Loading.steps l)).result?.getD (.error (.notFound k []))

/-- Compiles what was loaded; what is missing counts among the dependencies. -/
def assemble (e : Engine) (p : Loaded) : Except PageError Compiled := do
  let c ← e.compile p.key p.text p.included
  .ok { c with dependencies := Key.sorted (c.dependencies ++ p.missing.filter (· ≠ p.key)) }

/-- Finds a page with all it refers to, and compiles it. -/
def load (e : Engine) (l : Locator) (k : Key) : Except PageError Compiled := gather l k >>= e.assemble

end Engine
end Pageweave
