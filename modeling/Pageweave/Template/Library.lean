import Pageweave.Template.Cause
import Pageweave.Template.Dump
import Pageweave.Template.Reading
/-!
# Libraries

The templates that one page needs, read together under the names by which they refer to each other. Every template
knows its ancestors and, for each of its blocks, the blocks of that name further up.
-/
namespace Pageweave.Template

/-- Why texts make no library. -/
inductive LibraryFault where
  | unread (name : String) (fault : SourceFault)
  | circular (name : String) (chain : List String)
  | noParent (name parent : String)
  | noMacros (name file : String)

def LibraryFault.message : LibraryFault → String
  | .unread name fault => Fault.text ["Failed to parse '" ++ name ++ "'", fault.message]
  | .circular name chain =>
    "Circular extend detected for template '" ++ name ++ "'. Inheritance chain: `" ++
      Dump.list (chain.map Text.visible) ++ "`"
  | .noParent name parent =>
    "Template '" ++ name ++ "' is inheriting from '" ++ parent ++ "', which doesn't exist or isn't loaded."
  | .noMacros name file =>
    "Template `" ++ name ++ "` loads macros from `" ++ file ++ "` which isn't present in Tera"

/-- A template with its ancestors, nearest first, and its blocks with those of the ancestors that have them too. -/
structure Page where
  source : Source
  parents : List String
  blocks : List (String × List (String × Block))

def Page.name (p : Page) : String := p.source.name

structure Library where
  pages : List Page

namespace Library

def find? (sources : List Source) (name : String) : Option Source := sources.find? fun s => s.name == name

/-- Puts a template into a library; an earlier one of its name gives way. -/
def put (s : Source) : List Source → List Source
  | [] => [s]
  | t :: ts => if t.name = s.name then s :: ts else t :: put s ts

def readAll (sources : List Source) : List (String × String) → Except LibraryFault (List Source)
  | [] => .ok sources
  | (name, text) :: rest =>
    match Source.read name text with
    | .ok s => readAll (put s sources) rest
    | .error fault => .error (.unread name fault)

/-- The ancestors of `start`, nearest first. `fuel` bounds their number; a longer chain runs in a circle that `start`
is not part of, and is left to the templates in it. -/
def chain (sources : List Source) (start : String) : (fuel : Nat) → (found : List String) → Source →
    Except LibraryFault (List String)
  | 0, found, _ => .ok found
  | fuel + 1, found, s =>
    if !found.isEmpty && s.name == start then .error (.circular start found)
    else match s.parent with
      | none => .ok found
      | some p =>
        match find? sources p with
        | some t => chain sources start fuel (found ++ [t.name]) t
        | none => .error (.noParent s.name p)

def definitions (sources : List Source) (s : Source) (parents : List String) :
    List (String × List (String × Block)) :=
  s.blocks.map fun b =>
    let above := parents.filterMap fun p =>
      (find? sources p).bind fun t => (t.blocks.find? fun c => c.name == b.name).map fun c => (t.name, c)
    (b.name, (s.name, b) :: above)

def makePage (sources : List Source) (s : Source) : Except LibraryFault Page := do
  let parents ← chain sources s.name (sources.length + 1) [] s
  .ok ⟨s, parents, definitions sources s parents⟩

def checkImports (sources : List Source) (s : Source) : Except LibraryFault Unit :=
  match s.imports.find? fun i => (find? sources i.1).isNone with
  | some (file, _) => .error (.noMacros s.name file)
  | none => .ok ()

/-- The library of texts by name. -/
def build (texts : List (String × String)) : Except LibraryFault Library := do
  let sources ← readAll [] texts
  let pages ← sources.mapM (makePage sources)
  sources.forM (checkImports sources)
  .ok ⟨pages⟩

def page? (lib : Library) (name : String) : Option Page := lib.pages.find? fun p => p.name == name

end Library

/-- What a template calls its macros by: a name, the template they are in, and the macros. -/
abbrev Namespaces := List (String × String × List MacroDef)

/-- The namespaces of templates, by template. -/
abbrev Loaded := List (String × Namespaces)

namespace Loaded

def get? (l : Loaded) (template : String) : Option Namespaces := (l.find? fun e => e.1 == template).map Prod.snd

/-- Sets a namespace. -/
def setSpace (space : String) (entry : String × List MacroDef) : Namespaces → Namespaces
  | [] => [(space, entry)]
  | e :: rest => if e.1 = space then (space, entry) :: rest else e :: setSpace space entry rest

/-- Adds the namespaces that are not there yet. -/
def addMissing (spaces more : Namespaces) : Namespaces :=
  more.foldl (fun acc e => if acc.any fun a => a.1 == e.1 then acc else acc ++ [e]) spaces

def set (template : String) (spaces : Namespaces) : Loaded → Loaded
  | [] => [(template, spaces)]
  | e :: rest => if e.1 = template then (template, spaces) :: rest else e :: set template spaces rest

/-- Adds what an import brings: the file's macros, and the namespaces that the file knows itself. -/
def addImport (lib : Library) (load : Loaded → Page → Loaded) (state : Namespaces × Loaded)
    (file : String × String) : Namespaces × Loaded :=
  match lib.page? file.1 with
  | none => state
  | some p =>
    let spaces := setSpace file.2 (file.1, p.source.macros) state.1
    let loaded := load state.2 p
    (addMissing spaces ((get? loaded p.name).getD []), loaded)

/-- Adds what an ancestor knows. -/
def addParent (lib : Library) (load : Loaded → Page → Loaded) (name : String) (loaded : Loaded) (parent : String) :
    Loaded :=
  match lib.page? parent with
  | none => loaded
  | some p =>
    let loaded := load loaded p
    set name (addMissing ((get? loaded name).getD []) ((get? loaded p.name).getD [])) loaded

/-- Adds the namespaces of a template and of those it imports or descends from; `fuel` bounds their nesting. -/
def load (lib : Library) : (fuel : Nat) → Loaded → Page → Loaded
  | 0, loaded, _ => loaded
  | fuel + 1, loaded, p =>
    if (get? loaded p.name).isSome then loaded
    else
      let own : Namespaces := if p.source.macros.isEmpty then [] else [("self", p.name, p.source.macros)]
      let (spaces, loaded) := p.source.imports.foldl (addImport lib (load lib fuel)) (own, loaded)
      p.parents.foldl (addParent lib (load lib fuel) p.name) (set p.name spaces loaded)

/-- The macro that a template means by `space::name`, and the template it is in. -/
def macro? (l : Loaded) (template space name : String) : Except Cause (String × MacroDef) :=
  match ((get? l template).getD []).find? fun e => e.1 == space with
  | none => .error (.macroSpace space template)
  | some (_, file, macros) =>
    match macros.find? fun m => m.name == name with
    | some m => .ok (file, m)
    | none => .error (.macroName space name template)

end Loaded
end Pageweave.Template
