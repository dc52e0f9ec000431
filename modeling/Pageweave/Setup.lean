import Pageweave.Settings.Basic
import Pageweave.Site
/-!
# Setting up an engine

Settings, layouts with their suppliers and the place of the templates, checked before an engine is built from them.
-/
namespace Pageweave

structure Setup where
  root : String := Names.templatesDirectory
  /-- Without a dot in front. -/
  extension : String := Names.extension
  hotReload : Bool := false
  debounceMillis : Nat := Names.debounceMillis
  autoescape : Bool := true
  defaultLayout : Option String := none
  layouts : List Layout := []
  asset : String → String := id

namespace Setup

/-- Sets the extension, given with or without dots in front. -/
def withExtension (s : Setup) (extension : String) : Setup :=
  { s with extension := String.ofList (extension.toList.dropWhile (· = '.')) }

/-- Adds a layout. -/
def withLayout (s : Setup) (id : String) (supplier : Option Supplier) : Except PageError Setup := do
  let layout ← Layout.make id supplier
  .ok { s with layouts := s.layouts ++ [layout] }

/-- The registry of the layouts, or what is wrong with the setup. -/
def registry (s : Setup) : Except PageError LayoutRegistry := do
  if s.extension = "" then throw (.setup .emptyExtension)
  if s.layouts.isEmpty then throw (.setup .noLayouts)
  let registry ← s.layouts.foldlM (fun (r : LayoutRegistry) layout => do
    r.register (← layout.forExtension s.extension)) {}
  match s.defaultLayout with
  | some id => if registry.contains id then .ok registry else .error (.setup (.defaultNotRegistered id registry.ids))
  | none => .ok registry

/-- Checks a setup without building anything. -/
def validate (s : Setup) : Except PageError Unit := s.registry.map fun _ => ()

def stack (s : Setup) : Stack := .standard s.root s.extension

/-- The engine and the layouts, if the setup is valid. -/
def site (s : Setup) : Except PageError Site := do
  let layouts ← s.registry
  .ok { engine := { autoescape := s.autoescape, asset := s.asset }, layouts, defaultLayout := s.defaultLayout }

end Setup

/-- The setup that a project's settings ask for; the default layout needs not be listed. -/
def Settings.setup (s : Settings) (project : String) : Except PageError Setup := do
  let start : Setup :=
    { root := s.templatesRoot project, hotReload := s.hotReload, debounceMillis := s.debounceMillis,
      autoescape := s.autoescape }
  let listed ← s.layouts.foldlM (fun b id => Setup.withLayout b id none) (start.withExtension s.extension)
  match s.defaultLayout with
  | none => .ok listed
  | some id =>
    let listed ← if s.layouts.contains id then .ok listed else listed.withLayout id none
    .ok { listed with defaultLayout := some id }

end Pageweave
