import Pageweave.Names
import Pageweave.Path
import Pageweave.Value.Basic
/-!
# Settings of a project

What a project may set in its settings file. Everything has a default, so that no file is needed.
-/
namespace Pageweave

structure Settings where
  templatesPath : String := Names.templatesDirectory
  extension : String := Names.extension
  hotReload : Bool := false
  debounceMillis : Nat := Names.debounceMillis
  autoescape : Bool := true
  defaultLayout : Option String := none
  layouts : List String := []
  deriving DecidableEq

namespace Settings

/-- The names of the settings, in the order in which they are told. -/
def names : List String :=
  ["templates_path", "extension", "hot_reload", "debounce_ms", "autoescape", "default_layout", "layouts"]

/-- The settings as data; what is not set and an empty list of layouts are left out. -/
def toValue (s : Settings) : Value :=
  let always : Fields := [("templates_path", .string s.templatesPath), ("extension", .string s.extension),
    ("hot_reload", .bool s.hotReload), ("debounce_ms", .ofNat s.debounceMillis), ("autoescape", .bool s.autoescape)]
  let layout := match s.defaultLayout with
    | some id => [("default_layout", Value.string id)]
    | none => []
  let layouts := if s.layouts.isEmpty then [] else [("layouts", Value.strings s.layouts)]
  .object (Fields.ofList (always ++ layout ++ layouts))

/-- The directory of the templates; a relative one lies in the project. -/
def templatesRoot (s : Settings) (project : String) : String := Path.join project s.templatesPath

end Settings
end Pageweave
