import Pageweave.FileTree.Fault
import Pageweave.Key
/-!
# Errors of the page engine

Everything that can go wrong between a name and a finished page, and the sentence for each cause.
-/
namespace Pageweave

/-- Why no engine can be built or used as it was set up. -/
inductive SetupFault where
  | emptyExtension
  | noLayouts
  | blankLayout
  | layoutTwice (id : String)
  | defaultNotRegistered (id : String) (registered : List String)
  | noDefaultLayout
  | noBundledStore
  | unknownComponent (name : String) (available : List String)
  | other (text : String)
  deriving DecidableEq

def SetupFault.message : SetupFault → String
  | .emptyExtension => "template extension must not be empty"
  | .noLayouts => "at least one layout must be registered"
  | .blankLayout => "layout id must not be empty"
  | .layoutTwice id => "layout '" ++ id ++ "' is registered more than once"
  | .defaultNotRegistered id registered =>
    "default layout '" ++ id ++ "' is not registered (registered: " ++ ", ".intercalate registered ++ ")"
  | .noDefaultLayout => "no default layout is configured"
  | .noBundledStore => "no 'bundled' template provider is configured"
  | .unknownComponent name available =>
    "unknown component '" ++ name ++ "'; available components: " ++ ", ".intercalate available
  | .other text => text

inductive PageError where
  | notFound (key : Key) (suggestions : List String)
  | parse (key : Key) (message : String) (line : Option Nat)
  | render (key : Key) (message : String)
  /-- The supplier of a layout's data failed: its message, then what caused it. -/
  | sideData (layout message : String) (causes : List String)
  | reservedKey (layout key : String)
  | unknownLayout (id : String)
  | setup (fault : SetupFault)
  | invalidModel (text : String)
  | file (path : String) (fault : FileFault)
  /-- A name without a key: its extension would be cut off inside a character. -/
  | malformedName
  deriving DecidableEq

namespace PageError

def message : PageError → String
  | .notFound key _ =>
    "Template '" ++ key.name ++ "' was not found in the project templates or the bundled defaults"
  | .parse key text _ => "Failed to parse template '" ++ key.name ++ "': " ++ text
  | .render key text => "Failed to render template '" ++ key.name ++ "': " ++ text
  | .sideData layout text _ => "Layout data provider for '" ++ layout ++ "' failed: " ++ text
  | .reservedKey layout key => "Layout data provider for '" ++ layout ++ "' returned reserved key '" ++ key ++ "'"
  | .unknownLayout id => "Layout '" ++ id ++ "' is not registered"
  | .setup fault => "Configuration error: " ++ fault.message
  | .invalidModel text => "Model could not be converted into template values: " ++ text
  | .file path fault => "I/O error on '" ++ path ++ "': " ++ fault.message
  | .malformedName => "a name may not be cut inside a character"

/-- The template that the error is about. -/
def template? : PageError → Option Key
  | .notFound key _ => some key
  | .parse key _ _ => some key
  | .render key _ => some key
  | _ => none

def isNotFound : PageError → Bool
  | .notFound _ _ => true
  | _ => false

def isParse : PageError → Bool
  | .parse _ _ _ => true
  | _ => false

/-- What lies behind the error, nearest first. -/
def causes : PageError → List String
  | .sideData _ text more => text :: more
  | .invalidModel text => [text]
  | .file _ fault => fault.message :: fault.causes
  | _ => []

end PageError

/-- The key of a name, or the error of having none. -/
def Key.named (extension name : String) : Except PageError Key :=
  match Key.ofName? extension name with
  | some k => .ok k
  | none => .error .malformedName

end Pageweave
