/-!
# Fixed names

The names, prefixes and times that the parts agree on, and the context keys that belong to the renderer.
-/
namespace Pageweave.Names

/-- The directory of the project's templates. -/
def templatesDirectory : String := "Templates"

def extension : String := "html"

def settingsFile : String := "hxview.toml"

/-- The store over the project's templates. -/
def projectStore : String := "project"

/-- The store of the templates that come with the program. -/
def bundledStore : String := "bundled"

def layouts : String := "layouts"

def components : String := "components"

/-- Milliseconds without a change before changes are handed over. -/
def debounceMillis : Nat := 50

/-- The context key of the inner page, in a layout. -/
def contentKey : String := "content"

def modelKey : String := "model"

def requestPathKey : String := "_request_path"

def htmxKey : String := "_htmx"

def tokenKey : String := "_csrf_token"

/-- Keys that the renderer sets, so that layout data may not. -/
def isReserved (key : String) : Bool :=
  key == contentKey || key == modelKey || key.toList.head? == some '_'

end Pageweave.Names
