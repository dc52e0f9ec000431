import Pageweave.Cache.Store
import Pageweave.Layout
import Pageweave.Loading
/-!
# Pages of a site

Templates are rendered alone or within a layout. Requests for a part of a page get the template alone, whatever layout
was asked for. Otherwise the content comes first, then the layout's own values, then the layout around them. Everything
is compiled through the cache. A supplier may look around and change things while it answers, the cache among them.
-/
namespace Pageweave

instance : Dependent Compiled := ⟨Compiled.dependsOn⟩

abbrev PageCache := Cache Compiled

structure Site where
  engine : Engine := {}
  layouts : LayoutRegistry := {}
  defaultLayout : Option String := none

/-- An outcome, and the cache after it. -/
abbrev Rendering := ExceptT PageError (StateM PageCache)

/-- An outcome, and the cache and all else that suppliers see after it. -/
abbrev Composing (w : Type) := ExceptT PageError (StateM (PageCache × w))

/-- Rendering sees no more than the cache. -/
def Rendering.within {w α : Type} (work : Rendering α) : Composing w α := fun (cache, world) =>
  let (result, cache) := work cache
  (result, cache, world)

/-- How the suppliers of layouts answer. -/
abbrev Asking (w : Type) := Layout → Supplier → Request → StateM (PageCache × w) (Except SupplyFault Fields)

/-- The suppliers do nothing but answer. -/
def Asking.plain : Asking Unit := fun _ supply r => pure (supply r)

def Model.value? : Model → Except PageError Value
  | .value v => .ok v
  | .failing text => .error (.invalidModel (Model.reason text))

/-- Merges a model. One without values is an error, and the context stays as it is. -/
def Context.mergeModel (model : Model) : ExceptT PageError (StateM Context) Unit := do
  let value ← model.value?
  modify fun c => c.mergeValue value

namespace Site

/-- A compiled page, from the cache if it is there. -/
def compiledKey (s : Site) (l : Locator) (k : Key) : Rendering Compiled :=
  fun cache => cache.getOrCompile k fun _ => s.engine.load l k

def compiled (s : Site) (l : Locator) (name : String) : Rendering Compiled := do
  s.compiledKey l (← l.key name)

/-- A template with the values of a request and a model. -/
def renderContent (s : Site) (l : Locator) (name : String) (model : Value) (r : Request) : Rendering String := do
  let page ← s.compiled l name
  s.engine.execute page (Context.mergeValue (Context.ofRequest r) model)

/-- A template alone. -/
def renderFragment (s : Site) (l : Locator) (name : String) (model : Model) (r : Request) : Rendering String := do
  s.renderContent l name (← model.value?) r

/-- The values around which a layout is put: ambient ones, the content and the model. -/
def layoutContext (r : Request) (content : String) (model : Value) : Context :=
  let c := Fields.insert Names.contentKey (.string content) (Context.ofRequest r)
  if model.isNull then c else Fields.insert Names.modelKey model c

/-- Several templates alone, one after the other; each has its own outcome. -/
def renderFragments (s : Site) (l : Locator) (names : List String) (model : Model) (r : Request) :
    StateM PageCache (List (Except PageError String)) :=
  names.mapM fun name => (s.renderFragment l name model r).run

/-- What a layout may get from its supplier; keys of the renderer are refused. -/
def accept (layout : Layout) : Except SupplyFault Fields → Except PageError Fields
  | .error fault => .error (.sideData layout.id fault.message fault.causes)
  | .ok data =>
    match data.find? fun e => Names.isReserved e.1 with
    | some (key, _) => .error (.reservedKey layout.id key)
    | none => .ok data

/-- What a layout supplies itself. -/
def supplied {w : Type} (ask : Asking w) (layout : Layout) (r : Request) : Composing w Fields := fun state =>
  match layout.supplier with
  | none => (.ok [], state)
  | some supply =>
    let (answer, state) := ask layout supply r state
    (accept layout answer, state)

def layout (s : Site) (id : String) : Except PageError Layout :=
  match s.layouts.get? id with
  | some layout => .ok layout
  | none => .error (.unknownLayout id)

/-- A template within a layout, or alone if a part of a page is wanted. -/
def composePage {w : Type} (s : Site) (ask : Asking w) (l : Locator) (id name : String) (model : Model) (r : Request) :
    Composing w String := do
  let model ← model.value?
  if r.wantsFragment then (s.renderContent l name model r).within
  else
    let layout ← s.layout id
    let content ← (s.renderContent l name model r).within
    let data ← supplied ask layout r
    let page ← (s.compiledKey l layout.template).within
    s.engine.execute page (Fields.merge (layoutContext r content model) data)

/-- The same with suppliers that do nothing but answer. -/
def renderPage (s : Site) (l : Locator) (id name : String) (model : Model) (r : Request) : Rendering String :=
  fun cache =>
    let (result, cache, _) := s.composePage Asking.plain l id name model r (cache, ())
    (result, cache)

/-- A template within the default layout. -/
def render (s : Site) (l : Locator) (name : String) (model : Model) (r : Request) : Rendering String := do
  match s.defaultLayout with
  | some id => s.renderPage l id name model r
  | none => throw (.setup .noDefaultLayout)

end Site
end Pageweave
