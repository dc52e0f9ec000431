import Pageweave.Command.Invocation
import Pageweave.Ejecting
import Pageweave.Failure
import Pageweave.Report
import Pageweave.Settings.Reader
import Pageweave.Setup
import Pageweave.Value.Reader
import Pageweave.Value.Text
import Pageweave.Watcher
/-!
# Running commands

Each command with the settings of a project: render a template, list what there is, eject components, watch. A project
that sets no layout is rendered with the bundled one.
-/
namespace Pageweave

/-- What a command printed, and why it failed. -/
structure Outcome where
  output : String := ""
  /-- What it told apart from its output, before the failure itself. -/
  notes : String := ""
  failure : Option Failure := none

namespace Outcome

def failed (f : Failure) : Outcome := { failure := some f }

/-- All that is told apart from the output. -/
def errors (o : Outcome) : String :=
  o.notes ++ (match o.failure with
    | some f => f.friendly.printed
    | none => "")

end Outcome

/-- A command has ended, or it goes on until it is stopped. -/
inductive Reply where
  | ended (outcome : Outcome)
  | watching (watcher : Watcher) (debounceMillis : Nat)

def Settings.LoadFault.failure (e : Settings.LoadFault) : Failure :=
  match e with
  | .file _ fault => ⟨[e.message], .file fault⟩
  | .text _ source fault => ⟨[e.message], .settings (fault.text source)⟩

/-- The project that a command works on. -/
structure Workplace where
  project : String
  settings : Settings

namespace Workplace

def bundledLayout : String := "base"

def templatesRoot (w : Workplace) : String := w.settings.templatesRoot w.project

/-- The setup of the settings, with the bundled layout if they name none. -/
def setup (w : Workplace) : Except PageError Setup := do
  let s ← w.settings.setup w.project
  if w.settings.layouts.isEmpty && w.settings.defaultLayout.isNone then
    .ok { ← s.withLayout bundledLayout none with defaultLayout := some bundledLayout }
  else .ok s

/-- The templates that are listed. -/
def locator (w : Workplace) (files : FileTree) : Locator :=
  (Stack.standard w.templatesRoot w.settings.extension).locator files

/-- The layouts among the templates; none if they cannot be listed. -/
def knownLayouts (w : Workplace) (files : FileTree) : Except PageError (List String) :=
  match (w.locator files).list with
  | .ok listed => .ok ((listed.map Prod.fst).filter (·.isUnder Names.layouts) |>.map Key.baseName)
  | .error .malformedName => .error .malformedName
  | .error _ => .ok []

/-- The model in a file, or null without one. -/
def readModel (files : FileTree) : Option String → Except Failure Value
  | none => .ok .null
  | some path =>
    match files.readText path with
    | .error e => .error ⟨["Failed to read model file: " ++ path], .file e⟩
    | .ok text =>
      match Value.read text with
      | .ok v => .ok v
      | .error e => .error ⟨["Failed to parse model file as JSON: " ++ path], .plain e⟩

def requestOf (o : RenderOptions) : Request :=
  { path := o.path, htmx := if o.fragment then Htmx.fragment else {}, token := o.token }

/-- The report on a template that does not read, with its text if that can be had. -/
def explain (l : Locator) (e : PageError) : String :=
  let source := e.template?.bind fun k => (l.resolve k).toOption.map Source.text
  e.report source ++ "\n"

/-- The outcome of a page that was not rendered. -/
def unrendered (w : Workplace) (files : FileTree) (l : Locator) (o : RenderOptions) (e : PageError) : Outcome :=
  match e with
  | .unknownLayout _ =>
    match w.knownLayouts files with
    | .ok known => .failed ⟨["Layouts available in the templates: " ++ ", ".intercalate known], .page e⟩
    | .error e => .failed (.ofPage e)
  | e => { notes := if o.explain && e.isParse then explain l e else "", failure := some (.ofPage e) }

def render (w : Workplace) (files : FileTree) (o : RenderOptions) : Outcome :=
  match readModel files o.model with
  | .error f => .failed f
  | .ok model =>
    match (do let s ← w.setup; .ok (s, ← s.site) : Except PageError (Setup × Site)) with
    | .error e => .failed (.ofPage e)
    | .ok (setup, site) =>
      let l := setup.stack.locator files
      let rendering := match o.layout with
        | some id => site.renderPage l id o.template (.value model) (requestOf o)
        | none => site.render l o.template (.value model) (requestOf o)
      match (rendering {}).1 with
      | .ok page => { output := page ++ "\n" }
      | .error e => w.unrendered files l o e

/-- A listed template. -/
structure Listed where
  key : Key
  store : String
  /-- Does it hide a bundled one? -/
  hidesBundled : Bool
  deriving DecidableEq

/-- The templates that are asked for. -/
def listed (l : Locator) (o : ListOptions) : Except PageError (List Listed) := do
  let bundled ← match l.store? Names.bundledStore with
    | some s => s.list
    | none => .ok []
  let all ← l.list
  let wanted := all.filter fun e => o.store.all (· == e.2) && o.under.all e.1.isUnder
  .ok (wanted.map fun e => ⟨e.1, e.2, e.2 ≠ Names.bundledStore && bundled.contains e.1⟩)

def Listed.toValue (e : Listed) : Value :=
  .object [("key", .string e.key.name), ("provider", .string e.store), ("overrides_bundled", .bool e.hidesBundled)]

def Listed.line (width : Nat) (e : Listed) : String :=
  Text.padRight width e.key.name ++ "  " ++ e.store ++ (if e.hidesBundled then " (overrides bundled)" else "") ++ "\n"

/-- The listing as one text. -/
def listing (format : ListFormat) (entries : List Listed) : String :=
  match format with
  | .json => (Value.array (entries.map Listed.toValue)).pretty ++ "\n"
  | .table =>
    if entries.isEmpty then "No templates found\n"
    else
      let width := (entries.map fun e => e.key.name.utf8ByteSize).foldl max 0
      String.join (entries.map (Listed.line width))

def list (w : Workplace) (files : FileTree) (o : ListOptions) : Outcome :=
  match listed (w.locator files) o with
  | .ok entries => { output := listing o.format entries }
  | .error e => .failed (.ofPage e)

def ejectedLine : Ejected → String
  | .written path => "Ejected " ++ path ++ "\n"
  | .skipped path => "Skipped " ++ path ++ " (already exists)\n"

/-- Ejects some components, or all of them. -/
def eject (w : Workplace) (names : Option (List String)) : StateM FileTree Outcome := fun files =>
  match w.setup with
  | .error e => (.failed (.ofPage e), files)
  | .ok setup =>
    let ejection : Ejection (List Ejected) := match names with
      | none => do (setup.stack.locator (← get)).ejectAll setup.root
      | some names => names.mapM fun name => do (setup.stack.locator (← get)).eject setup.root name
    match ejection files with
    | (.ok all, files) => ({ output := String.join (all.map ejectedLine) }, files)
    | (.error e, files) => (.failed (.ofPage e), files)

def watch (w : Workplace) (files : FileTree) (debounceMillis : Option Nat) : Reply :=
  let root := w.templatesRoot
  if files.isDirectory root then
    .watching (Watcher.start files root w.settings.extension true true)
      (debounceMillis.getD w.settings.debounceMillis)
  else .ended (.failed ⟨[], .plain ("Template directory does not exist: " ++ root)⟩)

end Workplace

namespace Invocation

/-- The project with its settings. -/
def workplace (i : Invocation) (files : FileTree) : Except Failure Workplace :=
  let settings := match i.settings with
    | some path => Settings.load files path
    | none => Settings.discover files i.project
  match settings with
  | .ok settings => .ok ⟨i.project, settings⟩
  | .error e => .error (e.failure.within ("Failed to load configuration for " ++ i.project))

/-- Runs a command on the files as they are, and perhaps changes them. -/
def run (i : Invocation) : StateM FileTree Reply := fun files =>
  match i.workplace files with
  | .error f => (.ended (.failed f), files)
  | .ok w =>
    match i.command with
    | .render o => (.ended (w.render files o), files)
    | .list o => (.ended (w.list files o), files)
    | .eject names => let (o, files) := w.eject (some names) files; (.ended o, files)
    | .ejectAll => let (o, files) := w.eject none files; (.ended o, files)
    | .watch millis => (w.watch files millis, files)

end Invocation
end Pageweave
