import Pageweave.Command.Arguments
/-!
# Commands

What the tool can be asked to do, and how it is said. Options for all commands stand before or behind the command; what
stands behind it counts.
-/
namespace Pageweave

structure RenderOptions where
  template : String
  layout : Option String := none
  fragment : Bool := false
  model : Option String := none
  path : String := "/"
  token : Option String := none
  explain : Bool := false
  deriving DecidableEq

inductive ListFormat where
  | table | json
  deriving DecidableEq

structure ListOptions where
  store : Option String := none
  /-- Only keys below this one. -/
  under : Option String := none
  format : ListFormat := .table
  deriving DecidableEq

inductive Command where
  | render (options : RenderOptions)
  | list (options : ListOptions)
  /-- Some components by name. -/
  | eject (names : List String)
  | ejectAll
  | watch (debounceMillis : Option Nat)
  deriving DecidableEq

structure Invocation where
  command : Command
  verbose : Bool := false
  quiet : Bool := false
  settings : Option String := none
  project : String := "."
  deriving DecidableEq

namespace Invocation

open Arguments

def anyValue (_ : String) : Option UsageFault := none

def pathValue (v : String) : Option UsageFault := if v = "" then some .wrongValue else none

def formats : List (String × ListFormat) := [("table", .table), ("json", .json)]

def formatOf? (v : String) : Option ListFormat := (formats.find? fun e => e.1 == v).map Prod.snd

def formatValue (v : String) : Option UsageFault := if (formatOf? v).isSome then none else some .wrongValue

/-- A whole number of 64 bits, perhaps with a plus. -/
def number? (v : String) : Option Nat :=
  let ds := match v.toList with
    | '+' :: ds => ds
    | ds => ds
  let n := ds.foldl (fun n c => n * 10 + (c.toNat - 48)) 0
  if ds.isEmpty || !ds.all Char.isDigit || Nat.pow 2 64 ≤ n then none else some n

def numberValue (v : String) : Option UsageFault := if (number? v).isSome then none else some .malformedValue

/-- Options that every level has. -/
def shared : List OptionSpec :=
  [⟨"verbose", some 'v', .flag⟩, ⟨"quiet", some 'q', .flag⟩, ⟨"config", some 'c', .value pathValue⟩,
    ⟨"project", some 'p', .value pathValue⟩, ⟨"help", some 'h', .help⟩]

def top : Level :=
  { options := shared ++ [⟨"version", some 'V', .version⟩],
    commands := ["render", "list", "eject", "watch", "help"] }

def renderLevel : Level :=
  { options := shared ++
      [⟨"layout", some 'l', .value anyValue⟩, ⟨"fragment", some 'f', .flag⟩,
        ⟨"model", some 'm', .value pathValue⟩,
        ⟨"path", none, .value anyValue⟩, ⟨"csrf-token", none, .value anyValue⟩, ⟨"explain", none, .flag⟩],
    words := .one }

def listLevel : Level :=
  { options := shared ++
      [⟨"provider", none, .value anyValue⟩, ⟨"prefix", none, .value anyValue⟩,
        ⟨"format", none, .value formatValue⟩] }

def ejectLevel : Level := { options := shared ++ [⟨"all", none, .flag⟩], words := .many }

def watchLevel : Level := { options := shared ++ [⟨"debounce-ms", none, .value numberValue⟩] }

/-- Output cannot be both more and less than usual. -/
def checkShared (m : Matches) : Except UsageFault Unit :=
  if m.has "verbose" && m.has "quiet" then .error .conflict else .ok ()

/-- What was said on a level. -/
def said (level : Level) (args : List String) : Except UsageFault Matches := do
  let m ← (← Arguments.read level false {} args).settle
  checkShared m
  .ok m

def readRender (args : List String) : Except UsageFault (Command × Matches) := do
  let m ← said renderLevel args
  match m.words with
  | template :: _ =>
    .ok (.render { template, layout := m.value? "layout", fragment := m.has "fragment", model := m.value? "model",
                   path := (m.value? "path").getD "/", token := m.value? "csrf-token",
                   explain := m.has "explain" }, m)
  | [] => .error .missingArgument

def readList (args : List String) : Except UsageFault (Command × Matches) := do
  let m ← said listLevel args
  let format := ((m.value? "format").bind formatOf?).getD .table
  .ok (.list { store := m.value? "provider", under := m.value? "prefix", format }, m)

def readEject (args : List String) : Except UsageFault (Command × Matches) := do
  let m ← said ejectLevel args
  if m.has "all" then
    if m.words.isEmpty then .ok (.ejectAll, m) else .error .conflict
  else if m.words.isEmpty then .error .missingArgument
  else .ok (.eject m.words, m)

def readWatch (args : List String) : Except UsageFault (Command × Matches) := do
  let m ← said watchLevel args
  .ok (.watch ((m.value? "debounce-ms").bind number?), m)

/-- The command of a name with its arguments. -/
def readCommand (name : String) (args : List String) : Except UsageFault (Command × Matches) :=
  match name with
  | "render" => readRender args
  | "list" => readList args
  | "eject" => readEject args
  | _ => readWatch args

/-- Reads a command line, without the name of the program. -/
def read (args : List String) : Except UsageFault Invocation := do
  let m ← Arguments.read top false {} args
  match m.command with
  | none =>
    let m ← m.settle
    .error (if m.isEmpty then .noCommand else .missingCommand)
  | some (name, rest) =>
    let (command, below) ← readCommand name rest
    let m ← m.settle
    checkShared m
    .ok { command, verbose := m.has "verbose" || below.has "verbose", quiet := m.has "quiet" || below.has "quiet",
          settings := (below.value? "config").or (m.value? "config"),
          project := ((below.value? "project").or (m.value? "project")).getD "." }

end Invocation
end Pageweave
