import Pageweave.Text.Blank
/-!
# Arguments of a command line

Arguments are read from left to right: options by their long or short names, names of commands, and other words. An
option's value is attached to it or is the next argument; it is only looked at when the next option begins or the
arguments end, so an argument that cannot be read in between is told first.
-/
namespace Pageweave

/-- Why the arguments are no command, or what is shown instead of running one. -/
inductive UsageFault where
  | showHelp | showVersion
  | noCommand | missingCommand | unknownCommand
  | unknownArgument | missingArgument | conflict
  | wrongValue | malformedValue | surplusValue
  deriving DecidableEq

/-- The exit status; what is asked for is no failure. -/
def UsageFault.status : UsageFault → Nat
  | .showHelp => 0
  | .showVersion => 0
  | _ => 2

namespace Arguments

inductive OptionKind where
  | flag
  /-- The check gives the fault of a value, if it has one. -/
  | value (check : String → Option UsageFault)
  | help
  | version

structure OptionSpec where
  long : String
  short : Option Char := none
  kind : OptionKind

/-- How many words a level takes that are no options. -/
inductive Words where
  | none | one | many
  deriving DecidableEq

/-- What may be said on one level of the command line. -/
structure Level where
  options : List OptionSpec
  commands : List String := []
  words : Words := .none

/-- What was said. -/
structure Matches where
  flags : List String := []
  values : List (String × String) := []
  words : List String := []
  /-- The option that was read last and has not been looked at, with its value once it is there. -/
  pending : Option (OptionSpec × Option String) := none
  /-- The command below, with the arguments that follow it. -/
  command : Option (String × List String) := none

namespace Matches

def value? (m : Matches) (long : String) : Option String :=
  (m.values.find? fun e => e.1 == long).map Prod.snd

def has (m : Matches) (flag : String) : Bool := m.flags.contains flag

def isEmpty (m : Matches) : Bool := m.flags.isEmpty && m.values.isEmpty

/-- Takes the value of an option, which may be given once. -/
def accept (m : Matches) (o : OptionSpec) (v : String) : Except UsageFault Matches :=
  if (m.value? o.long).isSome then .error .conflict
  else
    match o.kind with
    | .value check =>
      match check v with
      | some fault => .error fault
      | none => .ok { m with values := m.values ++ [(o.long, v)] }
    | _ => .ok m

/-- Looks at the option that was read last. -/
def settle (m : Matches) : Except UsageFault Matches :=
  match m.pending with
  | none => .ok m
  | some (_, none) => .error .wrongValue
  | some (o, some v) => accept { m with pending := none } o v

/-- Does the next argument belong to the option in front of it? -/
def wants (m : Matches) : Option OptionSpec :=
  match m.pending with
  | some (o, none) => some o
  | _ => none

end Matches

/-- An option, perhaps with a value attached. -/
def takeOption (m : Matches) (o : OptionSpec) (attached : Option String) : Except UsageFault Matches :=
  match o.kind, attached with
  | .value _, some v => do (← m.settle).accept o v
  | .value _, none => do .ok { ← m.settle with pending := some (o, none) }
  | _, some _ => .error .surplusValue
  | .flag, none => do
    let m ← m.settle
    if m.has o.long then .error .conflict else .ok { m with flags := m.flags ++ [o.long] }
  | .help, none => do
    let _ ← m.settle
    .error .showHelp
  | .version, none => do
    let _ ← m.settle
    .error .showVersion

/-- An option by its long name, which an equals sign may follow. -/
def takeLong (level : Level) (m : Matches) (text : List Char) : Except UsageFault Matches :=
  let name := String.ofList (text.takeWhile (· ≠ '='))
  let attached := match text.dropWhile (· ≠ '=') with
    | _ :: v => some (String.ofList v)
    | [] => none
  match level.options.find? fun o => o.long == name with
  | some o => takeOption m o attached
  | none => .error .unknownArgument

/-- Options by their short names; a value may follow at once, or behind an equals sign. -/
def takeShort (level : Level) (m : Matches) : List Char → Except UsageFault Matches
  | [] => .ok m
  | c :: cs =>
    match level.options.find? fun o => o.short == some c with
    | none => .error .unknownArgument
    | some o =>
      match o.kind, cs with
      | .value _, [] => takeOption m o none
      | .value _, '=' :: v => takeOption m o (some (String.ofList v))
      | .value _, v => takeOption m o (some (String.ofList v))
      | _, _ => do takeShort level (← takeOption m o none) cs

/-- The fault of a word that has no place. -/
def misplaced (level : Level) (trailing : Bool) (word : String) : UsageFault :=
  if level.commands.isEmpty || (trailing && level.commands.contains word) then .unknownArgument
  else .unknownCommand

def takeWord (level : Level) (trailing : Bool) (m : Matches) (word : String) : Except UsageFault Matches :=
  if level.words = .many || (level.words = .one && m.words.isEmpty) then .ok { m with words := m.words ++ [word] }
  else .error (misplaced level trailing word)

/-- Asking for help on commands, by their names in order. -/
def helpOn (level : Level) : List String → UsageFault
  | [] => .showHelp
  | [name] => if level.commands.contains name then .showHelp else .unknownCommand
  | _ => .unknownCommand

/-- An option or a word. -/
def take (level : Level) (m : Matches) (arg : String) : Except UsageFault Matches :=
  match arg.toList with
  | '-' :: '-' :: text => takeLong level m text
  | '-' :: c :: text => takeShort level m (c :: text)
  | _ =>
    match m.wants with
    | some o => .ok { m with pending := some (o, some arg) }
    | none => takeWord level false m arg

/-- Reads the arguments of a level, up to the name of a command below it. Behind two dashes all are words. -/
def read (level : Level) : (trailing : Bool) → Matches → List String → Except UsageFault Matches
  | _, m, [] => .ok m
  | true, m, arg :: rest => do read level true (← takeWord level true m arg) rest
  | false, m, arg :: rest =>
    if m.wants.isNone && level.commands.contains arg then
      if arg = "help" then .error (helpOn level rest) else .ok { m with command := some (arg, rest) }
    else if arg = "--" then read level true m rest
    else do read level false (← take level m arg) rest

end Arguments
end Pageweave
