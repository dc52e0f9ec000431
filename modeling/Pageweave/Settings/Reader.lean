import Pageweave.Decimal.Layout
import Pageweave.FileTree.Basic
import Pageweave.Settings.Fault
import Pageweave.Text.Quoted
import Pageweave.Toml.Document
/-!
# Reading settings

From a text to settings. The names are looked at in ascending order; the first that is not known, or whose value is not
of the kind that is wanted, is the fault.
-/
namespace Pageweave.Settings

/-- How a value is named when another kind is wanted. -/
def kindOf : Toml → String
  | .string s => "string " ++ Text.visible s
  | .integer n =>
    let digits := "integer `" ++ toString n ++ "`"
    if -Int.pow 2 63 ≤ n && n < Int.pow 2 64 then digits
    else if n < Int.pow 2 127 then digits ++ " as i128"
    else digits ++ " as u128"
  | .float x =>
    let digits := (x.map Decimal.plain.text).getD ""
    let isWhole := !digits.contains '.' && x.any Float.isFinite
    "floating point `" ++ (if isWhole then digits ++ ".0" else digits) ++ "`"
  | .bool b => "boolean `" ++ (if b then "true" else "false") ++ "`"
  | .moment => "map"
  | .array _ _ => "sequence"
  | .table _ _ => "map"

/-- The fault of a value that is not of the wanted kind. -/
def refuse {α : Type} (wanted : String) (span : Span) (v : Toml) : Except SettingsFault α :=
  match v with
  | .float none => .error (.floatTooLarge span)
  | .integer n =>
    if -Int.pow 2 127 ≤ n && n < Int.pow 2 128 then .error (.wrongKind (kindOf v) wanted span)
    else .error (.integerTooLarge span)
  | v => .error (.wrongKind (kindOf v) wanted span)

def textOf (wanted : String) (span : Span) : Toml → Except SettingsFault String
  | .string s => .ok s
  | v => refuse wanted span v

def boolOf (span : Span) : Toml → Except SettingsFault Bool
  | .bool b => .ok b
  | v => refuse "a boolean" span v

/-- A whole number of 64 bits without sign. -/
def wordOf (span : Span) : Toml → Except SettingsFault Nat
  | .integer n =>
    if 0 ≤ n && n < Int.pow 2 64 then .ok n.toNat
    else if -Int.pow 2 63 ≤ n && n < 0 then .error (.wrongValue (kindOf (.integer n)) "u64" span)
    else refuse "u64" span (.integer n)
  | v => refuse "u64" span v

def textsOf (span : Span) : Toml → Except SettingsFault (List String)
  | .array _ items => items.mapM fun item => textOf "a string" item.1 item.2
  | v => refuse "a sequence" span v

/-- Takes over one entry. -/
def set (s : Settings) (e : Toml.Entry) : Except SettingsFault Settings :=
  match e with
  | (name, nameSpan, span, v) =>
    match name with
    | "templates_path" => (textOf "path string" span v).map fun x => { s with templatesPath := x }
    | "extension" => (textOf "a string" span v).map fun x => { s with extension := x }
    | "hot_reload" => (boolOf span v).map fun x => { s with hotReload := x }
    | "debounce_ms" => (wordOf span v).map fun x => { s with debounceMillis := x }
    | "autoescape" => (boolOf span v).map fun x => { s with autoescape := x }
    | "default_layout" => (textOf "a string" span v).map fun x => { s with defaultLayout := some x }
    | "layouts" => (textsOf span v).map fun x => { s with layouts := x }
    | _ => .error (.unknownName name nameSpan)

/-- The settings in a text. -/
def ofText (text : String) : Except SettingsFault Settings :=
  match Toml.read text with
  | .error place => .error (.unreadable place)
  | .ok entries => (entries.mergeSort fun a b => a.1 ≤ b.1).foldlM set {}

/-- Why a settings file gave no settings. -/
inductive LoadFault where
  | file (path : String) (fault : FileFault)
  | text (path source : String) (fault : SettingsFault)

def LoadFault.message : LoadFault → String
  | .file path _ => "Failed to read config file: " ++ path
  | .text path _ _ => "Failed to parse config file: " ++ path

/-- The settings in a file. -/
def load (files : FileTree) (path : String) : Except LoadFault Settings :=
  match files.readText path with
  | .error e => .error (.file path e)
  | .ok source =>
    match ofText source with
    | .ok s => .ok s
    | .error e => .error (.text path source e)

/-- The settings of a project; without a settings file they are the defaults. -/
def discover (files : FileTree) (project : String) : Except LoadFault Settings :=
  let path := Path.join project Names.settingsFile
  if files.isFile path then load files path else .ok {}

end Pageweave.Settings
