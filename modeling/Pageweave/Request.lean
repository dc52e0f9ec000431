import Pageweave.Htmx
import Pageweave.Names
/-!
# Requests and contexts

What is known of the request being answered, and the map of values that one run of a template sees. Ambient values come
first, then the request's own values, then the model; later entries win.
-/
namespace Pageweave

structure Request where
  path : String := ""
  htmx : Htmx := {}
  token : Option String := none
  values : Fields := []

/-- A model, or the reason why there are no values for it. -/
inductive Model where
  | value (value : Value)
  | failing (text : String)

/-- The values that a run sees. -/
abbrev Context := Fields

namespace Request

/-- A request of which the path and the headers are known. -/
def ofHeaders (path : String) (headers : List (String × String)) : Request := { path, htmx := Htmx.ofHeaders headers }

/-- Is only a part of a page wanted? -/
def wantsFragment (r : Request) : Bool := r.htmx.request

/-- The path, or `/` where there is none. -/
def shownPath (r : Request) : String := if r.path = "" then "/" else r.path

end Request

namespace Context

/-- The ambient values of a request and, over them, its own. -/
def ofRequest (r : Request) : Context :=
  let c := Fields.insert Names.requestPathKey (.string r.shownPath) []
  let c := Fields.insert Names.htmxKey r.htmx.toValue c
  let c := match r.token with
    | some t => Fields.insert Names.tokenKey (.string t) c
    | none => c
  Fields.merge c r.values

/-- An object's fields come in as they are, null adds nothing, any other value goes under its own key. -/
def mergeValue (c : Context) : Value → Context
  | .object fields => Fields.merge c fields
  | .null => c
  | v => Fields.insert Names.modelKey v c

end Context

/-- Digits at the front, as a number of 64 bits, and what follows. -/
def Model.leadingNumber? (cs : List Char) : Option (Nat × List Char) :=
  let ds := cs.takeWhile Char.isDigit
  let n := ds.foldl (fun n c => n * 10 + (c.toNat - 48)) 0
  if ds.isEmpty || Nat.pow 2 64 ≤ n then none else some (n, cs.dropWhile Char.isDigit)

/-- Splits at the last occurrence of `mark`. -/
def Model.cutAtLast? (mark cs : List Char) : Option (List Char × List Char) :=
  (Text.cutAt? mark.reverse cs.reverse).map fun (back, front) => (front.reverse, back.reverse)

/-- A reason that ends in ` at line L column C` carries that place; line 0 means no place. -/
def Model.reason (text : String) : String :=
  match Model.cutAtLast? " at line ".toList text.toList with
  | none => text
  | some (front, back) =>
    match Model.leadingNumber? back with
    | none => text
    | some (line, rest) =>
      match Text.after? " column ".toList rest with
      | none => text
      | some rest =>
        match Model.leadingNumber? rest with
        | some (column, []) =>
          if line = 0 then String.ofList front
          else String.ofList front ++ " at line " ++ toString line ++ " column " ++ toString column
        | _ => text

end Pageweave
