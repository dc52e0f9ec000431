import Pageweave.Value.Basic
import Pageweave.Decimal.Layout
/-!
# The text of values

The exchange form of a value: quoted strings, doubles with their shortest digits, objects in key order, without blanks
or with two blanks per level. `shown` is the looser form that puts a value into a sentence or a query.
-/
namespace Pageweave

/-- Doubles keep their point; very small and very large ones have an exponent. -/
def exchangeLayout : Decimal.Layout := ⟨fun e => -5 ≤ e && e < 16, true, true, "null", "null"⟩

def Number.text : Number → String
  | .int n => toString n
  | .float x => exchangeLayout.text x

/-- Digits without an exponent, and no point behind whole doubles. -/
def Number.plainText : Number → String
  | .int n => toString n
  | .float x => Decimal.plain.text x

namespace Value

private def hexDigit (n : Nat) : Char := (Nat.digitChar n)

/-- A character inside quotes. -/
def quotedChar (c : Char) : List Char :=
  if c = '"' then ['\\', '"']
  else if c = '\\' then ['\\', '\\']
  else if c = '\n' then ['\\', 'n']
  else if c = '\r' then ['\\', 'r']
  else if c = '\t' then ['\\', 't']
  else if c = '\x08' then ['\\', 'b']
  else if c = '\x0c' then ['\\', 'f']
  else if c.toNat < 32 then ['\\', 'u', '0', '0', hexDigit (c.toNat / 16), hexDigit (c.toNat % 16)]
  else [c]

def quoted (s : String) : String := "\"" ++ String.ofList (s.toList.flatMap quotedChar) ++ "\""

mutual
/-- The form without blanks. -/
def text : Value → String
  | .null => "null"
  | .bool b => if b then "true" else "false"
  | .number n => n.text
  | .string s => quoted s
  | .array items => "[" ++ itemsText items ++ "]"
  | .object fields => "\x7b" ++ fieldsText fields ++ "\x7d"

def itemsText : List Value → String
  | [] => ""
  | [v] => text v
  | v :: w :: rest => text v ++ "," ++ itemsText (w :: rest)

def fieldsText : List (String × Value) → String
  | [] => ""
  | [(k, v)] => quoted k ++ ":" ++ text v
  | (k, v) :: f :: rest => quoted k ++ ":" ++ text v ++ "," ++ fieldsText (f :: rest)
end

private def indent (level : Nat) : String := "\n" ++ String.ofList (List.replicate (2 * level) ' ')

mutual
/-- The form with one item on a line, the values at `level` two blanks further in than those around them. -/
def prettyAt (level : Nat) : Value → String
  | .array (v :: rest) => "[" ++ prettyItems (level + 1) (v :: rest) ++ indent level ++ "]"
  | .object (f :: rest) => "\x7b" ++ prettyFields (level + 1) (f :: rest) ++ indent level ++ "\x7d"
  | v => text v

def prettyItems (level : Nat) : List Value → String
  | [] => ""
  | [v] => indent level ++ prettyAt level v
  | v :: w :: rest => indent level ++ prettyAt level v ++ "," ++ prettyItems level (w :: rest)

def prettyFields (level : Nat) : List (String × Value) → String
  | [] => ""
  | [(k, v)] => indent level ++ quoted k ++ ": " ++ prettyAt level v
  | (k, v) :: f :: rest =>
    indent level ++ quoted k ++ ": " ++ prettyAt level v ++ "," ++ prettyFields level (f :: rest)
end

def pretty (v : Value) : String := prettyAt 0 v

/-- Strings without quotes, null as nothing, everything else in its exchange form. -/
def shown : Value → String
  | .string s => s
  | .null => ""
  | v => text v

@[simp] theorem shown_string (s : String) : (Value.string s).shown = s := rfl

end Value
end Pageweave
