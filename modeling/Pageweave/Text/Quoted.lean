import Pageweave.Text.Blank
/-!
# Quoted texts

A text between quotes with everything visible: quotes, backslashes and the usual controls as escapes, other characters
without a shape of their own by their number.
-/
namespace Pageweave.Text

/-- Format characters and private ones, by ranges. -/
def hiddenRanges : List (Nat × Nat) :=
  [(0x7F, 0x9F), (0xAD, 0xAD), (0x600, 0x605), (0x61C, 0x61C), (0x6DD, 0x6DD), (0x70F, 0x70F), (0x890, 0x891),
    (0x8E2, 0x8E2), (0x180E, 0x180E), (0x200B, 0x200F), (0x202A, 0x202E), (0x2060, 0x206F), (0xE000, 0xF8FF),
    (0xFEFF, 0xFEFF), (0xFFF0, 0xFFFB), (0xFFFE, 0xFFFF), (0x110BD, 0x110BD), (0x110CD, 0x110CD),
    (0x13430, 0x1343F), (0x1BCA0, 0x1BCA3), (0x1D173, 0x1D17A), (0xE0000, 0xE00FF), (0xE01F0, 0x10FFFF)]

/-- Has a character no shape of its own? A plain space counts as visible. -/
def isHidden (c : Char) : Bool :=
  c.toNat < 32 || (isBlank c && c ≠ ' ') || hiddenRanges.any fun r => r.1 ≤ c.toNat && c.toNat ≤ r.2

def visibleChar (c : Char) : List Char :=
  if c = '"' then ['\\', '"']
  else if c = '\\' then ['\\', '\\']
  else if c = '\n' then ['\\', 'n']
  else if c = '\r' then ['\\', 'r']
  else if c = '\t' then ['\\', 't']
  else if c.toNat = 0 then ['\\', '0']
  else if isHidden c then "\\u\x7b".toList ++ Nat.toDigits 16 c.toNat ++ ['\x7d']
  else [c]

def visible (s : String) : String := "\"" ++ String.ofList (s.toList.flatMap visibleChar) ++ "\""

end Pageweave.Text
