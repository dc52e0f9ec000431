/-!
# Query texts

Pairs behind the `?` of an address. In a pair a blank is a plus, ASCII letters, digits and `* - . _` stand for
themselves, and every other byte of the UTF-8 form is a percent sign with two hexadecimal digits. `decode` undoes it.
-/
namespace Pageweave.Query

/-- Bytes that stand for themselves. -/
def isKept (b : UInt8) : Bool :=
  let n := b.toNat
  (48 ≤ n && n ≤ 57) || (65 ≤ n && n ≤ 90) || (97 ≤ n && n ≤ 122) ||
    n == 42 || n == 45 || n == 46 || n == 95

def hexDigit (n : Nat) : Char := Char.ofNat (if n < 10 then 48 + n else 55 + n)

def encodeByte (b : UInt8) : List Char :=
  if isKept b then [Char.ofNat b.toNat]
  else if b.toNat == 32 then ['+']
  else ['%', hexDigit (b.toNat / 16), hexDigit (b.toNat % 16)]

def bytes (s : List Char) : List UInt8 := s.flatMap String.utf8EncodeChar

def encode (s : List Char) : List Char := (bytes s).flatMap encodeByte

def hexValue? (c : Char) : Option Nat :=
  let n := c.toNat
  if 48 ≤ n && n ≤ 57 then some (n - 48)
  else if 65 ≤ n && n ≤ 70 then some (n - 55)
  else if 97 ≤ n && n ≤ 102 then some (n - 87)
  else none

/-- The bytes of an encoded text; a percent sign without two digits stands for itself. -/
def decode : List Char → List UInt8
  | [] => []
  | '+' :: cs => 32 :: decode cs
  | '%' :: a :: b :: cs =>
    match hexValue? a, hexValue? b with
    | some x, some y => UInt8.ofNat (16 * x + y) :: decode cs
    | _, _ => 37 :: decode (a :: b :: cs)
  | c :: cs => String.utf8EncodeChar c ++ decode cs

/-- The sign between an address and one more pair. -/
def separator (address : List Char) : Char := if '?' ∈ address then '&' else '?'

/-- Puts a pair at the end of an address. -/
def append (address key value : String) : String :=
  String.ofList (address.toList ++ separator address.toList :: (encode key.toList ++ '=' :: encode value.toList))

end Pageweave.Query
