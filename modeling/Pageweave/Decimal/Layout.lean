import Pageweave.Decimal.Shortest
/-!
# Writing decimals

A `Layout` says when a number is written without an exponent, whether whole numbers keep a zero behind the point,
and how exponents and the special values look. Fixed places are rounded in exact arithmetic, ties to the even digit.
-/
namespace Pageweave.Decimal

/-- How a double is written. -/
structure Layout where
  /-- The exponents of the leading digit that are written without an exponent part. -/
  positional : Int → Bool
  /-- Whole numbers end in a point and a zero. -/
  keepsPoint : Bool
  /-- Positive exponents have a plus. -/
  keepsPlus : Bool
  notANumber : String
  infinity : String

private def zeros (n : Nat) : String := String.ofList (List.replicate n '0')

/-- Digits with the point where the exponent puts it. -/
def positionalText (keepsPoint : Bool) (d : Decimal) : String :=
  let ds := Nat.toDigits 10 d.digits
  if 0 ≤ d.exponent then
    String.ofList ds ++ zeros d.exponent.toNat ++ (if keepsPoint then ".0" else "")
  else
    let places := (-d.exponent).toNat
    if places < ds.length then
      String.ofList (ds.take (ds.length - places)) ++ "." ++ String.ofList (ds.drop (ds.length - places))
    else "0." ++ zeros (places - ds.length) ++ String.ofList ds

/-- One digit, the other digits behind a point, and the signed exponent. -/
def scientificText (keepsPlus : Bool) (d : Decimal) : String :=
  let ds := Nat.toDigits 10 d.digits
  let e := d.leading
  let body := match ds with
    | [] => "0"
    | [c] => String.ofList [c]
    | c :: rest => String.ofList (c :: '.' :: rest)
  body ++ "e" ++ (if e < 0 then "-" else if keepsPlus then "+" else "") ++ toString e.natAbs

/-- The text of a double under a layout. -/
def Layout.text (layout : Layout) (x : Float) : String :=
  match decode x.toBits with
  | (negative, some b) =>
    let d := shortest b
    let sign := if negative then "-" else ""
    sign ++
      (if layout.positional d.leading then positionalText layout.keepsPoint d
        else scientificText layout.keepsPlus d)
  | (negative, none) =>
    if x.isNaN then layout.notANumber
    else (if negative then "-" else "") ++ layout.infinity

/-- Plain digits at every size, and no point behind whole numbers. -/
def plain : Layout := ⟨fun _ => true, false, false, "NaN", "inf"⟩

/-- `num / den` rounded to the nearest whole number, ties to the even one. -/
def roundRatio (num den : Nat) : Nat :=
  let q := num / den
  let r := num % den
  if 2 * r < den then q
  else if den < 2 * r then q + 1
  else if q % 2 == 0 then q else q + 1

/-- A double with a fixed number of places behind the point. -/
def fixed (places : Nat) (x : Float) : String :=
  match decode x.toBits with
  | (negative, some b) =>
    let (a, d) := power 2 b.exponent
    let n := roundRatio (b.mantissa * a * Nat.pow 10 places) d
    let whole := toString (n / Nat.pow 10 places)
    let rest := toString (n % Nat.pow 10 places)
    (if negative then "-" else "") ++ whole ++
      (if places == 0 then "" else "." ++ zeros (places - rest.length) ++ rest)
  | _ => plain.text x

end Pageweave.Decimal
