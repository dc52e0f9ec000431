/-!
# Shortest decimals

A finite double is `m * 2 ^ q`. Its shortest decimal is found in exact arithmetic: for one digit, two digits and so on,
the two neighbours of the number on that grid are tested against the interval of reals that round to the double.
The first grid with a neighbour inside the interval wins, and of two neighbours the nearer one.
-/
namespace Pageweave

/-- The number `digits * 10 ^ exponent`. -/
structure Decimal where
  digits : Nat
  exponent : Int
  deriving DecidableEq

namespace Decimal

/-- The magnitude `mantissa * 2 ^ exponent` of a finite double. -/
structure Binary where
  mantissa : Nat
  exponent : Int
  /-- The next smaller double is only half as far away as the next larger one. -/
  lowerIsNearer : Bool

/-- Reads sign and magnitude off the 64 bits; infinities and what is not a number have none. -/
def decode (bits : UInt64) : Bool × Option Binary :=
  let n := bits.toNat
  let negative := n / Nat.pow 2 63 == 1
  let biased : Nat := n / Nat.pow 2 52 % Nat.pow 2 11
  let fraction : Nat := n % Nat.pow 2 52
  let magnitude :=
    if biased == 2047 then none
    else if biased == 0 then some ⟨fraction, -1074, false⟩
    else some ⟨fraction + Nat.pow 2 52, (biased : Int) - 1075, fraction == 0 && biased != 1⟩
  (negative, magnitude)

/-- `2 ^ e` as a numerator and a denominator, and likewise for ten. -/
def power (base : Nat) (e : Int) : Nat × Nat := (Nat.pow base e.toNat, Nat.pow base (-e).toNat)

/-- The least `j` from `start` on with `den ≤ num * 10 ^ j`. -/
def leadingZeros (num den : Nat) : (fuel start : Nat) → Nat
  | 0, start => start
  | fuel + 1, start => if den ≤ num * Nat.pow 10 start then start else leadingZeros num den fuel (start + 1)

/-- The exponent `e` with `10 ^ e ≤ num / den < 10 ^ (e + 1)`. -/
def magnitude (num den : Nat) : Int :=
  if den ≤ num then ((Nat.toDigits 10 (num / den)).length : Int) - 1
  else -(leadingZeros num den 400 1 : Int)

/-- The interval's point on the grid of `10 ^ k` that is nearest to the number, if one lies in the interval. -/
def onGrid (b : Binary) (k : Int) : Option Nat :=
  let (a, d) := power 2 (b.exponent - 2)
  let (t, u) := power 10 k
  let scale := a * u
  let value := 4 * b.mantissa * scale
  let low := (if b.lowerIsNearer then 4 * b.mantissa - 1 else 4 * b.mantissa - 2) * scale
  let high := (4 * b.mantissa + 2) * scale
  let closed := b.mantissa % 2 == 0
  let unit := t * d
  let inside (n : Nat) : Bool :=
    if closed then low ≤ n * unit && n * unit ≤ high else low < n * unit && n * unit < high
  let down := value / unit
  let up := down + 1
  let gapDown := value - down * unit
  let gapUp := up * unit - value
  match inside down && down != 0, inside up with
  | true, true =>
    if gapDown < gapUp then some down
    else if gapUp < gapDown then some up
    else some (if down % 2 == 0 then down else up)
  | true, false => some down
  | false, true => some up
  | false, false => none

/-- Removes the zeros at the end of the digits. -/
def dropZeros : (fuel : Nat) → Decimal → Decimal
  | 0, d => d
  | fuel + 1, d =>
    if d.digits != 0 && d.digits % 10 == 0 then dropZeros fuel ⟨d.digits / 10, d.exponent + 1⟩ else d

/-- Tries `count` digits, then one more, and so on. -/
def search (b : Binary) (top : Int) : (fuel count : Nat) → Decimal
  | 0, _ => ⟨b.mantissa, 0⟩
  | fuel + 1, count =>
    let k := top - count + 1
    match onGrid b k with
    | some n => dropZeros 20 ⟨n, k⟩
    | none => search b top fuel (count + 1)

/-- The shortest decimal inside the rounding interval of a magnitude; zero has no digits. -/
def shortest (b : Binary) : Decimal :=
  if b.mantissa == 0 then ⟨0, 0⟩
  else
    let (a, d) := power 2 b.exponent
    search b (magnitude (b.mantissa * a) d) 18 1

/-- The decimal exponent of the leading digit. -/
def leading (d : Decimal) : Int := d.exponent + (Nat.toDigits 10 d.digits).length - 1

end Decimal
end Pageweave
