/-!
# Edit distance

The number of single-character insertions, deletions and substitutions that turn one text into another,
computed row by row: `row` holds the distances from the prefixes of one text to a prefix of the other.
-/
namespace Pageweave.Text

/-- The next row of the table for the character `c`, walking `old` from `left`, the entry just written. -/
def editRow (c : Char) : (text : List Char) → (diagonal left : Nat) → (above : List Nat) → List Nat
  | t :: ts, diagonal, left, up :: above =>
    let here := min (min (left + 1) (up + 1)) (if t = c then diagonal else diagonal + 1)
    here :: editRow c ts up here above
  | _, _, _, _ => []

/-- One row of the table after another, for every character of the first text. -/
def editRows (text : List Char) : List Char → List Nat → List Nat
  | [], row => row
  | c :: cs, row =>
    match row with
    | [] => []
    | first :: above => editRows text cs ((first + 1) :: editRow c text first (first + 1) above)

/-- The least number of edits between two texts. -/
def editDistance (a b : List Char) : Nat :=
  (editRows b a (List.range (b.length + 1))).getLast?.getD 0

end Pageweave.Text
