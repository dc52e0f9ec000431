import Pageweave.Template.Node
import Pageweave.Text.Blank
/-!
# Blanks around tags

A minus inside a tag's delimiters removes the blanks of the neighbouring text. The neighbours are those of one body:
what stands before and after a tag, and, for tags with a body, the two ends of the body.
-/
namespace Pageweave.Template

/-- Which sides of a tag remove blanks. -/
structure Trim where
  left : Bool := false
  right : Bool := false
  deriving DecidableEq

/-- A node with what it does to the text before it (`none`: it does not even end a run of text) and after it. -/
structure Piece where
  node : Node
  before : Bool := false
  after : Option Bool := none

namespace Piece

/-- A node made by one tag. -/
def ofTag (t : Trim) (n : Node) : Piece := ⟨n, t.left, some t.right⟩

/-- A node between two tags. -/
def between (first last : Trim) (n : Node) : Piece := ⟨n, first.left, some last.right⟩

end Piece

/-- Removes the blanks at the end of the last node, if it is text; `nodes` has the last one first. -/
def trimLast : List Node → List Node
  | .text s :: rest =>
    let kept := String.ofList (Text.trimRight s.toList)
    if kept = "" then rest else .text kept :: rest
  | nodes => nodes

/-- Works through a body. `trimNext` tells that the next text loses its blanks in front, `afterText` that the piece
before was text; the nodes so far have the last one first. -/
def tidyFrom (trimNext afterText : Bool) (done : List Node) : List Piece → List Node
  | [] => done
  | ⟨.text s, _, _⟩ :: rest =>
    if trimNext then
      let kept := String.ofList (Text.trimLeft s.toList)
      tidyFrom false true (if kept = "" then done else .text kept :: done) rest
    else tidyFrom false true (.text s :: done) rest
  | p :: rest =>
    let done := if afterText && p.before then trimLast done else done
    tidyFrom (p.after.getD trimNext) false (p.node :: done) rest

/-- The nodes of a body between a tag that removes blanks behind it and one that removes blanks before it. -/
def tidy (trimFirst trimEnd : Bool) (pieces : List Piece) : List Node :=
  let done := tidyFrom trimFirst false [] pieces
  (if trimEnd then trimLast done else done).reverse

/-- The body of a whole template. -/
def tidyAll (pieces : List Piece) : List Node := tidy false false pieces

end Pageweave.Template
