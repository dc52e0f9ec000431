import Pageweave.Error
import Pageweave.Request
/-!
# Layouts

A layout is a template around a page, with a supplier of further values if it has one. The registry holds layouts in
ascending order of their ids; ids are not blank and differ from each other.
-/
namespace Pageweave

/-- A failed supply: its message and what caused it. -/
structure SupplyFault where
  message : String
  causes : List String := []

/-- Values for the layout of one page. -/
abbrev Supplier := Request → Except SupplyFault Fields

structure Layout where
  id : String
  template : Key
  supplier : Option Supplier := none

namespace Layout

def templateKey (extension id : String) : Except PageError Key :=
  Key.named extension (Names.layouts ++ "/" ++ id)

/-- A layout whose template has the usual extension. -/
def make (id : String) (supplier : Option Supplier) : Except PageError Layout := do
  let key ← templateKey Names.extension id
  .ok ⟨id, key, supplier⟩

/-- The same layout where templates have another extension. -/
def forExtension (l : Layout) (extension : String) : Except PageError Layout := do
  let key ← templateKey extension l.id
  .ok { l with template := key }

end Layout

structure LayoutRegistry where
  layouts : List Layout := []

namespace LayoutRegistry

def get? (r : LayoutRegistry) (id : String) : Option Layout := r.layouts.find? fun l => l.id == id

def contains (r : LayoutRegistry) (id : String) : Bool := r.layouts.any fun l => l.id == id

/-- The ids in ascending order. -/
def ids (r : LayoutRegistry) : List String := r.layouts.map Layout.id

def size (r : LayoutRegistry) : Nat := r.layouts.length

def place (l : Layout) : List Layout → List Layout
  | [] => [l]
  | m :: ms => if l.id < m.id then l :: m :: ms else m :: place l ms

/-- Adds a layout whose id is neither blank nor taken. -/
def register (r : LayoutRegistry) (l : Layout) : Except PageError LayoutRegistry :=
  if Text.trim l.id = "" then .error (.setup .blankLayout)
  else if r.contains l.id then .error (.setup (.layoutTwice l.id))
  else .ok ⟨place l r.layouts⟩

end LayoutRegistry
end Pageweave
