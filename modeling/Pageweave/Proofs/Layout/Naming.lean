import Pageweave.Layout
import Pageweave.Proofs.Key.Tearing
/-!
# Templates of layouts

A layout is named by its id: its template is the key of the id below the layouts, where templates have an extension. Only
an id that would be cut inside a character is refused.
-/
namespace Pageweave.Layout

variable {e id : String} {supplier : Option Supplier} {y y' : Layout}

theorem make_eq_ok : make id supplier = .ok y ↔
    ∃ k, Key.named Names.extension (Names.layouts ++ "/" ++ id) = .ok k ∧ y = ⟨id, k, supplier⟩ := by
  rw [make, templateKey]
  cases Key.named Names.extension (Names.layouts ++ "/" ++ id) <;> simp [bind, Except.bind, eq_comm]

theorem forExtension_eq_ok : y.forExtension e = .ok y' ↔
    ∃ k, Key.named e (Names.layouts ++ "/" ++ y.id) = .ok k ∧ y' = { y with template := k } := by
  rw [forExtension, templateKey]
  cases Key.named e (Names.layouts ++ "/" ++ y.id) <;> simp [bind, Except.bind, eq_comm]

theorem forExtension_eq_ok_iff (y : Layout) (extension : String) :
    (∃ y', y.forExtension extension = .ok y') ↔ ¬ Key.IsTorn extension (Names.layouts ++ "/" ++ y.id) := by
  rw [← Key.named_eq_ok_iff]
  constructor
  · rintro ⟨y', made⟩
    obtain ⟨k, named, -⟩ := forExtension_eq_ok.mp made
    exact ⟨k, named⟩
  · rintro ⟨k, named⟩
    exact ⟨_, forExtension_eq_ok.mpr ⟨k, named, rfl⟩⟩

theorem make_eq_ok_iff (id : String) (supplier : Option Supplier) :
    (∃ y, make id supplier = .ok y) ↔ ¬ Key.IsTorn Names.extension (Names.layouts ++ "/" ++ id) := by
  rw [← Key.named_eq_ok_iff]
  constructor
  · rintro ⟨y, made⟩
    obtain ⟨k, named, -⟩ := make_eq_ok.mp made
    exact ⟨k, named⟩
  · rintro ⟨k, named⟩
    exact ⟨_, make_eq_ok.mpr ⟨k, named, rfl⟩⟩

end Pageweave.Layout
