import Pageweave.Proofs.Key.Normal
import Pageweave.Setup
/-!
# Extensions that a setup accepts

Any extension that is not empty, once the dots in front are gone. Nothing keeps it from holding a dot or a slash further
behind.
-/
namespace Pageweave.Setup

variable {e : String}

/-- Does some valid setup have this extension? -/
def Accepts (extension : String) : Prop :=
  ∃ s given registry, (withExtension s given).extension = extension ∧ (s.withExtension given).registry = .ok registry

theorem toList_extension (s : Setup) (given : String) :
    (s.withExtension given).extension.toList = given.toList.dropWhile (· = '.') := by
  simp [withExtension]

theorem ne_empty_of_registry {s : Setup} {registry : LayoutRegistry} (valid : s.registry = .ok registry) :
    s.extension ≠ "" := by
  intro empty
  simp [Setup.registry, empty] at valid
  cases valid

private theorem named_layout (e : String) : ∃ k, Key.named e "layouts/page" = .ok k := by
  have flat : Key.flat "layouts/page".toList = "layouts/page".toList := by decide
  have cut : ∃ stem, Key.stem? e.toList "layouts/page".toList = some stem := by
    simp only [Key.stem?]
    split
    · exact ⟨_, rfl⟩
    · rename_i long
      have inside : ∀ n ≤ 12, (Text.splitAtByte "layouts/page".toList n).isSome = true := by decide
      have size : Text.byteSize "layouts/page".toList = 12 := by decide
      obtain ⟨pair, found⟩ := Option.isSome_iff_exists.mp (inside (12 - (Text.byteSize e.toList + 1)) (by omega))
      rw [size, found]
      exact ⟨_, rfl⟩
  obtain ⟨stem, cut⟩ := cut
  refine ⟨⟨String.ofList stem⟩, ?_⟩
  rw [Key.named, Key.ofName?, flat, cut]
  rfl

theorem accepts_iff : Accepts e ↔ e ≠ "" ∧ e.toList.head? ≠ some '.' := by
  constructor
  · rintro ⟨s, given, registry, rfl, valid⟩
    refine ⟨ne_empty_of_registry valid, ?_⟩
    rw [toList_extension]
    intro dot
    simpa [dot] using List.head?_dropWhile_not (fun c : Char => decide (c = '.')) given.toList
  · rintro ⟨some_char, no_dot⟩
    obtain ⟨k, named⟩ := named_layout e
    have same : e.toList.dropWhile (· = '.') = e.toList := by
      cases cs : e.toList with
      | nil => rfl
      | cons c cs' =>
        have other : c ≠ '.' := by
          rintro rfl
          simp [cs] at no_dot
        simp [other]
    let s : Setup := { layouts := [⟨"page", ⟨""⟩, none⟩] }
    have extension_eq : (s.withExtension e).extension = e := by
      rw [← String.toList_inj, toList_extension, same]
    have template : (Layout.mk "page" ⟨""⟩ none).forExtension e = .ok ⟨"page", k, none⟩ := by
      have path : Names.layouts ++ "/" ++ "page" = "layouts/page" := by decide
      simp only [Layout.forExtension, Layout.templateKey, path, named]
      rfl
    have registered : LayoutRegistry.register {} ⟨"page", k, none⟩ = .ok ⟨[⟨"page", k, none⟩]⟩ := by
      have visible : Text.trim "page" ≠ "" := by decide
      rw [LayoutRegistry.register, if_neg visible]
      rfl
    refine ⟨s, e, ⟨[⟨"page", k, none⟩]⟩, extension_eq, ?_⟩
    have layouts_eq : (s.withExtension e).layouts = [⟨"page", ⟨""⟩, none⟩] := rfl
    have default_eq : (s.withExtension e).defaultLayout = none := rfl
    rw [registry, extension_eq, if_neg some_char, layouts_eq, default_eq, List.foldlM_cons, template]
    simp [bind, Except.bind, registered, pure, Except.pure]

end Pageweave.Setup
