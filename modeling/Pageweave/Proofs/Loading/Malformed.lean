import Pageweave.Proofs.Key.Tearing
import Pageweave.Proofs.Layout.Naming
import Pageweave.Proofs.Loading.Failing
import Pageweave.Proofs.Loading.Lookups
/-!
# Names without a key

Wherever a name is made into a key, only a name that would be cut inside a character is refused. A load comes upon such
a name only where its page, or a text that it reaches, refers to one.
-/
namespace Pageweave

theorem Locator.key_eq_ok_iff (l : Locator) (name : String) :
    (∃ q, l.key name = .ok q) ↔ ¬ Key.IsTorn l.extension name := Key.named_eq_ok_iff

namespace Loading

variable {l : Locator} {k : Key} {s : Loading} {w : Worklist} {t : Trying} {name : String} {rest : List String}

private theorem tryName_malformed (fails : w.tryName l t name rest = .done (.error .malformedName)) :
    (w.seen? name = none ∧ Key.IsTorn l.extension name) ∨ ∃ q, l.find q = .error .malformedName := by
  unfold Worklist.tryName at fails
  split at fails
  · cases fails
  · rename_i new
    split at fails
    · rename_i e key
      cases fails
      exact .inl ⟨new, Key.named_eq_error_iff.mp key⟩
    · rename_i q key
      split at fails
      · rename_i e finds
        cases fails
        exact .inr ⟨q, finds⟩
      · cases fails
      · cases fails

private theorem conclude_ne_malformed (tabled : w.Tabled l k) (sound : w.Sound l.extension)
    (trying : w.trying = some t) (names : t.rest = []) : w.conclude l t ≠ .done (.error .malformedName) := by
  by_cases fine : (t.resolved || t.reference.ignoreMissing) = true
  · simp [Worklist.conclude, fine]
  · cases reference : t.reference.names with
    | nil => simp [Worklist.conclude, fine, reference]
    | cons first more =>
      obtain ⟨q, -, concludes⟩ := tabled.conclude_eq sound trying names (by simpa using fine) reference
      rw [concludes]
      intro failed
      cases failed

/-- A name without a key that a step meets stands in a text that the page reaches, unless a store refuses a key. -/
theorem step_malformed (before : s.OnTable l k) (sound : s.Sound l.extension) (goes_on : ∀ r, s ≠ .done r)
    (fails : s.step l = .done (.error .malformedName)) : (∃ q, l.find q = .error .malformedName) ∨
      ∃ x name, l.find k = .ok (some x) ∧ Reaches l k x.text name ∧ name ≠ k.name ∧ Key.IsTorn l.extension name := by
  cases s with
  | done r => exact absurd rfl (goes_on r)
  | opening q =>
    left
    refine ⟨q, ?_⟩
    cases finds : l.find q with
    | error e =>
      simp only [step, Locator.resolve, finds] at fails
      cases fails
      rfl
    | ok there => cases there <;> simp [step, Locator.resolve, finds] at fails
  | reading w =>
    obtain ⟨x, found, frontier, tabled⟩ := before
    change w.step l = .done (.error .malformedName) at fails
    unfold Worklist.step at fails
    split at fails
    · rename_i t trying
      split at fails
      · rename_i name rest names
        rcases tryName_malformed fails with ⟨new, torn⟩ | refused
        · right
          have reached := frontier.pending name (.inl ⟨t, trying, by simp [names]⟩)
          refine ⟨x, name, found, reached, ?_, torn⟩
          rintro rfl
          rw [tabled.own] at new
          cases new
        · exact .inl refused
      · rename_i names
        -- what is reported at the end of a reference has a key, since it was looked up before
        exact absurd fails (conclude_ne_malformed tabled sound trying names)
    · split at fails
      · cases fails
      · cases fails

end Loading

namespace Engine

variable {e : Engine} {l : Locator} {k : Key} {c : Compiled}

theorem load_malformed (failed : e.load l k = .error .malformedName) : (∃ q, l.find q = .error .malformedName) ∨
    ∃ x name, l.find k = .ok (some x) ∧ Reaches l k x.text name ∧ name ≠ k.name ∧ Key.IsTorn l.extension name := by
  rcases load_error_cases failed with gathered | ⟨is_parse, -⟩
  · obtain ⟨fuel, ends⟩ := run_of_gather gathered
    obtain ⟨s, ⟨tabled, sound⟩, goes_on, fails⟩ := Loading.run_error_cases
      (P := fun s => s.OnTable l k ∧ s.Sound l.extension) (s := .opening k)
      (fun _ _ _ progress known => ⟨progress.onTable known.1, progress.sound known.2⟩) ⟨rfl, trivial⟩ nofun ends
    exact Loading.step_malformed tabled sound goes_on fails
  · cases is_parse

theorem not_isTorn_of_load (loaded : e.load l k = .ok c) : ∃ x, l.find k = .ok (some x) ∧
    ∀ name, Reaches l k x.text name → name ≠ k.name → ¬ Key.IsTorn l.extension name := by
  obtain ⟨p, gathered, -⟩ := gather_of_load loaded
  obtain ⟨fuel, ends⟩ := run_of_gather gathered
  obtain ⟨x, found, closed⟩ : Loading.OnFrontier l k (.done (.ok p)) :=
    Loading.run_ok_induction (s := .opening k) (fun _ _ _ progress => progress.onFrontier) rfl ends
  exact ⟨x, found, fun name reached other => (l.key_eq_ok_iff name).mp (closed.named name reached other)⟩

/-- A name has a key unless it is torn, which needs a character of more than one byte. So a key is refused, by the
locator or for a layout, just if its name is torn; never for a file that carries the extension, if this is not empty and
has no slashes; and in a load only if its page reaches a torn name. -/
theorem refused_iff_torn (e : Engine) (l : Locator) :
    (∀ extension name, (∃ k, Key.ofName? extension name = some k) ↔ ¬ Key.IsTorn extension name) ∧
      (∀ extension name, Key.IsTorn extension name → ∃ c ∈ name.toList, 1 < c.utf8Size) ∧
      (∀ name, (∃ k, l.key name = .ok k) ↔ ¬ Key.IsTorn l.extension name) ∧
      (∀ id supplier, (∃ y, Layout.make id supplier = .ok y) ↔
        ¬ Key.IsTorn Names.extension (Names.layouts ++ "/" ++ id)) ∧
      (∀ extension y, (∃ y', Layout.forExtension y extension = .ok y') ↔
        ¬ Key.IsTorn extension (Names.layouts ++ "/" ++ y.id)) ∧
      (∀ extension ps, extension ≠ "" → (∀ c ∈ extension.toList, c ≠ '/' ∧ c ≠ '\\') →
        Key.ofParts extension ps ≠ .malformed) ∧
      (∀ k, e.load l k = .error .malformedName → (∃ q, l.find q = .error .malformedName) ∨
        ∃ x name, l.find k = .ok (some x) ∧ Reaches l k x.text name ∧ name ≠ k.name ∧ Key.IsTorn l.extension name) ∧
      ∀ k c, e.load l k = .ok c → ∃ x, l.find k = .ok (some x) ∧
        ∀ name, Reaches l k x.text name → name ≠ k.name → ¬ Key.IsTorn l.extension name := by
  refine ⟨fun extension name => ?_, fun _ _ torn => torn.exists_wide, l.key_eq_ok_iff, Layout.make_eq_ok_iff,
    fun extension y => y.forExtension_eq_ok_iff extension, fun _ ps some_char plain => ?_, fun _ => load_malformed,
    fun _ _ => not_isTorn_of_load⟩
  · rw [← Key.ofName?_eq_none_iff, ← Option.isSome_iff_exists, Option.isSome_iff_ne_none]
  · exact Key.ofParts_ne_malformed some_char plain ps

/-- A page that may go without a name that is torn. -/
def torn : Locator where
  stores := [.memory "texts" [(⟨"page"⟩, "\x7b% include 'éhtml' ignore missing %\x7d")]]
  extension := "html"

theorem torn_refused_iff_torn :
    (∃ c ∈ "éhtml".toList, 1 < c.utf8Size) ∧ Key.ofParts "html" [.name "é.html".toList] ≠ .malformed ∧
      (∃ x name, torn.find ⟨"page"⟩ = .ok (some x) ∧ Reaches torn ⟨"page"⟩ x.text name ∧ name ≠ "page" ∧
        Key.IsTorn "html" name) ∧
      ∃ x, ring.find ⟨"a"⟩ = .ok (some x) ∧
        ∀ name, Reaches ring ⟨"a"⟩ x.text name → name ≠ "a" → ¬ Key.IsTorn "html" name := by
  obtain ⟨-, wide, -, -, -, files, malformed, -⟩ := refused_iff_torn {} torn
  obtain ⟨-, -, -, -, -, -, -, loads⟩ := refused_iff_torn {} ring
  have failed : gather torn ⟨"page"⟩ = .error .malformedName := by
    decide +kernel
  have some_page : (load {} ring ⟨"a"⟩).toOption.map (fun _ => ()) = some () := by
    decide +kernel
  obtain ⟨c, loaded, -⟩ := load_of_toOption_map some_page
  have plain : ∀ c ∈ ['h', 't', 'm', 'l'], c ≠ '/' ∧ c ≠ '\\' := by simp
  refine ⟨wide "html" "éhtml" (by decide +kernel), files "html" _ (by decide) plain, ?_, loads ⟨"a"⟩ c loaded⟩
  refine (malformed ⟨"page"⟩ (load_of_gather_error failed)).resolve_left ?_
  rintro ⟨q, refused⟩
  have reads : ∀ s ∈ torn.stores, ∃ text?, s.read q = .ok text? := by
    intro s listed
    obtain rfl := List.mem_singleton.mp listed
    exact ⟨_, rfl⟩
  obtain ⟨found, finds⟩ := Locator.exists_findIn reads
  rw [Locator.find, finds] at refused
  cases refused

/-- A name without a dot may be cut inside a character; then it has no key, and no page that refers to it is loaded. -/
theorem torn_name_refused : Key.ofName? "html" "éhtml" = none ∧ load {} torn ⟨"page"⟩ = .error .malformedName :=
  ⟨by decide +kernel, load_of_gather_error (by decide +kernel)⟩

end Engine
end Pageweave
