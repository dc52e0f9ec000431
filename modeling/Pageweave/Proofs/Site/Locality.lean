import Pageweave.Proofs.Loading.Locality
import Pageweave.Proofs.Loading.Table
import Pageweave.Proofs.Site.Composition
/-!
# A rendered page is made of what is found

Rendering sees texts only where it loads a template. So a page that is there stays the same wherever the keys of names are
found with the same texts; what else there is, and what a listing shows, makes no difference.
-/
namespace Pageweave

namespace Site

variable {s : Site} {l l' : Locator} {id name text : String} {k : Key} {model : Value} {r : Request}
  {cache cache' : PageCache} {page : Compiled}

theorem lookup?_or_load (compiled : s.compiledKey l k cache = (.ok page, cache')) :
    cache.lookup? k = some page ∨ cache.lookup? k = none ∧ s.engine.load l k = .ok page := by
  unfold compiledKey Cache.getOrCompile at compiled
  cases there : cache.lookup? k with
  | some v =>
    simp only [there] at compiled
    exact .inl (congrArg some (Except.ok.inj (congrArg Prod.fst compiled)))
  | none =>
    simp only [there] at compiled
    cases loads : s.engine.load l k with
    | error e =>
      simp only [loads] at compiled
      cases compiled
    | ok v =>
      simp only [loads] at compiled
      rw [Except.ok.inj (congrArg Prod.fst compiled)]
      exact .inr ⟨rfl, rfl⟩

theorem load_of_compiledKey_empty (compiled : s.compiledKey l k {} = (.ok page, cache')) :
    s.engine.load l k = .ok page := by
  rcases lookup?_or_load compiled with there | ⟨-, loaded⟩
  · cases there
  · exact loaded

theorem renderFragment_eq (s : Site) (l : Locator) (name : String) (model : Value) (r : Request) (cache : PageCache) :
    s.renderFragment l name (.value model) r cache =
      match Key.named l.extension name with
      | .error e => (.error e, cache)
      | .ok k =>
        match s.compiledKey l k cache with
        | (.error e, cache) => (.error e, cache)
        | (.ok page, cache) => (s.engine.execute page (Context.mergeValue (Context.ofRequest r) model), cache) := by
  change (s.compiled l name >>= fun page =>
    liftM (s.engine.execute page (Context.mergeValue (Context.ofRequest r) model))) cache = _
  rw [bind_apply]
  unfold compiled Locator.key
  rw [liftM_bind_apply]
  cases Key.named l.extension name with
  | error e => rfl
  | ok k =>
    rcases compiled : s.compiledKey l k cache with ⟨e | page, cache'⟩
    · simp only [compiled]
    · simp only [compiled]
      rfl

theorem exists_load_of_renderFragment (rendered : s.renderFragment l name (.value model) r {} = (.ok text, cache')) :
    ∃ k page, Key.named l.extension name = .ok k ∧ s.engine.load l k = .ok page := by
  rw [renderFragment_eq] at rendered
  cases named : Key.named l.extension name with
  | error e =>
    rw [named] at rendered
    cases rendered
  | ok k =>
    rw [named] at rendered
    rcases compiled : s.compiledKey l k {} with ⟨e | page, cache⟩
    · simp only [compiled] at rendered
      cases rendered
    · exact ⟨k, page, rfl, load_of_compiledKey_empty compiled⟩

theorem renderPage_of_fragment {model : Model} (part : r.wantsFragment = true) :
    s.renderPage l id name model r = s.renderFragment l name model r := by
  funext cache
  unfold renderPage
  rw [composePage_of_fragment part]
  rfl

theorem renderPage_eq_ok_iff (whole : r.wantsFragment = false) :
    s.renderPage l id name (.value model) r cache = (.ok text, cache') ↔
      Succeeds s Asking.plain l id name model r (cache, ()) text (cache', ()) := by
  rw [← composePage_eq_ok_iff whole]
  unfold renderPage
  rcases s.composePage Asking.plain l id name (.value model) r (cache, ()) with ⟨result, after, ⟨⟩⟩
  constructor
  · rintro ⟨⟩
    rfl
  · rintro ⟨⟩
    rfl

theorem exists_renderFragment_of_renderPage
    (rendered : s.renderPage l id name (.value model) r cache = (.ok text, cache')) :
    ∃ content after, s.renderFragment l name (.value model) r cache = (.ok content, after) := by
  cases part : r.wantsFragment with
  | true =>
    rw [renderPage_of_fragment part] at rendered
    exact ⟨text, cache', rendered⟩
  | false =>
    obtain ⟨_, content, after, _, _, _, _, fragment, _⟩ := ((renderPage_eq_ok_iff part).mp rendered).stages
    exact ⟨content, after, fragment⟩

section Elsewhere

variable (same : l'.extension = l.extension)
  (agree : ∀ name q, Key.named l.extension name = .ok q → l'.find q = l.find q)

include same agree

theorem compiledKey_of_find_eq (made : Key.named l.extension name = .ok k)
    (compiled : s.compiledKey l k cache = (.ok page, cache')) : s.compiledKey l' k cache = (.ok page, cache') := by
  rw [← compiled]
  rcases lookup?_or_load compiled with there | ⟨absent, loaded⟩
  · unfold compiledKey Cache.getOrCompile
    simp only [there]
  · unfold compiledKey Cache.getOrCompile
    simp only [absent, loaded, Engine.load_eq_of_find_eq loaded made same agree]

theorem renderFragment_of_find_eq (rendered : s.renderFragment l name (.value model) r cache = (.ok text, cache')) :
    s.renderFragment l' name (.value model) r cache = (.ok text, cache') := by
  rw [renderFragment_eq] at rendered ⊢
  rw [same]
  cases named : Key.named l.extension name with
  | error e =>
    rw [named] at rendered
    cases rendered
  | ok k =>
    rw [named] at rendered
    rcases compiled : s.compiledKey l k cache with ⟨e | page, after⟩
    · simp only [compiled] at rendered
      cases rendered
    · simp only [compiled] at rendered
      simp only [compiledKey_of_find_eq same agree named compiled]
      exact rendered

/-- A page that is there is the same where the keys of names are found with the same texts, if the templates of layouts
have such keys. -/
theorem renderPage_of_find_eq
    (templates : ∀ layout, s.layouts.get? id = some layout → ∃ name, Key.named l.extension name = .ok layout.template)
    (rendered : s.renderPage l id name (.value model) r cache = (.ok text, cache')) :
    s.renderPage l' id name (.value model) r cache = (.ok text, cache') := by
  cases part : r.wantsFragment with
  | true =>
    rw [renderPage_of_fragment part] at rendered ⊢
    exact renderFragment_of_find_eq same agree rendered
  | false =>
    obtain ⟨layout, content, after, data, answered, compiled, known, fragment, supplied, loaded, world, run⟩ :=
      ((renderPage_eq_ok_iff part).mp rendered).stages
    obtain ⟨name', named⟩ := templates layout known
    apply (renderPage_eq_ok_iff part).mpr
    refine ⟨layout, content, after, data, answered, compiled, known, ?_, supplied, ?_, world, run⟩
    · exact renderFragment_of_find_eq same agree fragment
    · exact compiledKey_of_find_eq same agree named loaded

end Elsewhere

end Site
end Pageweave
