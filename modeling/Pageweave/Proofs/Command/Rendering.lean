import Pageweave.Proofs.Setup.Validation
import Pageweave.Proofs.Site.Locality
/-!
# What a render command shows

A render command that does not fail shows a page of the site that is set up, within the layout that is asked for or else
the default one. Its template is found, and what is shown depends on files only through the model and through what is
found for the keys of names.
-/
namespace Pageweave.Workplace

variable {w : Workplace} {s : Setup} {site : Site} {files files' : FileTree} {o : RenderOptions} {model : Value}

/-- The page that is asked for: within the layout of the options, or else in the default one. -/
def page (site : Site) (l : Locator) (o : RenderOptions) (model : Value) : Rendering String :=
  match o.layout with
  | some id => site.renderPage l id o.template (.value model) (requestOf o)
  | none => site.render l o.template (.value model) (requestOf o)

theorem page_eq (site : Site) (l : Locator) (o : RenderOptions) (model : Value) :
    page site l o model =
      match o.layout.or site.defaultLayout with
      | some id => site.renderPage l id o.template (.value model) (requestOf o)
      | none => throw (.setup .noDefaultLayout) := by
  unfold page Site.render
  cases o.layout with
  | some id => rfl
  | none => cases site.defaultLayout <;> rfl

theorem render_eq (read : readModel files o.model = .ok model) (set : w.setup = .ok s) (built : s.site = .ok site) :
    w.render files o =
      match (page site (s.stack.locator files) o model {}).1 with
      | .ok text => { output := text ++ "\n" }
      | .error e => w.unrendered files (s.stack.locator files) o e := by
  unfold render
  simp only [read, set, built, bind, Except.bind]
  rfl

theorem failure_unrendered (w : Workplace) (files : FileTree) (l : Locator) (o : RenderOptions) (e : PageError) :
    (w.unrendered files l o e).failure ≠ none := by
  unfold unrendered
  split
  · split <;> simp [Outcome.failed]
  · simp

theorem exists_page_of_render (set : w.setup = .ok s) (shown : (w.render files o).failure = none) :
    ∃ model site text cache, readModel files o.model = .ok model ∧ s.site = .ok site ∧
      page site (s.stack.locator files) o model {} = (.ok text, cache) := by
  cases read : readModel files o.model with
  | error f => simp [render, read, Outcome.failed] at shown
  | ok model =>
    cases built : s.site with
    | error e => simp [render, read, set, built, bind, Except.bind, Outcome.failed] at shown
    | ok site =>
      rw [render_eq read set built] at shown
      rcases paged : page site (s.stack.locator files) o model {} with ⟨e | text, cache⟩
      · rw [paged] at shown
        exact absurd shown (failure_unrendered w files _ o e)
      · exact ⟨model, site, text, cache, rfl, rfl, paged⟩

theorem extension_ne_empty_of_render (set : w.setup = .ok s) (shown : (w.render files o).failure = none) :
    s.extension ≠ "" := by
  obtain ⟨_, _, _, _, -, built, -⟩ := exists_page_of_render set shown
  exact Setup.ne_empty_of_registry (Setup.site_eq_ok built).1

theorem exists_renderPage_of_page {l : Locator} {text : String} {cache : PageCache}
    (paged : page site l o model {} = (.ok text, cache)) :
    ∃ id, site.renderPage l id o.template (.value model) (requestOf o) {} = (.ok text, cache) ∧
      o.layout.or site.defaultLayout = some id := by
  rw [page_eq] at paged
  cases chosen : o.layout.or site.defaultLayout with
  | none =>
    rw [chosen] at paged
    cases paged
  | some id =>
    rw [chosen] at paged
    exact ⟨id, paged, rfl⟩

theorem exists_source_of_render (set : w.setup = .ok s) (shown : (w.render files o).failure = none) :
    ∃ k source, Key.named s.extension o.template = .ok k ∧ (s.stack.locator files).find k = .ok (some source) := by
  obtain ⟨model, site, text, cache, -, -, paged⟩ := exists_page_of_render set shown
  obtain ⟨id, rendered, -⟩ := exists_renderPage_of_page paged
  obtain ⟨content, after, fragment⟩ := Site.exists_renderFragment_of_renderPage rendered
  obtain ⟨k, page, named, loaded⟩ := Site.exists_load_of_renderFragment fragment
  obtain ⟨source, found, -⟩ := Engine.source_of_load loaded
  exact ⟨k, source, named, found⟩

/-- What a render command shows stays the same where the keys of names are found with the same texts. -/
theorem render_of_find_eq (set : w.setup = .ok s) (shown : (w.render files o).failure = none)
    (same_model : readModel files' o.model = readModel files o.model)
    (agree : ∀ name k, Key.named s.extension name = .ok k →
      (s.stack.locator files').find k = (s.stack.locator files).find k) : w.render files' o = w.render files o := by
  obtain ⟨model, site, text, cache, read, built, paged⟩ := exists_page_of_render set shown
  obtain ⟨id, rendered, chosen⟩ := exists_renderPage_of_page paged
  have templates (layout : Layout) (known : site.layouts.get? id = some layout) :
      ∃ name, Key.named (s.stack.locator files).extension name = .ok layout.template :=
    ⟨_, Setup.named_template_of_registry (s := s) (Setup.site_eq_ok built).1 known⟩
  have same : (s.stack.locator files').extension = (s.stack.locator files).extension := rfl
  have elsewhere := Site.renderPage_of_find_eq same agree templates rendered
  have here : (page site (s.stack.locator files) o model {}).1 = .ok text := congrArg Prod.fst paged
  have there : (page site (s.stack.locator files') o model {}).1 = .ok text := by
    rw [page_eq, chosen]
    exact congrArg Prod.fst elsewhere
  rw [render_eq read set built, render_eq (same_model.trans read) set built, here, there]

end Pageweave.Workplace
