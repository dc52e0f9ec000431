import Pageweave.Command.Run
import Pageweave.Proofs.Layout.Naming
import Pageweave.Proofs.Layout.Registering
import Pageweave.Proofs.Setup.Extension
/-!
# Settings that make a valid setup

The layouts of a setup are those that the settings list, the default one behind them if it is not listed, and the bundled
one if they name none. So nothing can be wrong but the extension and the ids that were given.
-/
namespace Pageweave

variable {s : Setup} {w : Workplace} {e : String} {ids : List String} {ls made : List Layout} {r r' : LayoutRegistry}

/-! ## From settings to a setup -/

namespace Workplace

/-- The extension of the settings without dots in front. -/
def extension (w : Workplace) : String := String.ofList (w.settings.extension.toList.dropWhile (· = '.'))

/-- Do the settings name no layout? -/
def isBare (w : Workplace) : Bool := w.settings.layouts.isEmpty && w.settings.defaultLayout.isNone

def defaultLayout (w : Workplace) : Option String := if w.isBare then some bundledLayout else w.settings.defaultLayout

/-- The ids of the layouts, in the order in which they are added. -/
def layoutIds (w : Workplace) : List String :=
  w.settings.layouts ++ (w.defaultLayout.filter fun id => !w.settings.layouts.contains id).toList

/-- The setup of the settings with these layouts. -/
def filled (w : Workplace) (made : List Layout) : Setup where
  root := w.templatesRoot
  extension := w.extension
  hotReload := w.settings.hotReload
  debounceMillis := w.settings.debounceMillis
  autoescape := w.settings.autoescape
  defaultLayout := w.defaultLayout
  layouts := made

@[simp] theorem filled_extension (w : Workplace) (made : List Layout) : (w.filled made).extension = w.extension := rfl

@[simp] theorem filled_layouts (w : Workplace) (made : List Layout) : (w.filled made).layouts = made := rfl

end Workplace

namespace Setup

theorem foldlM_withLayout (s : Setup) (ids : List String) :
    ids.foldlM (fun b id => b.withLayout id none) s =
      (ids.mapM (Layout.make · none)).map fun made => { s with layouts := s.layouts ++ made } := by
  induction ids generalizing s with
  | nil => simp [pure, Except.pure, Except.map]
  | cons id ids ih =>
    rw [List.foldlM_cons, List.mapM_cons, withLayout]
    cases Layout.make id none with
    | error e => rfl
    | ok y =>
      simp only [bind, Except.bind]
      rw [ih]
      cases ids.mapM (Layout.make · none) <;> simp [Except.map, pure, Except.pure]

end Setup

theorem Settings.setup_eq (s : Settings) (project : String) :
    s.setup project = ((s.layouts ++ (s.defaultLayout.filter fun id => !s.layouts.contains id).toList).mapM
      (Layout.make · none)).map fun made =>
        { root := s.templatesRoot project, extension := String.ofList (s.extension.toList.dropWhile (· = '.')),
          hotReload := s.hotReload, debounceMillis := s.debounceMillis, autoescape := s.autoescape,
          defaultLayout := s.defaultLayout, layouts := made } := by
  unfold Settings.setup
  simp only [Setup.foldlM_withLayout, List.mapM_append]
  cases s.layouts.mapM (Layout.make · none) with
  | error e => rfl
  | ok listed =>
    cases s.defaultLayout with
    | none => simp [Setup.withExtension, Except.map, bind, Except.bind, pure, Except.pure]
    | some id =>
      by_cases there : id ∈ s.layouts
      · simp [there, Option.filter, Setup.withExtension, Except.map, bind, Except.bind, pure, Except.pure]
      · cases made : Layout.make id none <;>
          simp [there, made, Option.filter, Setup.withLayout, Setup.withExtension, Except.map, bind, Except.bind, pure,
            Except.pure]

namespace Workplace

/-- The setup holds a layout for each of the ids, and nothing can fail but to make one. -/
theorem setup_eq (w : Workplace) : w.setup = (w.layoutIds.mapM (Layout.make · none)).map w.filled := by
  unfold setup
  rw [Settings.setup_eq]
  by_cases bare : w.isBare = true
  · obtain ⟨no_list, no_default⟩ : w.settings.layouts = [] ∧ w.settings.defaultLayout = none := by
      simpa [isBare] using bare
    have ids : w.layoutIds = [bundledLayout] := by simp [layoutIds, defaultLayout, bare, no_list]
    rw [ids]
    cases made : Layout.make bundledLayout none <;>
      simp [no_list, no_default, made, Setup.withLayout, filled, defaultLayout, bare, extension, templatesRoot,
        Except.map, bind, Except.bind, pure, Except.pure]
  · have named : (w.settings.layouts.isEmpty && w.settings.defaultLayout.isNone) = false :=
      Bool.eq_false_of_not_eq_true bare
    have own : w.defaultLayout = w.settings.defaultLayout := if_neg bare
    rw [layoutIds, own]
    simp only [named, Bool.false_eq_true, if_false]
    cases (w.settings.layouts ++ (w.settings.defaultLayout.filter fun id => !w.settings.layouts.contains id).toList).mapM
      (Layout.make · none) <;> simp [filled, own, extension, templatesRoot, Except.map, bind, Except.bind]

theorem defaultLayout_eq_some_iff {id : String} : w.defaultLayout = some id ↔ w.settings.defaultLayout = some id ∨
    w.settings.layouts = [] ∧ w.settings.defaultLayout = none ∧ id = bundledLayout := by
  unfold defaultLayout isBare
  cases w.settings.layouts <;> cases w.settings.defaultLayout <;> simp [eq_comm]

theorem mem_layoutIds {id : String} :
    id ∈ w.layoutIds ↔ id ∈ w.settings.layouts ∨ w.defaultLayout = some id := by
  cases own : w.defaultLayout with
  | none => simp [layoutIds, own]
  | some given =>
    by_cases there : given ∈ w.settings.layouts
    · simp only [layoutIds, own, Option.filter, there, List.contains_eq_mem, decide_true, Bool.not_true,
        Bool.false_eq_true, if_false, Option.toList_none, List.append_nil, Option.some.injEq]
      exact ⟨.inl, fun h => h.elim (fun listed => listed) fun same => same ▸ there⟩
    · simp [layoutIds, own, Option.filter, there, eq_comm]

theorem nodup_layoutIds : w.layoutIds.Nodup ↔ w.settings.layouts.Nodup := by
  cases own : w.defaultLayout with
  | none => simp [layoutIds, own]
  | some given =>
    by_cases there : given ∈ w.settings.layouts
    · simp [layoutIds, own, Option.filter, there]
    · simp [layoutIds, own, Option.filter, there, List.nodup_append']

theorem layoutIds_ne_nil (w : Workplace) : w.layoutIds ≠ [] := by
  cases own : w.defaultLayout with
  | none =>
    have listed : w.settings.layouts ≠ [] := by
      intro nothing
      cases given : w.settings.defaultLayout <;> simp [defaultLayout, isBare, nothing, given] at own
    simp [layoutIds, listed]
  | some given => exact List.ne_nil_of_mem (mem_layoutIds.mpr (.inr own))

end Workplace

/-! ## The layouts of ids -/

/-- These are the layouts of the ids, in order, with templates of one extension. -/
structure AreLayouts (e : String) (ids : List String) (ls : List Layout) : Prop where
  ids_eq : ls.map Layout.id = ids
  template : ∀ l ∈ ls, Key.named e (Names.layouts ++ "/" ++ l.id) = .ok l.template
  alone : ∀ l ∈ ls, l.supplier = none

namespace AreLayouts

theorem nil (e : String) : AreLayouts e [] [] := ⟨rfl, by simp, by simp⟩

theorem cons {id : String} {k : Key} (named : Key.named e (Names.layouts ++ "/" ++ id) = .ok k)
    (rest : AreLayouts e ids ls) : AreLayouts e (id :: ids) (⟨id, k, none⟩ :: ls) where
  ids_eq := by rw [List.map_cons, rest.ids_eq]
  template := List.forall_mem_cons.mpr ⟨named, rest.template⟩
  alone := List.forall_mem_cons.mpr ⟨rfl, rest.alone⟩

theorem exists_made (ids : List String) (whole : ∀ id ∈ ids, ¬Key.IsTorn Names.extension (Names.layouts ++ "/" ++ id)) :
    ∃ made, ids.mapM (Layout.make · none) = .ok made ∧ AreLayouts Names.extension ids made := by
  induction ids with
  | nil => exact ⟨[], rfl, .nil _⟩
  | cons id ids ih =>
    obtain ⟨first, rest⟩ := List.forall_mem_cons.mp whole
    obtain ⟨k, named⟩ := Key.named_eq_ok_iff.mpr first
    obtain ⟨made, done, are⟩ := ih rest
    refine ⟨⟨id, k, none⟩ :: made, ?_, are.cons named⟩
    rw [List.mapM_cons, Layout.make_eq_ok.mpr ⟨k, named, rfl⟩, done]
    rfl

theorem exists_configured {e₀ : String} (are : AreLayouts e₀ ids made)
    (whole : ∀ id ∈ ids, ¬Key.IsTorn e (Names.layouts ++ "/" ++ id)) :
    ∃ ls, List.Forall₂ (fun y y' => y.forExtension e = .ok y') made ls ∧ AreLayouts e ids ls := by
  induction made generalizing ids with
  | nil =>
    obtain rfl : [] = ids := are.ids_eq
    exact ⟨[], .nil, .nil e⟩
  | cons y made ih =>
    obtain rfl : y.id :: made.map Layout.id = ids := are.ids_eq
    obtain ⟨first, rest⟩ := List.forall_mem_cons.mp whole
    obtain ⟨k, named⟩ := Key.named_eq_ok_iff.mpr first
    have alone : y.supplier = none := are.alone y List.mem_cons_self
    obtain ⟨ls, configured, later⟩ := ih
      ⟨rfl, fun l there => are.template l (.tail _ there), fun l there => are.alone l (.tail _ there)⟩ rest
    refine ⟨⟨y.id, k, none⟩ :: ls, .cons ?_ configured, later.cons named⟩
    exact Layout.forExtension_eq_ok.mpr ⟨k, named, by rw [alone]⟩

end AreLayouts

/-! ## What is checked -/

namespace Setup

/-- Layouts are given the setup's extension before they are registered. -/
theorem foldlM_configured (configured : List.Forall₂ (fun y y' => y.forExtension e = .ok y') made ls)
    (r : LayoutRegistry) :
    made.foldlM (fun (r : LayoutRegistry) layout => do r.register (← layout.forExtension e)) r =
      ls.foldlM LayoutRegistry.register r := by
  induction configured generalizing r with
  | nil => rw [List.foldlM_nil, List.foldlM_nil]
  | cons first _ ih =>
    rw [List.foldlM_cons, List.foldlM_cons, first]
    simp only [bind, Except.bind] at ih ⊢
    simp only [ih]

theorem exists_configured_of_foldlM
    (done : made.foldlM (fun (r : LayoutRegistry) layout => do r.register (← layout.forExtension e)) r = .ok r') :
    ∃ ls, List.Forall₂ (fun y y' => y.forExtension e = .ok y') made ls ∧ ls.foldlM LayoutRegistry.register r = .ok r' := by
  induction made generalizing r with
  | nil =>
    rw [List.foldlM_nil] at done
    exact ⟨[], .nil, by rw [List.foldlM_nil, done]⟩
  | cons y made ih =>
    rw [List.foldlM_cons] at done
    simp only [bind, Except.bind] at done ih
    cases first : y.forExtension e with
    | error fault =>
      simp only [first] at done
      cases done
    | ok y' =>
      cases registered : r.register y' with
      | error fault =>
        simp only [first, registered] at done
        cases done
      | ok r₁ =>
        simp only [first, registered] at done
        obtain ⟨ls, configured, rest⟩ := ih done
        refine ⟨y' :: ls, .cons first configured, ?_⟩
        rw [List.foldlM_cons, registered]
        exact rest

/-- The last check: the default layout is among those that are registered. -/
def checkDefault (s : Setup) (r : LayoutRegistry) : Except PageError LayoutRegistry :=
  match s.defaultLayout with
  | some id => if r.contains id then .ok r else .error (.setup (.defaultNotRegistered id r.ids))
  | none => .ok r

theorem checkDefault_eq_ok_iff :
    s.checkDefault r = .ok r' ↔ r = r' ∧ ∀ id, s.defaultLayout = some id → r.contains id = true := by
  unfold checkDefault
  cases s.defaultLayout with
  | none => simp
  | some id =>
    simp only [Option.some.injEq, forall_eq']
    split_ifs with there
    · simp [there]
    · simp [there]

theorem fault_of_checkDefault_eq_error {fault : PageError} (refused : s.checkDefault r = .error fault) :
    ∃ f, fault = .setup f := by
  unfold checkDefault at refused
  cases default : s.defaultLayout with
  | none =>
    rw [default] at refused
    cases refused
  | some id =>
    rw [default] at refused
    simp only at refused
    split_ifs at refused
    exact ⟨_, (Except.error.inj refused).symm⟩

theorem registry_eq (s : Setup) : s.registry =
    if s.extension = "" then .error (.setup .emptyExtension)
    else if s.layouts = [] then .error (.setup .noLayouts)
    else s.layouts.foldlM (fun (r : LayoutRegistry) layout => do r.register (← layout.forExtension s.extension)) {} >>=
      s.checkDefault := by
  unfold registry
  by_cases empty : s.extension = ""
  · rw [if_pos empty, if_pos empty]
    rfl
  rw [if_neg empty, if_neg empty]
  by_cases nothing : s.layouts = []
  · rw [if_pos (List.isEmpty_iff.mpr nothing), if_pos nothing]
    rfl
  · rw [if_neg (mt List.isEmpty_iff.mp nothing), if_neg nothing]
    rfl

theorem exists_configured_of_registry (valid : s.registry = .ok r) :
    ∃ ls, List.Forall₂ (fun y y' => y.forExtension s.extension = .ok y') s.layouts ls ∧ r.Holds ls := by
  rw [registry_eq] at valid
  split_ifs at valid
  cases done : s.layouts.foldlM (fun (r : LayoutRegistry) layout => do
      r.register (← layout.forExtension s.extension)) {} with
  | error fault =>
    rw [done] at valid
    cases valid
  | ok r' =>
    rw [done] at valid
    obtain ⟨ls, configured, registered⟩ := exists_configured_of_foldlM done
    obtain ⟨rfl, -⟩ := checkDefault_eq_ok_iff.mp valid
    exact ⟨ls, configured, by simpa using LayoutRegistry.holds_empty.foldlM registered⟩

theorem exists_of_mem_configured {y' : Layout} (configured : List.Forall₂ (fun y y' => y.forExtension e = .ok y') made ls)
    (listed : y' ∈ ls) : ∃ y : Layout, y.forExtension e = .ok y' := by
  induction configured with
  | nil => cases listed
  | @cons y _ _ _ first _ ih =>
    rcases List.mem_cons.mp listed with rfl | later
    · exact ⟨y, first⟩
    · exact ih later

theorem named_template_of_registry {layout : Layout} {id : String} (valid : s.registry = .ok r)
    (known : r.get? id = some layout) : Key.named s.extension (Names.layouts ++ "/" ++ id) = .ok layout.template := by
  obtain ⟨ls, configured, held⟩ := exists_configured_of_registry valid
  obtain ⟨listed, rfl⟩ := held.get?_eq_some_iff.mp known
  obtain ⟨y, made⟩ := exists_of_mem_configured configured listed
  obtain ⟨k, named, rfl⟩ := Layout.forExtension_eq_ok.mp made
  exact named

/-- The registry of a setup whose layouts have templates with its extension. -/
theorem registry_eq_ok_iff (configured : List.Forall₂ (fun y y' => y.forExtension s.extension = .ok y') s.layouts ls) :
    s.registry = .ok r ↔ s.extension ≠ "" ∧ s.layouts ≠ [] ∧ ls.foldlM LayoutRegistry.register {} = .ok r ∧
      ∀ id, s.defaultLayout = some id → r.contains id = true := by
  rw [registry_eq, foldlM_configured configured]
  split_ifs with empty nothing
  · simp [empty]
  · simp [nothing]
  cases ls.foldlM LayoutRegistry.register {} with
  | error e => simp [bind, Except.bind]
  | ok r' =>
    change s.checkDefault r' = .ok r ↔ _
    rw [checkDefault_eq_ok_iff]
    constructor
    · rintro ⟨rfl, there⟩
      exact ⟨empty, nothing, rfl, there⟩
    · rintro ⟨-, -, ⟨⟩, there⟩
      exact ⟨rfl, there⟩

/-- Whatever is wrong with a setup whose layouts have templates is told by a fault of the setup. -/
theorem fault_of_registry_eq_error {fault : PageError}
    (configured : s.extension ≠ "" → ∃ ls, List.Forall₂ (fun y y' => y.forExtension s.extension = .ok y') s.layouts ls)
    (refused : s.registry = .error fault) : ∃ f, fault = .setup f := by
  rw [registry_eq] at refused
  split_ifs at refused with empty nothing
  · exact ⟨.emptyExtension, (Except.error.inj refused).symm⟩
  · exact ⟨.noLayouts, (Except.error.inj refused).symm⟩
  obtain ⟨ls, configured⟩ := configured empty
  rw [foldlM_configured configured] at refused
  cases done : ls.foldlM LayoutRegistry.register {} with
  | error e =>
    rw [done] at refused
    obtain rfl := Except.error.inj refused
    exact LayoutRegistry.fault_of_foldlM_register_eq_error done
  | ok r =>
    rw [done] at refused
    exact fault_of_checkDefault_eq_error refused

theorem registry_isOk_iff (configured : List.Forall₂ (fun y y' => y.forExtension s.extension = .ok y') s.layouts ls)
    (named : ∀ id, s.defaultLayout = some id → id ∈ ls.map Layout.id) :
    (∃ r, s.registry = .ok r) ↔ s.extension ≠ "" ∧ s.layouts ≠ [] ∧ (∀ l ∈ ls, Text.trim l.id ≠ "") ∧
      (ls.map Layout.id).Nodup := by
  have registered := LayoutRegistry.foldlM_register_eq_ok_iff LayoutRegistry.holds_empty ls
  rw [List.nil_append] at registered
  simp only [registry_eq_ok_iff configured, ← registered]
  constructor
  · rintro ⟨r, some_char, some_layout, done, -⟩
    exact ⟨some_char, some_layout, r, done⟩
  · rintro ⟨some_char, some_layout, r, done⟩
    refine ⟨r, some_char, some_layout, done, fun id default => ?_⟩
    rw [(LayoutRegistry.holds_empty.foldlM done).contains_iff, List.nil_append]
    exact List.mem_map.mp (named id default)

theorem validate_eq_ok_iff : s.validate = .ok () ↔ ∃ r, s.registry = .ok r := by
  unfold validate
  cases s.registry <;> simp [Except.map]

theorem validate_eq_error_iff {fault : PageError} : s.validate = .error fault ↔ s.registry = .error fault := by
  unfold validate
  cases s.registry <;> simp [Except.map]

theorem site_eq_ok {site : Site} (built : s.site = .ok site) :
    s.registry = .ok site.layouts ∧ site.defaultLayout = s.defaultLayout := by
  unfold Setup.site at built
  cases held : s.registry with
  | error e =>
    rw [held] at built
    cases built
  | ok r =>
    rw [held] at built
    obtain rfl := Except.ok.inj built
    exact ⟨rfl, rfl⟩

theorem map_site_eq (s : Setup) : s.site.map (fun _ => ()) = s.validate := by
  unfold Setup.site validate
  cases s.registry <;> rfl

end Setup

namespace Workplace

/-- Has the template of this id a key, with the usual extension and with the one of the settings? -/
def CanName (w : Workplace) (id : String) : Prop :=
  ¬Key.IsTorn Names.extension (Names.layouts ++ "/" ++ id) ∧
    (w.extension ≠ "" → ¬Key.IsTorn w.extension (Names.layouts ++ "/" ++ id))

theorem canName_bundledLayout (w : Workplace) : w.CanName bundledLayout := by
  have narrow : (Names.layouts ++ "/" ++ bundledLayout).toList.all (·.utf8Size = 1) := by decide +kernel
  have whole (e : String) : ¬Key.IsTorn e (Names.layouts ++ "/" ++ bundledLayout) := by
    intro torn
    obtain ⟨c, there, wide⟩ := torn.exists_wide
    have one : c.utf8Size = 1 := by simpa using List.all_eq_true.mp narrow c there
    omega
  exact ⟨whole _, fun _ => whole _⟩

theorem canName_of_mem_layoutIds (normal : ∀ id ∈ w.settings.layouts ++ w.settings.defaultLayout.toList, w.CanName id)
    {id : String} (there : id ∈ w.layoutIds) : w.CanName id := by
  rcases mem_layoutIds.mp there with listed | default
  · exact normal id (List.mem_append_left _ listed)
  · rcases defaultLayout_eq_some_iff.mp default with given | ⟨-, -, rfl⟩
    · exact normal id (List.mem_append_right _ (by simp [given]))
    · exact w.canName_bundledLayout

theorem forall_layoutIds_iff : (∀ id ∈ w.layoutIds, Text.trim id ≠ "") ↔
    (∀ id ∈ w.settings.layouts, Text.trim id ≠ "") ∧ ∀ id, w.settings.defaultLayout = some id → Text.trim id ≠ "" := by
  have visible : Text.trim bundledLayout ≠ "" := by decide +kernel
  constructor
  · intro all
    refine ⟨fun id listed => all id (mem_layoutIds.mpr (.inl listed)), fun id given => all id ?_⟩
    exact mem_layoutIds.mpr (.inr (defaultLayout_eq_some_iff.mpr (.inl given)))
  · rintro ⟨listed, given⟩ id there
    rcases mem_layoutIds.mp there with there | default
    · exact listed id there
    · rcases defaultLayout_eq_some_iff.mp default with default | ⟨-, -, rfl⟩
      · exact given id default
      · exact visible

theorem registry_filled_isOk_iff (are : AreLayouts Names.extension w.layoutIds made)
    (whole : ∀ id ∈ w.layoutIds, w.extension ≠ "" → ¬Key.IsTorn w.extension (Names.layouts ++ "/" ++ id)) :
    (∃ r, (w.filled made).registry = .ok r) ↔
      w.extension ≠ "" ∧ (∀ id ∈ w.layoutIds, Text.trim id ≠ "") ∧ w.layoutIds.Nodup := by
  by_cases empty : w.extension = ""
  · simp only [empty, ne_eq, not_true_eq_false, false_and, iff_false, not_exists]
    intro r valid
    exact Setup.ne_empty_of_registry valid empty
  obtain ⟨ls, configured, templates⟩ := are.exists_configured fun id there => whole id there empty
  have named (id : String) (default : (w.filled made).defaultLayout = some id) : id ∈ ls.map Layout.id := by
    rw [templates.ids_eq]
    exact mem_layoutIds.mpr (.inr default)
  have some_layout : made ≠ [] := by
    rintro rfl
    exact w.layoutIds_ne_nil are.ids_eq.symm
  have visible : (∀ l ∈ ls, Text.trim l.id ≠ "") ↔ ∀ id ∈ w.layoutIds, Text.trim id ≠ "" := by
    rw [← templates.ids_eq, List.forall_mem_map]
  rw [Setup.registry_isOk_iff (s := w.filled made) configured named, visible, templates.ids_eq]
  simp only [filled_extension, filled_layouts, some_layout, ne_eq, not_false_eq_true, true_and]

/-- Settings whose ids have keys make a setup. It is valid if the extension is more than dots, the ids in the list are
different and no id is blank; otherwise a fault of the setup is told, by checking and by building alike. A site that is
built has the layouts of the list and the default one, or the bundled one if the settings name none, each with the
template of its id. -/
theorem valid_iff_ids_distinct (w : Workplace)
    (normal : ∀ id ∈ w.settings.layouts ++ w.settings.defaultLayout.toList, w.CanName id) :
    ∃ s, w.setup = .ok s ∧
      (s.validate = .ok () ↔ w.extension ≠ "" ∧ (∀ id ∈ w.settings.layouts, Text.trim id ≠ "") ∧
        w.settings.layouts.Nodup ∧ ∀ id, w.settings.defaultLayout = some id → Text.trim id ≠ "") ∧
      (∀ e, s.validate = .error e → ∃ fault, e = .setup fault) ∧
      (∀ e, s.site.map (fun _ => ()) = .error e ↔ s.validate = .error e) ∧
      ∀ site, s.site = .ok site →
        (∀ id, id ∈ site.layouts.ids ↔ id ∈ w.settings.layouts ∨ w.settings.defaultLayout = some id ∨
          w.settings.layouts = [] ∧ w.settings.defaultLayout = none ∧ id = "base") ∧
        (∀ id ∈ site.layouts.ids, ∃ l, site.layouts.get? id = some l ∧ l.id = id ∧
          Key.named w.extension ("layouts/" ++ id) = .ok l.template ∧ l.supplier = none) ∧
        site.defaultLayout = if w.settings.layouts = [] ∧ w.settings.defaultLayout = none then some "base"
          else w.settings.defaultLayout := by
  have can {id : String} (there : id ∈ w.layoutIds) : w.CanName id := canName_of_mem_layoutIds normal there
  have layouts_slash : Names.layouts ++ "/" = "layouts/" := by decide
  obtain ⟨made, done, are⟩ := AreLayouts.exists_made w.layoutIds fun id there => (can there).1
  refine ⟨w.filled made, by rw [setup_eq, done]; rfl, ?_, ?_, ?_, ?_⟩
  · rw [Setup.validate_eq_ok_iff, registry_filled_isOk_iff are fun id there => (can there).2, forall_layoutIds_iff,
      nodup_layoutIds]
    tauto
  · intro e refused
    refine Setup.fault_of_registry_eq_error (s := w.filled made) (fun some_char => ?_)
      (Setup.validate_eq_error_iff.mp refused)
    obtain ⟨ls, configured, -⟩ := are.exists_configured fun id there => (can there).2 some_char
    exact ⟨ls, configured⟩
  · exact fun e => by rw [Setup.map_site_eq]
  · intro site built
    obtain ⟨valid, own⟩ := Setup.site_eq_ok built
    have some_char : w.extension ≠ "" := Setup.ne_empty_of_registry valid
    obtain ⟨ls, configured, templates⟩ := are.exists_configured fun id there => (can there).2 some_char
    have held : site.layouts.Holds ls := by
      obtain ⟨-, -, registered, -⟩ := (Setup.registry_eq_ok_iff (s := w.filled made) configured).mp valid
      simpa using LayoutRegistry.holds_empty.foldlM registered
    have mem_ids (id : String) : id ∈ site.layouts.ids ↔ id ∈ w.layoutIds := by
      rw [held.mem_ids_iff, ← templates.ids_eq, List.mem_map]
    refine ⟨fun id => ?_, fun id there => ?_, ?_⟩
    · rw [mem_ids, mem_layoutIds, defaultLayout_eq_some_iff]
      rfl
    · obtain ⟨l, listed, rfl⟩ := held.mem_ids_iff.mp there
      have named := templates.template l listed
      rw [layouts_slash] at named
      exact ⟨l, held.get?_eq_some_iff.mpr ⟨listed, rfl⟩, rfl, named, templates.alone l listed⟩
    · rw [own]
      simp [filled, defaultLayout, isBare, bundledLayout]

/-- Dots in front of the extension, a layout in a directory of its own, and a default one that is not listed. -/
def mixedPlace : Workplace where
  project := "site"
  settings := { extension := "..htm", layouts := ["admin/main"], defaultLayout := some "über-uns" }

theorem mixedPlace_valid : (∀ id ∈ mixedPlace.settings.layouts ++ mixedPlace.settings.defaultLayout.toList,
      mixedPlace.CanName id) ∧ mixedPlace.extension = "htm" ∧ ∃ s, mixedPlace.setup = .ok s ∧ s.validate = .ok () := by
  have extension : mixedPlace.extension = "htm" := by decide +kernel
  have normal : ∀ id ∈ mixedPlace.settings.layouts ++ mixedPlace.settings.defaultLayout.toList, mixedPlace.CanName id := by
    have whole : ∀ e ∈ ["html", "htm"], ∀ id ∈ ["admin/main", "über-uns"],
        ¬Key.IsTorn e (Names.layouts ++ "/" ++ id) := by
      decide +kernel
    intro id there
    refine ⟨whole _ (by decide) id there, fun _ => ?_⟩
    rw [extension]
    exact whole _ (by decide) id there
  obtain ⟨s, made, valid, -⟩ := valid_iff_ids_distinct mixedPlace normal
  refine ⟨normal, extension, s, made, valid.mpr ⟨by decide +kernel, by decide +kernel, by decide, ?_⟩⟩
  rintro id ⟨⟩
  decide +kernel

end Workplace
end Pageweave
