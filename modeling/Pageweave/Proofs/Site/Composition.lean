import Pageweave.Proofs.Sequence
import Pageweave.Site
/-!
# How a page is composed

A request for a part of a page gets what the template alone would be. Otherwise the page ends at the first stage that
fails: the layout is not known, the content fails, its supplier fails or sets a key of the renderer, the layout does not
load or does not run. A supplier is asked once at most, and only when the content is there.
-/
namespace Pageweave

theorem Fields.get?_append (key : String) (front back : Fields) :
    Fields.get? key (front ++ back) = (Fields.get? key front).or (Fields.get? key back) := by
  induction front with
  | nil => rfl
  | cons entry rest ih =>
    by_cases this : entry.1 = key
    · simp [Fields.get?, this]
    · simp [Fields.get?, this, ih]

/-- The last of the values that come in under a key wins over those that were there. -/
theorem Fields.get?_merge (key : String) (earlier later : Fields) :
    Fields.get? key (Fields.merge earlier later) = (Fields.get? key later.reverse).or (Fields.get? key earlier) := by
  unfold Fields.merge
  induction later generalizing earlier with
  | nil => rfl
  | cons entry rest ih =>
    rw [List.foldl_cons, ih, Fields.get?_insert, List.reverse_cons, Fields.get?_append, Option.or_assoc]
    by_cases this : key = entry.1
    · simp [Fields.get?, this]
    · simp [Fields.get?, this, Ne.symm this]

namespace Site

variable {w : Type} {s : Site} {ask : Asking w} {l : Locator} {id name : String} {model : Value} {r : Request}
  {cache : PageCache} {world : w} {layout : Layout} {state : PageCache × w} {e : PageError} {data : Fields}

/-- What a supplier may give does not hide the values of the renderer. -/
theorem get?_around_of_reserved {key content : String} (free : ∀ x ∈ data, Names.isReserved x.1 = false)
    (reserved : Names.isReserved key = true) :
    Fields.get? key (Fields.merge (layoutContext r content model) data) =
      Fields.get? key (layoutContext r content model) := by
  have unsupplied : ∀ fields : Fields, (∀ x ∈ fields, Names.isReserved x.1 = false) → Fields.get? key fields = none := by
    intro fields others
    induction fields with
    | nil => rfl
    | cons entry rest ih =>
      have other : entry.1 ≠ key := by
        intro same
        have free_entry := others entry List.mem_cons_self
        rw [same, reserved] at free_entry
        cases free_entry
      rw [Fields.get?, if_neg other]
      exact ih fun x listed => others x (List.mem_cons_of_mem _ listed)
  rw [Fields.get?_merge, unsupplied data.reverse fun x listed => free x (List.mem_reverse.mp listed), Option.none_or]

/-- What the supplier of a layout adds to a page, and what it leaves behind. Without a supplier nobody is asked. -/
inductive Supplies (ask : Asking w) (layout : Layout) (r : Request) (state : PageCache × w) :
    Fields → PageCache × w → Prop where
  | nothing (alone : layout.supplier = none) : Supplies ask layout r state [] state
  | asked {supply : Supplier} {data : Fields} {after : PageCache × w} (has : layout.supplier = some supply)
      (answer : ask layout supply r state = (.ok data, after)) (free : ∀ x ∈ data, Names.isReserved x.1 = false) :
      Supplies ask layout r state data after

/-- How the supplier of a layout fails, and what it leaves behind. -/
inductive Refuses (ask : Asking w) (layout : Layout) (r : Request) (state : PageCache × w) :
    PageError → PageCache × w → Prop where
  | fault {supply : Supplier} {fault : SupplyFault} {after : PageCache × w} (has : layout.supplier = some supply)
      (answer : ask layout supply r state = (.error fault, after)) :
      Refuses ask layout r state (.sideData layout.id fault.message fault.causes) after
  | reserved {supply : Supplier} {front back : Fields} {key : String} {value : Value} {after : PageCache × w}
      (has : layout.supplier = some supply)
      (answer : ask layout supply r state = (.ok (front ++ (key, value) :: back), after))
      (free : ∀ x ∈ front, Names.isReserved x.1 = false) (first : Names.isReserved key = true) :
      Refuses ask layout r state (.reservedKey layout.id key) after

/-- A page within a layout is there: the layout is known, the content has a text, the supplier has answered, and the
layout runs around them. -/
structure Succeeds (s : Site) (ask : Asking w) (l : Locator) (id name : String) (model : Value) (r : Request)
    (before : PageCache × w) (text : String) (after : PageCache × w) : Prop where
  stages : ∃ layout content cache data answered compiled,
    s.layouts.get? id = some layout ∧
    s.renderFragment l name (.value model) r before.1 = (.ok content, cache) ∧
    Supplies ask layout r (cache, before.2) data answered ∧
    s.compiledKey l layout.template answered.1 = (.ok compiled, after.1) ∧ after.2 = answered.2 ∧
    s.engine.execute compiled (Fields.merge (layoutContext r content model) data) = .ok text

/-- The first stage of a page within a layout that fails, with what the stages up to it leave behind. -/
inductive Fails (s : Site) (ask : Asking w) (l : Locator) (id name : String) (model : Value) (r : Request)
    (before : PageCache × w) : PageError → PageCache × w → Prop where
  | layout (unknown : s.layouts.get? id = none) : Fails s ask l id name model r before (.unknownLayout id) before
  | content {layout : Layout} {e : PageError} {cache : PageCache} (known : s.layouts.get? id = some layout)
      (failed : s.renderFragment l name (.value model) r before.1 = (.error e, cache)) :
      Fails s ask l id name model r before e (cache, before.2)
  | supplier {layout : Layout} {content : String} {e : PageError} {cache : PageCache} {after : PageCache × w}
      (known : s.layouts.get? id = some layout)
      (rendered : s.renderFragment l name (.value model) r before.1 = (.ok content, cache))
      (refused : Refuses ask layout r (cache, before.2) e after) : Fails s ask l id name model r before e after
  | load {layout : Layout} {content : String} {data : Fields} {e : PageError} {cache cache' : PageCache}
      {answered : PageCache × w} (known : s.layouts.get? id = some layout)
      (rendered : s.renderFragment l name (.value model) r before.1 = (.ok content, cache))
      (supplied : Supplies ask layout r (cache, before.2) data answered)
      (failed : s.compiledKey l layout.template answered.1 = (.error e, cache')) :
      Fails s ask l id name model r before e (cache', answered.2)
  | run {layout : Layout} {content : String} {data : Fields} {e : PageError} {cache cache' : PageCache}
      {answered : PageCache × w} {compiled : Compiled} (known : s.layouts.get? id = some layout)
      (rendered : s.renderFragment l name (.value model) r before.1 = (.ok content, cache))
      (supplied : Supplies ask layout r (cache, before.2) data answered)
      (loaded : s.compiledKey l layout.template answered.1 = (.ok compiled, cache'))
      (failed : s.engine.execute compiled (Fields.merge (layoutContext r content model) data) = .error e) :
      Fails s ask l id name model r before e (cache', answered.2)

section Stages

variable {α β : Type} {x : Composing w α} {f : α → Composing w β} {before after : PageCache × w} {a : α}

private theorem bind_of_ok (h : x before = (.ok a, after)) : (x >>= f) before = f a after := by
  rw [bind_apply, h]

private theorem bind_of_error (h : x before = (.error e, after)) : (x >>= f) before = (.error e, after) := by
  rw [bind_apply, h]

end Stages

private theorem within_of {α : Type} {work : Rendering α} {before : PageCache × w} {result : Except PageError α}
    {cache : PageCache} (h : work before.1 = (result, cache)) : work.within before = (result, cache, before.2) := by
  change ((work before.1).1, (work before.1).2, before.2) = _
  rw [h]

private theorem supplied_of_supplies {before after : PageCache × w} (h : Supplies ask layout r before data after) :
    supplied ask layout r before = (.ok data, after) := by
  cases h with
  | nothing alone =>
    unfold supplied
    rw [alone]
  | asked has answer free =>
    have none_reserved : data.find? (fun x => Names.isReserved x.1) = none := by
      simpa using free
    unfold supplied
    rw [has]
    simp only [answer, accept, none_reserved]

private theorem supplied_of_refuses {before after : PageCache × w} (h : Refuses ask layout r before e after) :
    supplied ask layout r before = (.error e, after) := by
  cases h with
  | fault has answer =>
    unfold supplied
    rw [has]
    simp only [answer, accept]
  | @reserved supply front back key value after has answer free first =>
    have first_reserved : (front ++ (key, value) :: back).find? (fun x => Names.isReserved x.1) = some (key, value) := by
      rw [List.find?_eq_some_iff_append]
      exact ⟨first, front, back, rfl, by simpa using free⟩
    unfold supplied
    rw [has]
    simp only [answer, accept, first_reserved]

private theorem supplies_or_refuses (ask : Asking w) (layout : Layout) (r : Request) (state : PageCache × w) :
    (∃ data after, Supplies ask layout r state data after) ∨ ∃ e after, Refuses ask layout r state e after := by
  cases has : layout.supplier with
  | none => exact .inl ⟨[], state, .nothing has⟩
  | some supply =>
    rcases answer : ask layout supply r state with ⟨_ | data, after⟩
    case error fault => exact .inr ⟨_, after, .fault has answer⟩
    cases reserved : data.find? (fun x => Names.isReserved x.1) with
    | none => exact .inl ⟨data, after, .asked has answer (by simpa using reserved)⟩
    | some entry =>
      obtain ⟨first, front, back, rfl, free⟩ := List.find?_eq_some_iff_append.mp reserved
      exact .inr ⟨_, after, .reserved has answer (by simpa using free) first⟩

private theorem composePage_whole (whole : r.wantsFragment = false) :
    s.composePage ask l id name (.value model) r = (do
      let layout ← s.layout id
      let content ← (s.renderFragment l name (.value model) r).within
      let data ← supplied ask layout r
      let page ← (s.compiledKey l layout.template).within
      s.engine.execute page (Fields.merge (layoutContext r content model) data)) := by
  unfold composePage
  rw [whole]
  rfl

private theorem layout_of_known (known : s.layouts.get? id = some layout) : s.layout id = .ok layout := by
  unfold Site.layout
  rw [known]

private theorem Succeeds.composePage {before after : PageCache × w} {text : String} (whole : r.wantsFragment = false)
    (h : Succeeds s ask l id name model r before text after) :
    s.composePage ask l id name (.value model) r before = (.ok text, after) := by
  obtain ⟨layout, content, cache, data, answered, compiled, known, rendered, supplied, loaded, world, run⟩ := h.stages
  rw [composePage_whole whole, layout_of_known known]
  calc
    _ = _ := bind_of_ok rfl
    _ = _ := bind_of_ok (within_of rendered)
    _ = _ := bind_of_ok (supplied_of_supplies supplied)
    _ = _ := bind_of_ok (within_of loaded)
    _ = (.ok text, after) := by
      rw [run, ← world]
      rfl

private theorem Fails.composePage {before after : PageCache × w} (whole : r.wantsFragment = false)
    (h : Fails s ask l id name model r before e after) :
    s.composePage ask l id name (.value model) r before = (.error e, after) := by
  rw [composePage_whole whole]
  cases h with
  | layout unknown =>
    have layout_unknown : s.layout id = .error (.unknownLayout id) := by
      unfold Site.layout
      rw [unknown]
    rw [layout_unknown]
    exact bind_of_error rfl
  | content known failed =>
    rw [layout_of_known known]
    calc
      _ = _ := bind_of_ok rfl
      _ = _ := bind_of_error (within_of failed)
  | supplier known rendered refused =>
    rw [layout_of_known known]
    calc
      _ = _ := bind_of_ok rfl
      _ = _ := bind_of_ok (within_of rendered)
      _ = _ := bind_of_error (supplied_of_refuses refused)
  | load known rendered supplied failed =>
    rw [layout_of_known known]
    calc
      _ = _ := bind_of_ok rfl
      _ = _ := bind_of_ok (within_of rendered)
      _ = _ := bind_of_ok (supplied_of_supplies supplied)
      _ = _ := bind_of_error (within_of failed)
  | run known rendered supplied loaded failed =>
    rw [layout_of_known known]
    calc
      _ = _ := bind_of_ok rfl
      _ = _ := bind_of_ok (within_of rendered)
      _ = _ := bind_of_ok (supplied_of_supplies supplied)
      _ = _ := bind_of_ok (within_of loaded)
      _ = _ := by
        rw [failed]
        rfl

/-- A page within a layout ends at one of its stages. -/
private theorem succeeds_or_fails (s : Site) (ask : Asking w) (l : Locator) (id name : String) (model : Value)
    (r : Request) (before : PageCache × w) :
    (∃ text after, Succeeds s ask l id name model r before text after) ∨
      ∃ e after, Fails s ask l id name model r before e after := by
  cases known : s.layouts.get? id with
  | none => exact .inr ⟨_, _, .layout known⟩
  | some layout =>
    rcases rendered : s.renderFragment l name (.value model) r before.1 with ⟨e | content, cache⟩
    · exact .inr ⟨e, _, .content known rendered⟩
    rcases supplies_or_refuses ask layout r (cache, before.2) with ⟨data, answered, supplied⟩ | ⟨e, after, refused⟩
    · rcases loaded : s.compiledKey l layout.template answered.1 with ⟨e | compiled, cache'⟩
      · exact .inr ⟨e, _, .load known rendered supplied loaded⟩
      cases run : s.engine.execute compiled (Fields.merge (layoutContext r content model) data) with
      | error e => exact .inr ⟨e, _, .run known rendered supplied loaded run⟩
      | ok text =>
        refine .inl ⟨text, (cache', answered.2), ⟨layout, content, cache, data, answered, compiled, ?_⟩⟩
        exact ⟨known, rendered, supplied, loaded, rfl, run⟩
    · exact .inr ⟨e, after, .supplier known rendered refused⟩

theorem composePage_eq_ok_iff {before after : PageCache × w} {text : String} (whole : r.wantsFragment = false) :
    s.composePage ask l id name (.value model) r before = (.ok text, after) ↔
      Succeeds s ask l id name model r before text after := by
  refine ⟨fun ends => ?_, fun h => h.composePage whole⟩
  rcases succeeds_or_fails s ask l id name model r before with ⟨text', after', h⟩ | ⟨e, after', h⟩
  · rw [h.composePage whole] at ends
    cases ends
    exact h
  · rw [h.composePage whole] at ends
    cases ends

theorem composePage_eq_error_iff {before after : PageCache × w} (whole : r.wantsFragment = false) :
    s.composePage ask l id name (.value model) r before = (.error e, after) ↔
      Fails s ask l id name model r before e after := by
  refine ⟨fun ends => ?_, fun h => h.composePage whole⟩
  rcases succeeds_or_fails s ask l id name model r before with ⟨text', after', h⟩ | ⟨e, after', h⟩
  · rw [h.composePage whole] at ends
    cases ends
  · rw [h.composePage whole] at ends
    cases ends
    exact h

theorem composePage_of_fragment {model : Model} (part : r.wantsFragment = true) :
    s.composePage ask l id name model r = (s.renderFragment l name model r).within := by
  unfold composePage renderFragment
  rw [part]
  cases model.value? with
  | error e => rfl
  | ok model => rfl

section Questions

/-- The same answers, with a note of each question: which layout asked, and what was in the cache then. -/
def noted (ask : Asking w) : Asking (w × List (String × PageCache)) := fun layout supply r (cache, world, notes) =>
  let (answer, after, world) := ask layout supply r (cache, world)
  (answer, after, world, notes ++ [(layout.id, cache)])

/-- The notes of one page: a layout with a supplier asks once, as soon as the content is there. -/
structure Notes (s : Site) (l : Locator) (id name : String) (model : Value) (r : Request) (cache : PageCache)
    (notes : List (String × PageCache)) : Prop where
  once : notes.length ≤ 1
  mem_iff : ∀ note, note ∈ notes ↔ ∃ layout content cache',
    s.layouts.get? id = some layout ∧ layout.supplier.isSome = true ∧
    s.renderFragment l name (.value model) r cache = (.ok content, cache') ∧ note = (layout.id, cache')

variable {notes : List (String × PageCache)} {after : PageCache × w}

/-- What a layout notes when the content is there. -/
private def question (layout : Layout) (cache : PageCache) : List (String × PageCache) :=
  if layout.supplier.isSome = true then [(layout.id, cache)] else []

private theorem noted_eq {supply : Supplier} {answer : Except SupplyFault Fields} (has : layout.supplier = some supply)
    (h : ask layout supply r (cache, world) = (answer, after)) :
    noted ask layout supply r (cache, world, []) = (answer, after.1, after.2, question layout cache) := by
  unfold noted question
  rw [has]
  simp only [h]
  rfl

private theorem Supplies.noted (h : Supplies ask layout r (cache, world) data after) :
    Supplies (noted ask) layout r (cache, world, []) data (after.1, after.2, question layout cache) := by
  cases h with
  | nothing alone =>
    have nobody : question layout cache = [] := by
      unfold question
      rw [alone]
      rfl
    rw [nobody]
    exact .nothing alone
  | asked has answer free => exact .asked has (noted_eq has answer) free

private theorem Refuses.noted (h : Refuses ask layout r (cache, world) e after) :
    Refuses (noted ask) layout r (cache, world, []) e (after.1, after.2, question layout cache) := by
  cases h with
  | fault has answer => exact .fault has (noted_eq has answer)
  | reserved has answer free first => exact .reserved has (noted_eq has answer) free first

private theorem notes_of_rendered {content : String} {cache' : PageCache} (known : s.layouts.get? id = some layout)
    (rendered : s.renderFragment l name (.value model) r cache = (.ok content, cache')) :
    Notes s l id name model r cache (question layout cache') where
  once := by
    unfold question
    split
    · exact Nat.le_refl 1
    · exact Nat.zero_le 1
  mem_iff note := by
    constructor
    · intro listed
      unfold question at listed
      split at listed
      case isTrue has => exact ⟨layout, content, cache', known, has, rendered, List.mem_singleton.mp listed⟩
      case isFalse => cases listed
    · intro ⟨layout', content', cache'', known', has, rendered', same⟩
      obtain rfl := Option.some.inj (known.symm.trans known')
      cases rendered.symm.trans rendered'
      unfold question
      rw [if_pos has]
      exact List.mem_singleton.mpr same

private theorem notes_of_unknown (unknown : s.layouts.get? id = none) : Notes s l id name model r cache [] where
  once := Nat.zero_le 1
  mem_iff note := by simp [unknown]

private theorem notes_of_failed {cache' : PageCache}
    (failed : s.renderFragment l name (.value model) r cache = (.error e, cache')) :
    Notes s l id name model r cache [] where
  once := Nat.zero_le 1
  mem_iff note := by
    refine ⟨nofun, ?_⟩
    intro ⟨_, content, _, _, _, rendered, _⟩
    cases failed.symm.trans rendered

private theorem Succeeds.noted {text : String} (h : Succeeds s ask l id name model r (cache, world) text after) :
    ∃ notes, Succeeds s (noted ask) l id name model r (cache, world, []) text (after.1, after.2, notes) ∧
      Notes s l id name model r cache notes := by
  obtain ⟨layout, content, cache', data, answered, compiled, known, rendered, supplied, loaded, world, run⟩ := h.stages
  refine ⟨question layout cache', ⟨?_⟩, notes_of_rendered known rendered⟩
  exact ⟨layout, content, cache', data, _, compiled, known, rendered, supplied.noted, loaded, by rw [world], run⟩

private theorem Fails.noted (h : Fails s ask l id name model r (cache, world) e after) :
    ∃ notes, Fails s (noted ask) l id name model r (cache, world, []) e (after.1, after.2, notes) ∧
      Notes s l id name model r cache notes := by
  cases h with
  | layout unknown => exact ⟨[], .layout unknown, notes_of_unknown unknown⟩
  | content known failed => exact ⟨[], .content known failed, notes_of_failed failed⟩
  | supplier known rendered refused =>
    exact ⟨_, .supplier known rendered refused.noted, notes_of_rendered known rendered⟩
  | load known rendered supplied failed =>
    have noted := supplied.noted
    have fails : Fails s (Site.noted ask) l id name model r (cache, world, []) e _ := .load known rendered noted failed
    exact ⟨_, fails, notes_of_rendered known rendered⟩
  | run known rendered supplied loaded failed =>
    have noted := supplied.noted
    have fails : Fails s (Site.noted ask) l id name model r (cache, world, []) e _ :=
      .run known rendered noted loaded failed
    exact ⟨_, fails, notes_of_rendered known rendered⟩

end Questions

/-- A layout whose supplier names the site. -/
def docs : Site where
  layouts := ⟨[⟨"docs", ⟨"layouts/docs"⟩, some fun _ => .ok [("site", .string "Docs")]⟩]⟩

/-- The layout of these pages, and a page. -/
def docsTexts : Locator where
  stores := [.memory "texts"
    [(⟨"layouts/docs"⟩, "\x7b\x7b site \x7d\x7d: \x7b\x7b content \x7d\x7d"), (⟨"pages/p"⟩, "body")]]
  extension := "html"

/-- A request for a part of a page. -/
def partRequest : Request := { htmx := { request := true } }

end Site
end Pageweave
