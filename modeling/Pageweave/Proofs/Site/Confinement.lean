import Pageweave.Proofs.Key.Order
import Pageweave.Proofs.Loading.Pointing
import Pageweave.Proofs.Locator.Layers
import Pageweave.Proofs.Request.Context
import Pageweave.Proofs.Site.Composition
/-!
# What side data can reach

The supplier of a layout adds values to what the layout sees, but none under a key of the renderer: a supply that has
such a key ends the page before the layout runs. So the keys of the renderer have the values that they would have if
there were no supplier.
-/
namespace Pageweave

namespace Names

/-- The key belongs to the renderer. -/
def Reserved (key : String) : Prop := key = contentKey ∨ key = modelKey ∨ ∃ rest, key = "_" ++ rest

theorem isReserved_iff {key : String} : isReserved key = true ↔ Reserved key := by
  have underscore : key.toList.head? = some '_' ↔ ∃ rest, key = "_" ++ rest := by
    constructor
    · intro first
      obtain ⟨rest, chars⟩ := List.head?_eq_some_iff.mp first
      exact ⟨String.ofList rest, String.toList_injective (by simp [chars])⟩
    · rintro ⟨rest, rfl⟩
      simp
  simp [isReserved, Reserved, underscore, or_assoc]

instance (key : String) : Decidable (Reserved key) := decidable_of_iff _ isReserved_iff

end Names

namespace Fields

variable {key : String} {data : Fields}

/-- The byte-smallest key that belongs to the renderer. -/
structure IsFirstReserved (data : Fields) (key : String) : Prop where
  listed : key ∈ data.keys
  reserved : Names.Reserved key
  first : ∀ q ∈ data.keys, Names.Reserved q → q = key ∨ key.toUTF8.data.toList < q.toUTF8.data.toList

theorem IsFirstReserved.unique {q : String} (h : data.IsFirstReserved key) (h' : data.IsFirstReserved q) : key = q := by
  rcases h.first q h'.listed h'.reserved with same | below
  · exact same.symm
  · rcases h'.first key h.listed h.reserved with same | above
    · exact same
    · exact absurd below (List.lt_asymm above)

theorem Ordered.isFirstReserved_of_split {front back : Fields} {value : Value}
    (h : Ordered (front ++ (key, value) :: back)) (free : ∀ x ∈ front, Names.isReserved x.1 = false)
    (reserved : Names.isReserved key = true) : IsFirstReserved (front ++ (key, value) :: back) key where
  listed := by simp [keys]
  reserved := Names.isReserved_iff.mp reserved
  first q listed owned := by
    obtain ⟨x, there, rfl⟩ := List.mem_map.mp listed
    rcases List.mem_append.mp there with before | later
    · have unowned := free x before
      rw [Names.isReserved_iff.mpr owned] at unowned
      cases unowned
    · rcases List.mem_cons.mp later with rfl | behind
      · exact .inl rfl
      · have below := (List.pairwise_cons.mp (List.pairwise_append.mp h).2.1).1 x behind
        exact .inr (Key.lt_iff_bytes_lt (k := ⟨key⟩) (q := ⟨x.1⟩) |>.mp below)

/-- Either no key belongs to the renderer, or the fields split at the smallest that does. -/
theorem Ordered.free_or_isFirstReserved (h : data.Ordered) :
    (∀ x ∈ data, Names.isReserved x.1 = false) ∨
      ∃ front key value back, data = front ++ (key, value) :: back ∧ (∀ x ∈ front, Names.isReserved x.1 = false) ∧
        Names.isReserved key = true ∧ data.IsFirstReserved key := by
  cases reserved : data.find? (fun x => Names.isReserved x.1) with
  | none => exact .inl (by simpa using reserved)
  | some entry =>
    obtain ⟨first, front, back, rfl, free⟩ := List.find?_eq_some_iff_append.mp reserved
    have free : ∀ x ∈ front, Names.isReserved x.1 = false := by simpa using free
    exact .inr ⟨front, entry.1, entry.2, back, rfl, free, first, h.isFirstReserved_of_split free first⟩

end Fields

namespace Site

variable {w : Type} {s : Site} {ask : Asking w} {l : Locator} {id name content : String} {model : Value} {r : Request}
  {cache cache' : PageCache} {world : w} {layout : Layout} {supply : Supplier} {e : PageError} {data : Fields}
  {answered : PageCache × w}

theorem ordered_layoutContext (r : Request) (content : String) (model : Value) :
    Fields.Ordered (layoutContext r content model) := by
  have around := (Context.ordered_ofRequest r).insert Names.contentKey (.string content)
  unfold layoutContext
  split
  · exact around
  · exact around.insert _ _

/-- What a layout sees, of what it would see without a supplier and what that supplies. -/
structure Confined (base data context : Fields) : Prop where
  reserved : ∀ key, Names.Reserved key → Fields.get? key context = Fields.get? key base
  supplied : ∀ key ∈ data.keys, Fields.get? key context = Fields.get? key data
  other : ∀ key, key ∉ data.keys → Fields.get? key context = Fields.get? key base
  /-- The part that belongs to the renderer is the same as a whole. -/
  part : context.filter (fun x => Names.isReserved x.1) = base.filter fun x => Names.isReserved x.1

theorem confined_layoutContext (ordered : data.Ordered) (free : ∀ x ∈ data, Names.isReserved x.1 = false) :
    Confined (layoutContext r content model) data (Fields.merge (layoutContext r content model) data) := by
  have base := ordered_layoutContext r content model
  constructor
  · exact fun key reserved => get?_around_of_reserved free (Names.isReserved_iff.mpr reserved)
  · intro key listed
    obtain ⟨x, there, rfl⟩ := List.mem_map.mp listed
    rw [ordered.get?_merge, ordered.get?_eq_some_iff.mpr there]
    rfl
  · intro key absent
    rw [ordered.get?_merge, Fields.get?_eq_none_iff.mpr absent, Option.none_or]
  · refine Fields.Ordered.ext ((base.merge data).filter _) (base.filter _) fun key => ?_
    rw [Fields.get?_filter, Fields.get?_filter]
    split
    · rename_i reserved
      exact get?_around_of_reserved free reserved
    · rfl

/-- Runs a template on a context. -/
def runKey (s : Site) (l : Locator) (k : Key) (context : Context) : Rendering String := do
  let page ← s.compiledKey l k
  s.engine.execute page context

/-- The same site where a layout has no supplier. -/
def unsupplied (s : Site) (id : String) : Site where
  engine := s.engine
  layouts := ⟨s.layouts.layouts.map fun layout => if layout.id = id then { layout with supplier := none } else layout⟩
  defaultLayout := s.defaultLayout

theorem get?_unsupplied (known : s.layouts.get? id = some layout) :
    (s.unsupplied id).layouts.get? id = some { layout with supplier := none } := by
  change (s.layouts.layouts.map _).find? _ = _
  have same (m : Layout) : (if m.id = id then { m with supplier := none } else m).id = m.id := by
    split <;> rfl
  have named : layout.id = id := by simpa using List.find?_some known
  rw [List.find?_map, Function.comp_def]
  simp only [same]
  rw [show s.layouts.layouts.find? (fun m => m.id == id) = some layout from known, Option.map_some, if_pos named]

theorem compiledKey_unsupplied (s : Site) (id : String) : (s.unsupplied id).compiledKey = s.compiledKey := by
  unfold compiledKey unsupplied
  rfl

theorem renderFragment_unsupplied (s : Site) (id : String) : (s.unsupplied id).renderFragment = s.renderFragment := by
  unfold renderFragment renderContent compiled
  rw [compiledKey_unsupplied]
  rfl

theorem runKey_unsupplied (s : Site) (id : String) : (s.unsupplied id).runKey = s.runKey := by
  unfold runKey
  rw [compiledKey_unsupplied]
  rfl

theorem within_runKey_of_error {k : Key} {context : Context} {state : PageCache × w}
    (failed : s.compiledKey l k state.1 = (.error e, cache)) :
    (s.runKey l k context).within state = (.error e, cache, state.2) := by
  change ((s.runKey l k context state.1).1, (s.runKey l k context state.1).2, state.2) = _
  rw [runKey, bind_apply, failed]

theorem within_runKey_of_ok {k : Key} {context : Context} {state : PageCache × w} {page : Compiled}
    (loaded : s.compiledKey l k state.1 = (.ok page, cache)) :
    (s.runKey l k context).within state = (s.engine.execute page context, cache, state.2) := by
  change ((s.runKey l k context state.1).1, (s.runKey l k context state.1).2, state.2) = _
  rw [runKey, bind_apply, loaded]
  rfl

theorem composePage_of_supplies (whole : r.wantsFragment = false) (known : s.layouts.get? id = some layout)
    (rendered : s.renderFragment l name (.value model) r cache = (.ok content, cache'))
    (supplies : Supplies ask layout r (cache', world) data answered) :
    s.composePage ask l id name (.value model) r (cache, world) =
      (s.runKey l layout.template (Fields.merge (layoutContext r content model) data)).within answered := by
  rcases loaded : s.compiledKey l layout.template answered.1 with ⟨e | page, after⟩
  · rw [within_runKey_of_error loaded]
    exact (composePage_eq_error_iff whole).mpr (.load known rendered supplies loaded)
  · rw [within_runKey_of_ok loaded]
    cases run : s.engine.execute page (Fields.merge (layoutContext r content model) data) with
    | error e => exact (composePage_eq_error_iff whole).mpr (.run known rendered supplies loaded run)
    | ok text =>
      refine (composePage_eq_ok_iff whole).mpr ⟨layout, content, cache', data, answered, page, ?_⟩
      exact ⟨known, rendered, supplies, loaded, rfl, run⟩

theorem composePage_unsupplied (whole : r.wantsFragment = false) (known : s.layouts.get? id = some layout)
    (rendered : s.renderFragment l name (.value model) r cache = (.ok content, cache')) :
    (s.unsupplied id).composePage ask l id name (.value model) r (cache, world) =
      (s.runKey l layout.template (layoutContext r content model)).within (cache', world) := by
  have supplies : Supplies ask { layout with supplier := none } r (cache', world) [] (cache', world) := .nothing rfl
  rw [← renderFragment_unsupplied s id] at rendered
  have alone := composePage_of_supplies whole (get?_unsupplied known) rendered supplies
  rwa [runKey_unsupplied, Fields.merge_nil] at alone

theorem load_of_compiledKey {k : Key} (failed : s.compiledKey l k cache = (.error e, cache')) :
    s.engine.load l k = .error e := by
  unfold compiledKey Cache.getOrCompile at failed
  cases loads : s.engine.load l k with
  | error fault =>
    simp only [loads] at failed
    split at failed
    · cases failed
    · cases failed
      rfl
  | ok page =>
    simp only [loads] at failed
    split at failed
    · cases failed
    · cases failed

/-- Only what a supplier gives makes a page fail for a key of the renderer. -/
theorem runKey_ne_reservedKey {k : Key} {context : Context} {key : String} {state : PageCache × w}
    (plain : ∀ st ∈ l.stores, st.FailsOnFiles) :
    ((s.runKey l k context).within state).1 ≠ .error (.reservedKey id key) := by
  rcases loaded : s.compiledKey l k state.1 with ⟨e | page, after⟩
  · rw [within_runKey_of_error loaded]
    rintro ⟨⟩
    rcases Engine.load_error_cases (load_of_compiledKey loaded) with gathered | ⟨is_parse, -⟩
    · rcases Engine.refuses_of_gather gathered with ⟨q, refused⟩ | ⟨q, missing⟩ | malformed
      · obtain ⟨path, fault, file⟩ := Locator.file_of_findIn plain refused
        cases file
      · cases missing
      · cases malformed
    · cases is_parse
  · rw [within_runKey_of_ok loaded]
    unfold Engine.execute
    dsimp only
    split
    · nofun
    · split
      · nofun
      · nofun

/-- A supplier that gives a key of the renderer ends the page, with the byte-smallest such key, before the layout runs.
Otherwise the layout runs on what it would see without a supplier, with what is supplied over it, and the part of the
renderer is as it would be without a supplier, the same for all that may be supplied. Nothing else makes a page fail for
a key of the renderer, as long as stores fail on account of files only. -/
theorem side_data_confined (whole : r.wantsFragment = false) (known : s.layouts.get? id = some layout)
    (supplier : layout.supplier = some supply)
    (rendered : s.renderFragment l name (.value model) r cache = (.ok content, cache'))
    (answer : ask layout supply r (cache', world) = (.ok data, answered)) (ordered : data.Ordered) :
    let page := s.composePage ask l id name (.value model) r (cache, world)
    let base := layoutContext r content model
    (s.unsupplied id).composePage ask l id name (.value model) r (cache, world) =
        (s.runKey l layout.template base).within (cache', world) ∧
      ((∃ key ∈ data.keys, Names.Reserved key) → ∃ key, data.IsFirstReserved key ∧
        page = (.error (.reservedKey layout.id key), answered)) ∧
      ((∀ key ∈ data.keys, ¬Names.Reserved key) → ∃ context, Confined base data context ∧
        page = (s.runKey l layout.template context).within answered) ∧
      ((∀ st ∈ l.stores, st.FailsOnFiles) → ∀ id' key,
        page.1 = .error (.reservedKey id' key) ↔ id' = layout.id ∧ data.IsFirstReserved key) := by
  intro page base
  have alone : (s.unsupplied id).composePage ask l id name (.value model) r (cache, world) =
      (s.runKey l layout.template base).within (cache', world) := composePage_unsupplied whole known rendered
  rcases ordered.free_or_isFirstReserved with free | ⟨front, key, value, back, parts, free, reserved, first⟩
  · have unreserved : ∀ key ∈ data.keys, ¬Names.Reserved key := by
      intro key listed owned
      obtain ⟨x, there, rfl⟩ := List.mem_map.mp listed
      have unowned := free x there
      rw [Names.isReserved_iff.mpr owned] at unowned
      cases unowned
    have runs : page = (s.runKey l layout.template (Fields.merge base data)).within answered :=
      composePage_of_supplies whole known rendered (.asked supplier answer free)
    refine ⟨alone, ?_, fun _ => ⟨_, confined_layoutContext ordered free, runs⟩, fun plain id' key => ?_⟩
    · rintro ⟨key, listed, owned⟩
      exact absurd owned (unreserved key listed)
    · rw [runs]
      refine ⟨fun fails => absurd fails (runKey_ne_reservedKey plain), ?_⟩
      rintro ⟨-, first⟩
      exact absurd first.reserved (unreserved key first.listed)
  · have ends : page = (.error (.reservedKey layout.id key), answered) :=
      (composePage_eq_error_iff whole).mpr
        (.supplier known rendered (.reserved supplier (parts ▸ answer) free reserved))
    refine ⟨alone, fun _ => ⟨key, first, ends⟩, fun unreserved => ?_, fun _ id' q => ?_⟩
    · exact absurd first.reserved (unreserved key first.listed)
    · rw [ends]
      constructor
      · rintro ⟨⟩
        exact ⟨rfl, first⟩
      · rintro ⟨rfl, other⟩
        rw [first.unique other]

theorem docs_side_data_confined :
    ∃ cache context, docs.renderFragment docsTexts "pages/p" (.value .null) {} {} = (.ok "body", cache) ∧
      Confined (layoutContext {} "body" .null) [("site", .string "Docs")] context ∧
      docs.composePage Asking.plain docsTexts "docs" "pages/p" (.value .null) {} ({}, ()) =
        (docs.runKey docsTexts ⟨"layouts/docs"⟩ context).within (cache, ()) ∧
      ∀ id key, (docs.composePage Asking.plain docsTexts "docs" "pages/p" (.value .null) {} ({}, ())).1 ≠
        .error (.reservedKey id key) := by
  have text : (docs.renderFragment docsTexts "pages/p" (.value .null) {} {}).1.toOption = some "body" := by
    decide +kernel
  rcases fragment : docs.renderFragment docsTexts "pages/p" (.value .null) {} {} with ⟨_ | body, cache⟩
  · rw [fragment] at text
    cases text
  · rw [fragment] at text
    obtain rfl := Option.some.inj text
    let supply : Supplier := fun _ => .ok [("site", .string "Docs")]
    have known : docs.layouts.get? "docs" = some ⟨"docs", ⟨"layouts/docs"⟩, some supply⟩ := rfl
    have answer : Asking.plain ⟨"docs", ⟨"layouts/docs"⟩, some supply⟩ supply {} (cache, ()) =
        (.ok [("site", .string "Docs")], cache, ()) := rfl
    have unreserved : ∀ key ∈ Fields.keys [("site", .string "Docs")], ¬Names.Reserved key := by decide
    obtain ⟨-, -, accepted, refused⟩ := side_data_confined rfl known rfl fragment answer (List.pairwise_singleton _ _)
    obtain ⟨context, confined, runs⟩ := accepted unreserved
    refine ⟨cache, context, rfl, confined, runs, fun id key fails => ?_⟩
    have plain : ∀ st ∈ docsTexts.stores, st.FailsOnFiles := by
      intro st listed
      obtain rfl := List.mem_singleton.mp listed
      exact Store.memory_failsOnFiles _ _
    obtain ⟨-, first⟩ := (refused plain id key).mp fails
    exact unreserved key first.listed first.reserved

end Site
end Pageweave
