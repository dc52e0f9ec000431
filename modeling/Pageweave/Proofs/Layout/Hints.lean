import Mathlib.Data.Finset.Max
import Pageweave.Command.Run
import Pageweave.Proofs.Layout.Naming
import Pageweave.Proofs.Layout.Registering
import Pageweave.Proofs.Store.Directory
/-!
# Layouts that are hinted at

The hints are the last pieces of the listed keys below the layouts. A hint is registered as the key that it is cut from
if this key lies right below the layouts and its last piece is a plain id. So the hints are usable, and name all layouts
that are listed, exactly if every listed layout is such a one; a layout in a directory of its own is hinted at as another.
-/
namespace Pageweave

open Text

variable {e id : String} {k : Key} {w : Workplace} {files : FileTree} {listed : List (Key × String)} {x : Key × String}

namespace Layout

/-- A layout of this id is made, gets templates of the extension, and is registered; its template has this key. -/
def RegistersAs (e id : String) (k : Key) : Prop :=
  ∃ l l' r, make id none = .ok l ∧ l.forExtension e = .ok l' ∧ LayoutRegistry.register {} l' = .ok r ∧ l'.template = k

/-- An id that is not blank, is one segment, does not end in the extension, and is cut nowhere. -/
structure IsPlainId (e id : String) : Prop where
  visible : Text.trim id ≠ ""
  segment : Key.IsSegment id.toList
  no_extension : ∀ stem suffix, id.toList = stem ++ '.' :: suffix → sameLetters suffix e.toList = false
  whole : ¬Key.IsTorn Names.extension (Names.layouts ++ "/" ++ id) ∧ ¬Key.IsTorn e (Names.layouts ++ "/" ++ id)

theorem registersAs_iff : RegistersAs e id k ↔ Text.trim id ≠ "" ∧
    ¬Key.IsTorn Names.extension (Names.layouts ++ "/" ++ id) ∧
    Key.ofName? e (Names.layouts ++ "/" ++ id) = some k := by
  constructor
  · rintro ⟨l, l', r, made, configured, registered, rfl⟩
    obtain ⟨k₀, named, rfl⟩ := make_eq_ok.mp made
    obtain ⟨k', named', rfl⟩ := forExtension_eq_ok.mp configured
    obtain ⟨visible, -, -⟩ := LayoutRegistry.register_eq_ok_iff.mp registered
    exact ⟨visible, Key.named_eq_ok_iff.mp ⟨k₀, named⟩, Key.named_eq_ok.mp named'⟩
  · rintro ⟨visible, whole, named⟩
    obtain ⟨l, made⟩ := (make_eq_ok_iff id none).mpr whole
    obtain ⟨k₀, -, rfl⟩ := make_eq_ok.mp made
    refine ⟨_, ⟨id, k, none⟩, ⟨LayoutRegistry.place ⟨id, k, none⟩ []⟩, made, ?_, ?_, rfl⟩
    · exact forExtension_eq_ok.mpr ⟨k, Key.named_eq_ok.mpr named, rfl⟩
    · exact LayoutRegistry.register_eq_ok_iff.mpr ⟨visible, rfl, rfl⟩

instance (e id : String) (k : Key) : Decidable (RegistersAs e id k) := decidable_of_iff _ registersAs_iff.symm

theorem toList_below (id : String) : (Names.layouts ++ "/" ++ id).toList = Names.layouts.toList ++ '/' :: id.toList := by
  simp

theorem flat_below (segment : Key.IsSegment id.toList) :
    Key.flat (Names.layouts ++ "/" ++ id).toList = Names.layouts.toList ++ '/' :: id.toList := by
  have both : ∀ s ∈ [Names.layouts.toList, id.toList], Key.IsSegment s := by
    intro s there
    rcases List.mem_pair.mp there with rfl | rfl
    · decide
    · exact segment
  rw [toList_below]
  exact Key.flat_joined both

theorem isUnder_iff : k.isUnder Names.layouts = true ↔ ∃ rest, k.name.toList = Names.layouts.toList ++ '/' :: rest := by
  unfold Key.isUnder
  constructor
  · intro under
    cases behind : Text.after? Names.layouts.toList k.name.toList with
    | none => simp [behind] at under
    | some cs =>
      rw [behind] at under
      have whole := Text.after?_eq_some behind
      cases cs with
      | nil => cases under
      | cons c rest =>
        by_cases slash : c = '/'
        · exact ⟨rest, by rw [whole, slash]⟩
        · simp [slash] at under
  · rintro ⟨rest, name_eq⟩
    rw [name_eq, Text.after?_append]
    rfl

theorem baseName_below {rest : List Char} (name_eq : k.name.toList = Names.layouts.toList ++ '/' :: rest)
    (no_slash : '/' ∉ rest) : k.baseName = String.ofList rest := by
  have first : '/' ∉ Names.layouts.toList := by decide
  unfold Key.baseName Key.segments
  rw [name_eq, pieces_append, pieces_of_not_mem first, pieces_of_not_mem no_slash]
  rfl

theorem exists_rest {stem suffix : List Char} (no_slash : '/' ∉ suffix)
    (whole : Names.layouts.toList ++ '/' :: id.toList = stem ++ '.' :: suffix) :
    ∃ rest, stem = Names.layouts.toList ++ '/' :: rest ∧ id.toList = rest ++ '.' :: suffix := by
  rcases List.append_eq_append_iff.mp whole with ⟨more, stem_eq, behind⟩ | ⟨more, -, behind⟩
  · cases more with
    | nil => simp at behind
    | cons c rest =>
      obtain ⟨slash, id_eq⟩ := List.cons.inj behind
      exact ⟨rest, by rw [stem_eq, slash], id_eq⟩
  · have there : '/' ∈ '.' :: suffix := by
      rw [behind]
      simp
    rcases List.mem_cons.mp there with mark | inside
    · cases mark
    · exact absurd inside no_slash

theorem IsPlainId.registersAs (plain : IsPlainId e id) (no_slash : '/' ∉ e.toList)
    (name_eq : k.name = Names.layouts ++ "/" ++ id) : RegistersAs e id k := by
  obtain ⟨visible, segment, no_extension, whole, whole'⟩ := plain
  refine registersAs_iff.mpr ⟨visible, whole, ?_⟩
  obtain ⟨k', named⟩ := Key.named_eq_ok_iff.mpr whole'
  rw [Key.named_eq_ok] at named
  rw [named, Option.some.injEq]
  obtain ⟨stem, cut, rfl⟩ := Option.map_eq_some_iff.mp named
  rw [flat_below segment] at cut
  have kept : stem = Names.layouts.toList ++ '/' :: id.toList := by
    rcases Key.stem?_eq_some cut with unchanged | ⟨-, suffix, cut_off, letters⟩
    · exact unchanged
    · have unmarked : '/' ∉ suffix := fun there => no_slash ((mem_of_sameLetters (.inr (.inl rfl)) letters).mp there)
      obtain ⟨rest, -, id_eq⟩ := exists_rest unmarked cut_off
      rw [no_extension rest suffix id_eq] at letters
      cases letters
  obtain ⟨name⟩ := k
  rw [kept, ← toList_below, String.ofList_toList]
  exact congrArg Key.mk name_eq.symm

/-- A layout right below the others, under a plain id. -/
def IsDirect (e : String) (k : Key) : Prop := ∃ id, IsPlainId e id ∧ k.name = Names.layouts ++ "/" ++ id

theorem IsDirect.registersAs (direct : IsDirect e k) (unmarked : '/' ∉ e.toList) : RegistersAs e k.baseName k := by
  obtain ⟨id, plain, name_eq⟩ := direct
  have below : k.name.toList = Names.layouts.toList ++ '/' :: id.toList := by rw [name_eq, toList_below]
  rw [baseName_below below plain.segment.2.2.1, String.ofList_toList]
  exact plain.registersAs unmarked name_eq

theorem isSegment_of_isUnder (no_slash : '/' ∉ id.toList) (no_backslash : '\\' ∉ id.toList)
    (named : Key.ofName? e (Names.layouts ++ "/" ++ id) = some k) (under : k.isUnder Names.layouts = true) :
    Key.IsSegment id.toList := by
  by_contra idle
  have dot_or_none : id.toList = [] ∨ id.toList = ['.'] := by
    by_contra other
    rw [not_or] at other
    exact idle ⟨other.1, other.2, no_slash, no_backslash⟩
  have nothing : Key.flatSegments id.toList = [] := by
    rcases dot_or_none with same | same <;> rw [same] <;> rfl
  have flat : Key.flat (Names.layouts ++ "/" ++ id).toList = Names.layouts.toList := by
    rw [toList_below, Key.flat_eq_joined, Key.flatSegments_append (.inl rfl), nothing]
    rfl
  obtain ⟨stem, cut, rfl⟩ := Option.map_eq_some_iff.mp named
  obtain ⟨rest, below⟩ := isUnder_iff.mp under
  rw [String.toList_ofList] at below
  rw [flat] at cut
  have there : '/' ∈ Names.layouts.toList := by
    rcases Key.stem?_eq_some cut with unchanged | ⟨-, suffix, cut_off, -⟩
    · rw [← unchanged, below]
      simp
    · rw [cut_off, below]
      simp
  exact absurd there (by decide)

/-- Does the id end in the extension? -/
def EndsIn (e id : String) : Prop := ∃ stem suffix, id.toList = stem ++ '.' :: suffix ∧ sameLetters suffix e.toList = true

theorem IsPlainId.not_endsIn (plain : IsPlainId e id) : ¬EndsIn e id := by
  rintro ⟨stem, suffix, ends, letters⟩
  rw [plain.no_extension stem suffix ends] at letters
  cases letters

/-- What an id without marks is registered as, below the layouts: the key with its name if it is plain, and otherwise one
that lacks the extension. -/
theorem RegistersAs.cases (h : RegistersAs e id k) (unmarked : '/' ∉ e.toList) (no_slash : '/' ∉ id.toList)
    (no_backslash : '\\' ∉ id.toList) (under : k.isUnder Names.layouts = true) :
    IsPlainId e id ∧ k.name = Names.layouts ++ "/" ++ id ∨ EndsIn e id ∧ k.baseName.toList.length < id.toList.length := by
  obtain ⟨visible, whole, named⟩ := registersAs_iff.mp h
  have segment := isSegment_of_isUnder no_slash no_backslash named under
  obtain ⟨stem, cut, rfl⟩ := Option.map_eq_some_iff.mp named
  rw [flat_below segment] at cut
  rcases Key.stem?_eq_some cut with unchanged | ⟨-, suffix, cut_off, letters⟩
  · left
    have torn : ¬Key.IsTorn e (Names.layouts ++ "/" ++ id) :=
      Key.named_eq_ok_iff.mp ⟨_, Key.named_eq_ok.mpr named⟩
    refine ⟨⟨visible, segment, fun rest suffix id_eq => ?_, whole, torn⟩, ?_⟩
    · by_contra letters
      rw [Bool.not_eq_false] at letters
      have dotted : Names.layouts.toList ++ '/' :: id.toList = (Names.layouts.toList ++ '/' :: rest) ++ '.' :: suffix := by
        rw [id_eq, List.append_assoc, List.cons_append]
      rw [dotted, Key.stem?_of_sameLetters (by simp) letters, unchanged, dotted] at cut
      have size := congrArg List.length (Option.some.inj cut)
      simp at size
    · rw [unchanged, ← toList_below, String.ofList_toList]
  · right
    have unmarked_suffix : '/' ∉ suffix := fun there => unmarked ((mem_of_sameLetters (.inr (.inl rfl)) letters).mp there)
    obtain ⟨rest, stem_eq, id_eq⟩ := exists_rest unmarked_suffix cut_off
    have no_slash_rest : '/' ∉ rest := fun there => no_slash (by rw [id_eq]; exact List.mem_append_left _ there)
    refine ⟨⟨rest, suffix, id_eq, letters⟩, ?_⟩
    rw [baseName_below (by rw [String.toList_ofList, stem_eq]) no_slash_rest, String.toList_ofList, id_eq]
    simp

end Layout

namespace Workplace

/-- The hints that a listing gives. -/
def hints (listed : List (Key × String)) : List String :=
  ((listed.map Prod.fst).filter (·.isUnder Names.layouts)).map Key.baseName

theorem mem_hints : id ∈ hints listed ↔ ∃ x ∈ listed, x.1.isUnder Names.layouts = true ∧ x.1.baseName = id := by
  simp only [hints, List.mem_map, List.mem_filter]
  constructor
  · rintro ⟨k, ⟨⟨x, there, rfl⟩, under⟩, base⟩
    exact ⟨x, there, under, base⟩
  · rintro ⟨x, there, under, base⟩
    exact ⟨x.1, ⟨⟨x, there, rfl⟩, under⟩, base⟩

theorem not_mem_backslash_of_ofName? {given : String} (made : Key.ofName? e given = some k) : '\\' ∉ k.name.toList := by
  obtain ⟨front, last, pieces⟩ := Key.hasPieces_of_ofName? made
  rw [pieces.name_eq]
  intro there
  rcases mem_of_mem_joined there with mark | ⟨s, listed, inside⟩
  · cases mark
  · rcases List.mem_append.mp listed with older | newest
    · exact (pieces.isSegment s older).2.2.2 inside
    · exact pieces.no_backslash (List.mem_singleton.mp newest ▸ inside)

theorem not_mem_backslash_of_list (list : (w.locator files).list = .ok listed) (there : x ∈ listed) :
    '\\' ∉ x.1.name.toList := by
  have bundled : ∀ t ∈ Texts.bundled, '\\' ∉ t.1.name.toList := by decide +kernel
  obtain ⟨store, stacked, ks, lists, held⟩ := Locator.exists_store_of_mem_listInto list there
  rcases List.mem_pair.mp stacked with rfl | rfl
  · obtain ⟨name, made⟩ := Store.exists_ofName?_of_mem_listBelow lists held
    exact not_mem_backslash_of_ofName? made
  · obtain rfl : Texts.bundled.map Prod.fst = ks := Except.ok.inj lists
    obtain ⟨t, listed, same⟩ := List.mem_map.mp held
    rw [← same]
    exact bundled t listed

theorem knownLayouts_of_list (list : (w.locator files).list = .ok listed) : w.knownLayouts files = .ok (hints listed) := by
  unfold knownLayouts
  rw [list]
  rfl

/-- A listing fails at a file only, and then there are no hints. -/
theorem knownLayouts_of_list_error {fault : PageError} (some_char : w.settings.extension ≠ "")
    (unmarked : Key.IsUnmarked w.settings.extension) (failed : (w.locator files).list = .error fault) :
    w.knownLayouts files = .ok [] := by
  obtain ⟨store, stacked, failed'⟩ := Locator.exists_store_of_listInto_error failed
  unfold knownLayouts
  rw [failed]
  rcases List.mem_pair.mp stacked with rfl | rfl
  · obtain ⟨path, f, rfl⟩ := Store.file_of_listBelow some_char unmarked failed'
    rfl
  · cases failed'

theorem no_marks_of_hint (list : (w.locator files).list = .ok listed) (hinted : id ∈ hints listed) :
    '/' ∉ id.toList ∧ '\\' ∉ id.toList := by
  obtain ⟨x, there, -, rfl⟩ := mem_hints.mp hinted
  have plain := not_mem_backslash_of_list list there
  unfold Key.baseName Key.segments
  rw [String.toList_ofList]
  cases last : (pieces '/' x.1.name.toList).getLast? with
  | none => simp
  | some piece =>
    have cut := List.mem_of_getLast? last
    exact ⟨not_mem_of_mem_pieces cut, fun mark => plain (mem_of_mem_pieces cut mark)⟩

/-- Every hint is registered as a listed key, and every listed key below the layouts is one that a hint is registered
as. -/
structure Usable (e : String) (ids : List String) (listed : List (Key × String)) : Prop where
  registered : ∀ id ∈ ids, ∃ x ∈ listed, Layout.RegistersAs e id x.1
  hinted : ∀ x ∈ listed, x.1.isUnder Names.layouts = true → ∃ id ∈ ids, Layout.RegistersAs e id x.1

theorem Usable.exists_longer (usable : Usable e (hints listed) listed) (unmarked : '/' ∉ e.toList)
    (list : (w.locator files).list = .ok listed) (hinted : id ∈ hints listed) (ends : Layout.EndsIn e id) :
    ∃ more ∈ hints listed, Layout.EndsIn e more ∧ id.toList.length < more.toList.length := by
  obtain ⟨x, there, under, rfl⟩ := mem_hints.mp hinted
  obtain ⟨more, hinted', registers⟩ := usable.hinted x there under
  obtain ⟨no_slash, no_backslash⟩ := no_marks_of_hint list hinted'
  rcases registers.cases unmarked no_slash no_backslash under with ⟨plain, name_eq⟩ | ⟨extended, longer⟩
  · have below : x.1.name.toList = Names.layouts.toList ++ '/' :: more.toList := by rw [name_eq, Layout.toList_below]
    rw [Layout.baseName_below below no_slash, String.ofList_toList] at ends
    exact absurd ends plain.not_endsIn
  · exact ⟨more, hinted', extended, longer⟩

/-- The hints are finitely many, so there would be a longest one among those that end in the extension. -/
theorem Usable.not_endsIn (usable : Usable e (hints listed) listed) (unmarked : '/' ∉ e.toList)
    (list : (w.locator files).list = .ok listed) (hinted : id ∈ hints listed) : ¬Layout.EndsIn e id := by
  classical
  intro ends
  obtain ⟨longest, held, none_longer⟩ := Finset.exists_max_image ((hints listed).toFinset.filter (Layout.EndsIn e))
    (fun id => id.toList.length) ⟨id, Finset.mem_filter.mpr ⟨List.mem_toFinset.mpr hinted, ends⟩⟩
  obtain ⟨hinted', extended⟩ := Finset.mem_filter.mp held
  obtain ⟨more, hinted'', extended', longer⟩ := usable.exists_longer unmarked list (List.mem_toFinset.mp hinted') extended
  have bound := none_longer more (Finset.mem_filter.mpr ⟨List.mem_toFinset.mpr hinted'', extended'⟩)
  omega

theorem usable_iff (unmarked : '/' ∉ e.toList) (list : (w.locator files).list = .ok listed) :
    Usable e (hints listed) listed ↔ ∀ x ∈ listed, x.1.isUnder Names.layouts = true → Layout.IsDirect e x.1 := by
  constructor
  · intro usable x there under
    obtain ⟨id, hinted, registers⟩ := usable.hinted x there under
    obtain ⟨no_slash, no_backslash⟩ := no_marks_of_hint list hinted
    rcases registers.cases unmarked no_slash no_backslash under with direct | ⟨ends, -⟩
    · exact ⟨id, direct⟩
    · exact absurd ends (usable.not_endsIn unmarked list hinted)
  · intro direct
    constructor
    · intro id hinted
      obtain ⟨x, there, under, rfl⟩ := mem_hints.mp hinted
      exact ⟨x, there, (direct x there under).registersAs unmarked⟩
    · intro x there under
      exact ⟨x.1.baseName, mem_hints.mpr ⟨x, there, under, rfl⟩, (direct x there under).registersAs unmarked⟩

/-- With an extension of one piece there are always hints, none if the templates cannot be listed. They are usable, and
name every layout that is listed, exactly if each of them lies right below the layouts under a plain id; and such a
layout is hinted at by its id in any case. -/
theorem hints_usable_iff_direct (some_char : w.settings.extension ≠ "") (unmarked : Key.IsUnmarked w.settings.extension)
    (files : FileTree) :
    ∃ ids, w.knownLayouts files = .ok ids ∧ (∀ e, (w.locator files).list = .error e → ids = []) ∧
      ∀ listed, (w.locator files).list = .ok listed →
        (Usable w.settings.extension ids listed ↔
          ∀ x ∈ listed, x.1.isUnder Names.layouts = true → Layout.IsDirect w.settings.extension x.1) ∧
        ∀ x ∈ listed, Layout.IsDirect w.settings.extension x.1 →
          x.1.baseName ∈ ids ∧ Layout.RegistersAs w.settings.extension x.1.baseName x.1 := by
  have no_slash : '/' ∉ w.settings.extension.toList := fun there => (unmarked '/' there).2.1 rfl
  cases list : (w.locator files).list with
  | error e =>
    exact ⟨[], knownLayouts_of_list_error some_char unmarked list, fun _ _ => rfl, nofun⟩
  | ok listed =>
    refine ⟨hints listed, knownLayouts_of_list list, nofun, ?_⟩
    rintro _ ⟨⟩
    refine ⟨usable_iff no_slash list, fun x there direct => ⟨?_, direct.registersAs no_slash⟩⟩
    obtain ⟨id, -, name_eq⟩ := direct
    have under := Layout.isUnder_iff.mpr ⟨id.toList, by rw [name_eq, Layout.toList_below]⟩
    exact mem_hints.mpr ⟨x, there, under, rfl⟩

/-- A project that sets nothing. -/
def bare : Workplace := ⟨"", {}⟩

/-- One layout of the project, right below the others. -/
def directLayout : FileTree where
  nodes := [(["Templates"], .directory), (["Templates", "layouts"], .directory),
    (["Templates", "layouts", "main.html"], .file "main".toUTF8)]

theorem main_hints_usable : bare.settings.extension ≠ "" ∧ Key.IsUnmarked bare.settings.extension ∧
    bare.knownLayouts directLayout = .ok ["base", "main"] ∧
    ∃ listed, (bare.locator directLayout).list = .ok listed ∧
      Usable bare.settings.extension ["base", "main"] listed := by
  have some_char : bare.settings.extension ≠ "" := by decide
  have unmarked : Key.IsUnmarked bare.settings.extension := by decide
  have known : bare.knownLayouts directLayout = .ok ["base", "main"] := by decide +kernel
  have shown : ((bare.locator directLayout).list.toOption.map fun listed =>
      (listed.map Prod.fst).filter (·.isUnder Names.layouts)) = some [⟨"layouts/base"⟩, ⟨"layouts/main"⟩] := by
    decide +kernel
  obtain ⟨ids, hinted, -, usable⟩ := hints_usable_iff_direct some_char unmarked directLayout
  obtain rfl := Except.ok.inj (known.symm.trans hinted)
  cases list : (bare.locator directLayout).list with
  | error e =>
    rw [list] at shown
    cases shown
  | ok listed =>
    rw [list] at shown
    refine ⟨some_char, unmarked, known, listed, rfl, (usable listed list).1.mpr fun x there under => ?_⟩
    have plain : ∀ id ∈ ["base", "main"], Layout.IsPlainId "html" id := by
      intro id given
      have kept : Text.trim id ≠ "" ∧ Key.IsSegment id.toList ∧ '.' ∉ id.toList ∧
          ¬Key.IsTorn Names.extension (Names.layouts ++ "/" ++ id) := by
        revert id
        decide +kernel
      obtain ⟨visible, segment, no_dot, whole⟩ := kept
      refine ⟨visible, segment, fun stem suffix ends => ?_, whole, whole⟩
      exact absurd (by simp [ends]) no_dot
    have either : x.1 ∈ [(⟨"layouts/base"⟩ : Key), ⟨"layouts/main"⟩] := by
      rw [← Option.some.inj shown]
      exact List.mem_filter.mpr ⟨List.mem_map_of_mem there, under⟩
    rcases List.mem_pair.mp either with same | same
    · exact ⟨"base", plain _ (by decide), by rw [same]; decide⟩
    · exact ⟨"main", plain _ (by decide), by rw [same]; decide⟩

/-- One layout of the project, in a directory of its own. -/
def nestedLayout : FileTree where
  nodes := [(["Templates"], .directory), (["Templates", "layouts"], .directory),
    (["Templates", "layouts", "admin"], .directory),
    (["Templates", "layouts", "admin", "main.html"], .file "main".toUTF8)]

/-- It is hinted at by its last piece, and the id that is registered as its key is none of the hints. -/
theorem nested_hints_not_usable :
    bare.knownLayouts nestedLayout = .ok ["main", "base"] ∧
      Layout.RegistersAs "html" "admin/main" ⟨"layouts/admin/main"⟩ ∧
      ∃ listed, (bare.locator nestedLayout).list = .ok listed ∧
        (⟨"layouts/admin/main"⟩, Names.projectStore) ∈ listed ∧ ¬Usable "html" ["main", "base"] listed := by
  have shown : ((bare.locator nestedLayout).list.toOption.map fun listed =>
      listed.filter (·.1.isUnder Names.layouts)) = some [(⟨"layouts/admin/main"⟩, Names.projectStore),
        (⟨"layouts/base"⟩, Names.bundledStore)] := by
    decide +kernel
  refine ⟨by decide +kernel, by decide +kernel, ?_⟩
  cases list : (bare.locator nestedLayout).list with
  | error e =>
    rw [list] at shown
    cases shown
  | ok listed =>
    rw [list] at shown
    have kept : listed.filter (fun x => x.1.isUnder Names.layouts) = [(⟨"layouts/admin/main"⟩, Names.projectStore),
        (⟨"layouts/base"⟩, Names.bundledStore)] := Option.some.inj shown
    have there : (⟨"layouts/admin/main"⟩, Names.projectStore) ∈ listed :=
      List.mem_of_mem_filter (kept ▸ List.mem_cons_self)
    have neither : ∀ id ∈ ["main", "base"], ¬Layout.RegistersAs "html" id ⟨"layouts/admin/main"⟩ := by decide +kernel
    refine ⟨listed, rfl, there, fun usable => ?_⟩
    obtain ⟨id, hinted, registers⟩ := usable.hinted _ there (by decide)
    exact neither id hinted registers

end Workplace
end Pageweave
