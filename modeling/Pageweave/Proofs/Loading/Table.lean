import Mathlib.Data.List.Nodup
import Pageweave.Proofs.Loading.Closure
import Pageweave.Proofs.Template.Library
/-!
# What names mean in a page

A page holds the texts that it was read from under the names that refer to them. Every name is held with the text that
the locator finds behind it, or not at all if there is none, except for the name that is written like the page's own key:
under it the page holds itself, whatever the locator finds there.
-/
namespace Pageweave

namespace Compiled

/-- The texts that a page was read from, by name. -/
def texts (c : Compiled) : List (String × String) := (c.key.name, c.source) :: c.included.map fun i => (i.name, i.text)

/-- A reference of the page's own text, or of a text that was loaded with it, has this name. -/
def Mentions (c : Compiled) (name : String) : Prop := ∃ e ∈ c.texts, Refers e.2 name

/-- Under a name a page holds just this text and what it reads as; or nothing at all. -/
structure Holds (c : Compiled) (name : String) (text? : Option String) : Prop where
  texts : ∀ text, (name, text) ∈ c.texts ↔ text? = some text
  page : (c.library.page? name).map (fun page => .ok page.source) = text?.map (Template.Source.read name)

end Compiled

namespace Worklist

variable {l : Locator} {k : Key} {w w' : Worklist} {t : Trying} {name : String} {rest : List String} {s : Source}

/-- A text is included under each name that has one, once, and under no other. -/
structure Tabled (l : Locator) (k : Key) (w : Worklist) : Prop where
  names : (w.loaded.included.map Included.name).Nodup
  own : w.seen? k.name = some true
  included : ∀ i ∈ w.loaded.included, i.name ≠ k.name ∧ w.seen? i.name = some true ∧
    ∃ q s, l.key i.name = .ok q ∧ l.find q = .ok (some s) ∧ i.text = s.text
  found : ∀ x, x ≠ k.name → w.seen? x = some true → ∃ i ∈ w.loaded.included, i.name = x
  absent : ∀ x, x ≠ k.name → w.seen? x = some false → ∃ q, l.key x = .ok q ∧ l.find q = .ok none

private theorem tabled_start (l : Locator) (k : Key) (text : String) : (start k text).Tabled l k where
  names := List.nodup_nil
  own := by rw [seen?_start, if_pos rfl]
  included _ none_there := absurd none_there List.not_mem_nil
  found x other seen := by
    rw [seen?_start, if_neg (Ne.symm other)] at seen
    cases seen
  absent x other seen := by
    rw [seen?_start, if_neg (Ne.symm other)] at seen
    cases seen

private theorem Tabled.congr (h : w.Tabled l k) (loaded : w'.loaded = w.loaded) (seen : w'.seen = w.seen) :
    w'.Tabled l k := by
  have same (x : String) : w'.seen? x = w.seen? x := by
    unfold seen?
    rw [seen]
  refine ⟨?_, ?_, ?_, ?_, ?_⟩
  · rw [loaded]
    exact h.names
  · rw [same]
    exact h.own
  · rw [loaded]
    simpa only [same] using h.included
  · rw [loaded]
    simpa only [same] using h.found
  · simpa only [same] using h.absent

private theorem Tabled.ne_of_new (h : w.Tabled l k) (new : w.seen? name = none) : name ≠ k.name := by
  rintro rfl
  rw [h.own] at new
  cases new

private theorem Tabled.found_step {q : Key} (h : w.Tabled l k) (new : w.seen? name = none) (key : l.key name = .ok q)
    (there : l.find q = .ok (some s)) : (w.found name s).Tabled l k where
  names := by
    have apart : ∀ i ∈ w.loaded.included, i.name ≠ name := by
      rintro i listed rfl
      rw [(h.included i listed).2.1] at new
      cases new
    have list : ((w.found name s).loaded.included.map Included.name) = w.loaded.included.map Included.name ++ [name] := by
      simp [Worklist.found]
    rw [list, List.nodup_append]
    refine ⟨h.names, List.nodup_singleton name, ?_⟩
    intro x listed y last
    obtain ⟨i, held, rfl⟩ := List.mem_map.mp listed
    obtain rfl := List.mem_singleton.mp last
    exact apart i held
  own := seen?_found_of_some h.own
  included i listed := by
    rcases List.mem_append.mp listed with older | newest
    · obtain ⟨other, seen, behind⟩ := h.included i older
      exact ⟨other, seen?_found_of_some seen, behind⟩
    · obtain rfl := List.mem_singleton.mp newest
      refine ⟨h.ne_of_new new, ?_, q, s, key, there, rfl⟩
      simp [seen?_found, new]
  found x other seen := by
    rw [seen?_found] at seen
    by_cases this : name = x
    · exact ⟨_, List.mem_append_right _ (List.mem_singleton.mpr rfl), this⟩
    · rw [if_neg this, Option.or_none] at seen
      obtain ⟨i, listed, same⟩ := h.found x other seen
      exact ⟨i, List.mem_append_left _ listed, same⟩
  absent x other seen := by
    rw [seen?_found] at seen
    by_cases this : name = x
    · rw [← this, new] at seen
      simp at seen
    · rw [if_neg this, Option.or_none] at seen
      exact h.absent x other seen

private theorem Tabled.absent_step {q : Key} (h : w.Tabled l k) (new : w.seen? name = none) (key : l.key name = .ok q)
    (missing : l.find q = .ok none) : (w.absent name q).Tabled l k where
  names := h.names
  own := seen?_absent_of_some h.own
  included i listed := by
    obtain ⟨other, seen, behind⟩ := h.included i listed
    exact ⟨other, seen?_absent_of_some seen, behind⟩
  found x other seen := by
    rw [seen?_absent] at seen
    by_cases this : name = x
    · rw [← this, new] at seen
      simp at seen
    · rw [if_neg this, Option.or_none] at seen
      exact h.found x other seen
  absent x other seen := by
    by_cases this : name = x
    · exact ⟨q, this ▸ key, missing⟩
    · rw [seen?_absent, if_neg this, Option.or_none] at seen
      exact h.absent x other seen

end Worklist

/-- What a load ends with: each name that is referred to, apart from the page's own, is included with the text that the
locator finds behind it, or not at all if there is none. -/
structure Loaded.IsTable (l : Locator) (k : Key) (text : String) (p : Loaded) : Prop where
  key_eq : p.key = k
  text_eq : p.text = text
  names : ((k.name, text) :: p.included.map fun i => (i.name, i.text)).map Prod.fst |>.Nodup
  located : ∀ i ∈ p.included, ∃ q s, l.key i.name = .ok q ∧ l.find q = .ok (some s) ∧ i.text = s.text
  means : ∀ name, Refers text name ∨ (∃ i ∈ p.included, Refers i.text name) → name ≠ k.name →
    ∃ q found, l.key name = .ok q ∧ l.find q = .ok found ∧
      ∀ t, (∃ i ∈ p.included, i.name = name ∧ i.text = t) ↔ found.map Source.text = some t

namespace Worklist

variable {l : Locator} {k : Key} {w : Worklist} {name text : String}

private theorem Frontier.seen_of_refers (frontier : w.Frontier l k text) (tabled : w.Tabled l k) (idle : w.trying = none)
    (queue : w.queue = []) (refers : Refers text name ∨ ∃ i ∈ w.loaded.included, Refers i.text name) :
    (w.seen? name).isSome = true := by
  have met : w.Meets name := by
    rcases refers with own | ⟨i, listed, mentioned⟩
    · exact frontier.own name own
    · obtain ⟨other, seen, q, s, key, found, text_eq⟩ := tabled.included i listed
      obtain ⟨q', key', -, meets⟩ := frontier.seen i.name (by rw [seen]; rfl) other
      obtain rfl : q = q' := Except.ok.inj (key.symm.trans key')
      exact meets s found name (text_eq ▸ mentioned)
  exact met.resolve_right (not_pending_of_idle idle queue)

private theorem Tabled.isTable (tabled : w.Tabled l k) (frontier : w.Frontier l k text) (idle : w.trying = none)
    (queue : w.queue = []) : w.loaded.IsTable l k text where
  key_eq := frontier.key_eq
  text_eq := frontier.text_eq
  names := by
    rw [List.map_cons, List.map_map]
    refine List.nodup_cons.mpr ⟨?_, tabled.names⟩
    intro listed
    obtain ⟨i, held, same⟩ := List.mem_map.mp listed
    exact (tabled.included i held).1 same
  located i listed := (tabled.included i listed).2.2
  means name refers other := by
    obtain ⟨there, seen⟩ := Option.isSome_iff_exists.mp (frontier.seen_of_refers tabled idle queue refers)
    cases there with
    | true =>
      obtain ⟨i, listed, rfl⟩ := tabled.found name other seen
      obtain ⟨-, -, q, s, key, found, text_eq⟩ := tabled.included i listed
      refine ⟨q, some s, key, found, fun t => ⟨?_, ?_⟩⟩
      · rintro ⟨i', listed', same, rfl⟩
        rw [List.inj_on_of_nodup_map tabled.names listed' listed same, text_eq]
        rfl
      · intro same
        exact ⟨i, listed, rfl, text_eq.trans (Option.some.inj same)⟩
    | false =>
      obtain ⟨q, key, missing⟩ := tabled.absent name other seen
      refine ⟨q, none, key, missing, fun t => ⟨?_, nofun⟩⟩
      rintro ⟨i, listed, rfl, -⟩
      rw [(tabled.included i listed).2.1] at seen
      cases seen

end Worklist

namespace Loading

variable {l : Locator} {k : Key} {s s' : Loading} {asked : Option Key}

/-- All that a load has met so far is in its table, and nothing else is. -/
def OnTable (l : Locator) (k : Key) : Loading → Prop
  | .opening q => q = k
  | .reading w => ∃ x, l.find k = .ok (some x) ∧ w.Frontier l k x.text ∧ w.Tabled l k
  | .done (.ok p) => ∃ x, l.find k = .ok (some x) ∧ p.IsTable l k x.text
  | .done (.error _) => False

private theorem OnTable.onFrontier (h : s.OnTable l k) (goes_on : ∀ r, s ≠ .done r) : s.OnFrontier l k := by
  cases s with
  | opening q => exact h
  | reading w =>
    obtain ⟨x, found, frontier, -⟩ := h
    exact ⟨x, found, frontier⟩
  | done r => exact absurd rfl (goes_on r)

private theorem onTable_reading {w w' : Worklist} (h : Progress l (.reading w) asked (.reading w'))
    (before : Loading.OnTable l k (.reading w)) (keeps : w.Tabled l k → w'.Tabled l k) :
    Loading.OnTable l k (.reading w') := by
  obtain ⟨x, found, frontier⟩ := h.onFrontier (before.onFrontier nofun)
  obtain ⟨-, -, -, tabled⟩ := before
  exact ⟨x, found, frontier, keeps tabled⟩

theorem Progress.onTable (h : Progress l s asked s') (before : s.OnTable l k) : s'.OnTable l k := by
  have step := h
  cases h with
  | «open» found =>
    obtain ⟨x, there, frontier⟩ := step.onFrontier (before.onFrontier nofun)
    obtain rfl : _ = k := before
    exact ⟨x, there, frontier, Worklist.tabled_start l _ _⟩
  | known _ _ _ => exact onTable_reading step before fun tabled => tabled.congr rfl rfl
  | found _ _ new key there =>
    exact onTable_reading step before fun tabled => (tabled.found_step new key there).congr rfl rfl
  | absent _ _ new key missing =>
    exact onTable_reading step before fun tabled => (tabled.absent_step new key missing).congr rfl rfl
  | content _ _ _ => exact onTable_reading step before fun tabled => tabled.congr rfl rfl
  | late _ _ _ _ _ _ => exact onTable_reading step before fun tabled => tabled.congr rfl rfl
  | next _ _ => exact onTable_reading step before fun tabled => tabled.congr rfl rfl
  | finish idle queue =>
    obtain ⟨x, found, frontier, tabled⟩ := before
    exact ⟨x, found, tabled.isTable frontier idle queue⟩
  | done _ => exact before

end Loading

namespace Engine

variable {e : Engine} {l : Locator} {k : Key} {c : Compiled} {name : String}

theorem library_of_assemble {p : Loaded} (assembled : e.assemble p = .ok c) :
    c.key = p.key ∧ c.included = p.included ∧
      Template.Library.build ((p.key.name, p.text) :: p.included.map fun i => (i.name, i.text)) = .ok c.library := by
  unfold assemble compile at assembled
  cases built : Template.Library.build ((p.key.name, p.text) :: p.included.map fun i => (i.name, i.text)) with
  | error fault =>
    rw [built] at assembled
    cases assembled
  | ok library =>
    rw [built] at assembled
    cases assembled
    exact ⟨rfl, rfl, rfl⟩

theorem table_of_gather {p : Loaded} (gathered : gather l k = .ok p) :
    ∃ x, l.find k = .ok (some x) ∧ p.IsTable l k x.text := by
  obtain ⟨fuel, ends⟩ := run_of_gather gathered
  exact Loading.run_ok_induction (s := .opening k) (fun _ _ _ progress => progress.onTable) rfl ends

theorem table_of_load (loaded : e.load l k = .ok c) :
    ∃ x p, l.find k = .ok (some x) ∧ p.IsTable l k x.text ∧ e.assemble p = .ok c := by
  obtain ⟨p, gathered, assembled⟩ := gather_of_load loaded
  obtain ⟨x, found, table⟩ := table_of_gather gathered
  exact ⟨x, p, found, table, assembled⟩

theorem source_of_load (loaded : e.load l k = .ok c) : ∃ x, l.find k = .ok (some x) ∧ c.source = x.text := by
  obtain ⟨x, p, found, table, assembled⟩ := table_of_load loaded
  exact ⟨x, found, (of_assemble assembled).1.trans table.text_eq⟩

/-- A page that was loaded holds its texts under their names, and each name once. -/
theorem holds_of_load {text? : Option String} (loaded : e.load l k = .ok c)
    (texts : ∀ text, (name, text) ∈ c.texts ↔ text? = some text) : c.Holds name text? := by
  obtain ⟨x, p, -, table, assembled⟩ := table_of_load loaded
  obtain ⟨key, included, built⟩ := library_of_assemble assembled
  have texts_eq : c.texts = (p.key.name, p.text) :: p.included.map fun i => (i.name, i.text) := by
    rw [Compiled.texts, key, included, (of_assemble assembled).1]
  have once : (c.texts.map Prod.fst).Nodup := by
    rw [texts_eq, table.key_eq, table.text_eq]
    exact table.names
  rw [← texts_eq] at built
  refine ⟨texts, ?_⟩
  cases text? with
  | none =>
    have absent : ∀ text, (name, text) ∉ c.texts := fun text listed => nomatch (texts text).mp listed
    rw [Template.Library.page?_of_not_mem built once absent]
    rfl
  | some text =>
    obtain ⟨page, there, read⟩ := Template.Library.page?_of_mem built once ((texts text).mpr rfl)
    rw [there, Option.map_some, Option.map_some, read]

/-- Under its own name a page holds itself. -/
theorem holds_self (loaded : e.load l k = .ok c) : c.Holds k.name (some c.source) := by
  obtain ⟨x, p, -, table, assembled⟩ := table_of_load loaded
  obtain ⟨key, included, -⟩ := library_of_assemble assembled
  have of_key : c.key = k := key.trans table.key_eq
  have apart : ∀ i ∈ c.included, i.name ≠ k.name := by
    intro i listed same
    rw [included] at listed
    have new := (List.nodup_cons.mp table.names).1
    rw [List.map_map] at new
    exact new (List.mem_map.mpr ⟨i, listed, same⟩)
  refine holds_of_load loaded fun text => ?_
  simp only [Compiled.texts, of_key, List.mem_cons, List.mem_map, Prod.mk.injEq, true_and, Option.some.injEq]
  constructor
  · rintro (same | ⟨i, listed, same, -⟩)
    · exact same.symm
    · exact absurd same (apart i listed)
  · exact fun same => .inl same.symm

/-- Under every other name that it refers to a page holds what is found there. -/
theorem holds_of_mentions (loaded : e.load l k = .ok c) (mentioned : c.Mentions name) (other : name ≠ k.name) :
    ∃ q found, l.key name = .ok q ∧ l.find q = .ok found ∧ c.Holds name (found.map Source.text) := by
  obtain ⟨x, p, -, table, assembled⟩ := table_of_load loaded
  obtain ⟨key, included, -⟩ := library_of_assemble assembled
  have source : c.source = x.text := (of_assemble assembled).1.trans table.text_eq
  have refers : Refers x.text name ∨ ∃ i ∈ p.included, Refers i.text name := by
    obtain ⟨text, listed, refers⟩ := mentioned
    rcases List.mem_cons.mp listed with rfl | later
    · exact .inl (source ▸ refers)
    · obtain ⟨i, held, rfl⟩ := List.mem_map.mp later
      exact .inr ⟨i, included ▸ held, refers⟩
  obtain ⟨q, found, named, finds, texts⟩ := table.means name refers other
  refine ⟨q, found, named, finds, holds_of_load loaded fun text => ?_⟩
  rw [← texts text, ← included]
  simp [Compiled.texts, key.trans table.key_eq, other]

/-- Whatever name a page refers to, it holds under it what the locator finds there, which is also what a page loaded by
that name is made from; or nothing if there is nothing. The name that is written like the page's own key is an exception
unless it belongs to that key: it always means the page itself. -/
theorem names_mean_located (loaded : e.load l k = .ok c) (mentioned : c.Mentions name) :
    (name ≠ k.name ∨ l.key name = .ok k →
      ∃ q found, l.key name = .ok q ∧ l.find q = .ok found ∧ c.Holds name (found.map Source.text) ∧
        ∀ c', e.load l q = .ok c' → c.Holds name (some c'.source)) ∧
    (name = k.name → c.Holds name (some c.source)) := by
  have self := holds_self loaded
  refine ⟨fun usual => ?_, fun same => same ▸ self⟩
  obtain ⟨q, found, named, finds, holds⟩ :
      ∃ q found, l.key name = .ok q ∧ l.find q = .ok found ∧ c.Holds name (found.map Source.text) := by
    by_cases same : name = k.name
    · obtain ⟨x, own, source⟩ := source_of_load loaded
      refine ⟨k, some x, usual.resolve_left (absurd same), own, ?_⟩
      rw [Option.map_some, ← source, same]
      exact self
    · exact holds_of_mentions loaded mentioned same
  refine ⟨q, found, named, finds, holds, fun c' direct => ?_⟩
  obtain ⟨s, there, text_eq⟩ := source_of_load direct
  rw [finds] at there
  obtain rfl := Except.ok.inj there
  rw [text_eq]
  exact holds

theorem ring_names_mean_located :
    ∃ c, load {} ring ⟨"a"⟩ = .ok c ∧ c.Mentions "./b" ∧ c.Mentions "no" ∧
      c.Holds "./b" (some "\x7b% include ['a.html', 'b'] %\x7d") ∧ c.Holds "no" none := by
  have texts : (load {} ring ⟨"a"⟩).toOption.map (·.texts) =
      some [("a", "\x7b% include ['./b', 'no'] %\x7d"), ("./b", "\x7b% include ['a.html', 'b'] %\x7d"),
        ("a.html", "\x7b% include ['./b', 'no'] %\x7d"), ("b", "\x7b% include ['a.html', 'b'] %\x7d")] := by
    decide +kernel
  obtain ⟨c, loaded, held⟩ := load_of_toOption_map texts
  have mentions : c.Mentions "./b" ∧ c.Mentions "no" := by
    unfold Compiled.Mentions Refers
    rw [held]
    decide +kernel
  obtain ⟨q, found, key, finds, near, -⟩ := (names_mean_located loaded mentions.1).1 (.inl (by decide))
  obtain ⟨q', found', key', finds', far, -⟩ := (names_mean_located loaded mentions.2).1 (.inl (by decide))
  have near_there : ring.key "./b" = .ok ⟨"b"⟩ ∧
      ring.find ⟨"b"⟩ = .ok (some ⟨⟨"b"⟩, "\x7b% include ['a.html', 'b'] %\x7d", "texts"⟩) := by
    decide +kernel
  have far_missing : ring.key "no" = .ok ⟨"no"⟩ ∧ ring.find ⟨"no"⟩ = .ok none := by
    decide +kernel
  obtain rfl := Except.ok.inj (near_there.1.symm.trans key)
  obtain rfl := Except.ok.inj (near_there.2.symm.trans finds)
  obtain rfl := Except.ok.inj (far_missing.1.symm.trans key')
  obtain rfl := Except.ok.inj (far_missing.2.symm.trans finds')
  exact ⟨c, loaded, mentions.1, mentions.2, near, far⟩

/-- Two pages, the key of one of which is written like the name of the other one's file. -/
def twins : Locator where
  stores := [.memory "texts" [(⟨"a"⟩, "other"), (⟨"a.html"⟩, "\x7b% include 'a.html' %\x7d")]]
  extension := "html"

/-- A name that is written like the page's own key means the page, although the locator finds another text behind it. -/
theorem own_key_name_not_located :
    ∃ c, load {} twins ⟨"a.html"⟩ = .ok c ∧ c.Mentions "a.html" ∧ twins.key "a.html" = .ok ⟨"a"⟩ ∧
      twins.find ⟨"a"⟩ = .ok (some ⟨⟨"a"⟩, "other", "texts"⟩) ∧ ¬ c.Holds "a.html" (some "other") := by
  have texts : (load {} twins ⟨"a.html"⟩).toOption.map (·.texts) =
      some [("a.html", "\x7b% include 'a.html' %\x7d")] := by
    decide +kernel
  obtain ⟨c, loaded, held⟩ := load_of_toOption_map texts
  have mentions : c.Mentions "a.html" := by
    unfold Compiled.Mentions Refers
    rw [held]
    decide +kernel
  refine ⟨c, loaded, mentions, by decide +kernel, by decide +kernel, fun holds => ?_⟩
  have listed : ("a.html", "other") ∈ c.texts := (holds.texts "other").mpr rfl
  rw [held] at listed
  revert listed
  decide

end Engine
end Pageweave
