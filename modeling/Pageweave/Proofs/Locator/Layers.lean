import Pageweave.Proofs.Locator.Listing
/-!
# Stores in layers

What stores in front of others find, or fail with, hides those behind them; keys that they do not have are looked for
behind as if nothing were in front. Whether a key exists, how it is resolved and who is listed for it follow from this,
though each is a loop of its own.
-/
namespace Pageweave

/-- Reading fails on account of files only; a key that the store does not have is no failure. -/
def Store.FailsOnFiles (s : Store) : Prop := ∀ k e, s.read k = .error e → ∃ path fault, e = .file path fault

theorem Store.directory_failsOnFiles (files : FileTree) (name root extension : String) :
    (Store.directory files name root extension).FailsOnFiles := by
  intro k e fails
  change readBelow files root extension k = .error e at fails
  unfold readBelow at fails
  simp only at fails
  split_ifs at fails with contained
  split at fails
  · split at fails
    · cases fails
    · exact ⟨_, _, (Except.error.inj fails).symm⟩
  · cases fails
  · cases fails
  · exact ⟨_, _, (Except.error.inj fails).symm⟩

theorem Store.memory_failsOnFiles (name : String) (texts : Texts) : (Store.memory name texts).FailsOnFiles :=
  fun _ _ fails => by cases fails

theorem Origin.store_failsOnFiles (files : FileTree) (o : Origin) : (o.store files).FailsOnFiles := by
  cases o with
  | directory name root extension => exact Store.directory_failsOnFiles files name root extension
  | memory name texts => exact Store.memory_failsOnFiles name texts

namespace Locator

variable {l : Locator} {k q : Key} {p : String} {front back stores : List Store} {e : PageError} {s : Source}
  {noted a b c : List (Key × String)}

theorem findIn_append (front back : List Store) (k : Key) :
    findIn (front ++ back) k = match findIn front k with
      | .ok none => findIn back k
      | answer => answer := by
  induction front with
  | nil => rfl
  | cons s rest ih =>
    rw [List.cons_append, findIn, findIn]
    cases s.read k with
    | error e => rfl
    | ok text =>
      cases text with
      | none => exact ih
      | some text => rfl

theorem existsIn_eq (stores : List Store) (k : Key) : existsIn stores k = (findIn stores k).map Option.isSome := by
  induction stores with
  | nil => rfl
  | cons s rest ih =>
    rw [existsIn, findIn]
    cases s.read k with
    | error e => rfl
    | ok text =>
      cases text with
      | none => exact ih
      | some text => rfl

theorem file_of_findIn (plain : ∀ s ∈ stores, s.FailsOnFiles) (fails : findIn stores k = .error e) :
    ∃ path fault, e = .file path fault := by
  induction stores with
  | nil => cases fails
  | cons s rest ih =>
    rw [findIn] at fails
    cases reads : s.read k with
    | error e' =>
      rw [reads] at fails
      obtain rfl := Except.error.inj fails
      exact plain s List.mem_cons_self k _ reads
    | ok text =>
      rw [reads] at fails
      cases text with
      | none => exact ih (fun t there => plain t (List.mem_cons_of_mem s there)) fails
      | some text => cases fails

theorem listInto_append (front back : List Store) (noted : List (Key × String)) :
    listInto (front ++ back) noted = listInto front noted >>= listInto back := by
  induction front generalizing noted with
  | nil => rfl
  | cons s rest ih =>
    rw [List.cons_append]
    cases lists : s.list with
    | error e => simp only [listInto, lists]; rfl
    | ok ks => rw [listInto_cons lists, listInto_cons lists, ih]

theorem exists_listInto (lists : listInto stores a = .ok b) (noted : List (Key × String)) :
    ∃ c, listInto stores noted = .ok c := by
  induction stores generalizing a noted with
  | nil => exact ⟨noted, rfl⟩
  | cons s rest ih =>
    cases own : s.list with
    | error e => simp [listInto, own] at lists
    | ok ks =>
      rw [listInto_cons own] at lists ⊢
      exact ih lists _

/-- What is listed behind other stores is what they do not list. -/
theorem mem_listInto_append (upper : listInto front [] = .ok a) (lower : listInto back [] = .ok b)
    (both : listInto (front ++ back) [] = .ok c) : (q, p) ∈ c ↔ (q, p) ∈ a ∨ (q, p) ∈ b ∧ ∀ r, (q, r) ∉ a := by
  rw [listInto_append, upper] at both
  have behind : listInto back a = .ok c := both
  have ascending : Ascending a := ascending_listInto List.Pairwise.nil upper
  have absent : (∀ x ∈ a, x.1 ≠ q) ↔ ∀ r, (q, r) ∉ a :=
    ⟨fun h r there => h _ there rfl, fun h x there same => h x.2 (same ▸ there)⟩
  rw [mem_listInto ascending behind, absent, mem_listInto List.Pairwise.nil lower]
  simp

/-- What a locator says of a key, in terms of what it finds. -/
structure Answers (l : Locator) (k : Key) : Prop where
  exists_eq : l.exists k = (l.find k).map Option.isSome
  resolve_eq_ok_iff : ∀ s, l.resolve k = .ok s ↔ l.find k = .ok (some s)
  error_of_find : ∀ e, l.find k = .error e → l.resolve k = .error e
  missing : l.find k = .ok none → ∃ names, l.resolve k = .error (.notFound k names)
  /-- Other errors than that nothing is found are those of the stores. -/
  find_of_error : ∀ e, l.resolve k = .error e →
    l.find k = .error e ∨ l.find k = .ok none ∧ e = .notFound k (l.suggestions k)
  /-- Stores do not say themselves that a key is missing. -/
  notFound_iff : (∀ s ∈ l.stores, s.FailsOnFiles) →
    ((∃ names, l.resolve k = .error (.notFound k names)) ↔ l.find k = .ok none)

theorem answers (l : Locator) (k : Key) : l.Answers k where
  exists_eq := existsIn_eq l.stores k
  resolve_eq_ok_iff s := by
    rw [resolve]
    rcases l.find k with e | (_ | s') <;> simp
  error_of_find e fails := by rw [resolve, fails]
  missing absent := ⟨l.suggestions k, by rw [resolve, absent]⟩
  find_of_error e fails := by
    rw [resolve] at fails
    split at fails
    · rename_i e' finds
      obtain rfl := Except.error.inj fails
      exact .inl finds
    · cases fails
    · rename_i absent
      exact .inr ⟨absent, (Except.error.inj fails).symm⟩
  notFound_iff plain := by
    constructor
    · rintro ⟨names, fails⟩
      rw [resolve] at fails
      split at fails
      · rename_i e finds
        obtain ⟨path, fault, rfl⟩ := file_of_findIn plain finds
        cases fails
      · cases fails
      · rename_i absent
        exact absent
    · intro absent
      exact ⟨l.suggestions k, by rw [resolve, absent]⟩

/-- A locator whose stores are those of one locator in front of those of another. -/
structure Layers (upper lower both : Locator) (k : Key) : Prop where
  error : ∀ e, upper.find k = .error e → both.find k = .error e
  found : ∀ s, upper.find k = .ok (some s) → both.find k = .ok (some s)
  absent : upper.find k = .ok none → both.find k = lower.find k
  /-- What the upper stores resolve stays as it is when others come behind them. -/
  kept : ∀ s, upper.resolve k = .ok s → both.resolve k = .ok s
  /-- Without the upper stores everything is as before. -/
  removed : { both with stores := both.stores.drop upper.stores.length } = lower
  lists_iff : (∃ c, both.list = .ok c) ↔ (∃ a, upper.list = .ok a) ∧ ∃ b, lower.list = .ok b
  /-- The listing is a map from keys to names of stores: those of the upper stores, and of the lower ones all others. -/
  listed : ∀ a b c, upper.list = .ok a → lower.list = .ok b → both.list = .ok c →
    Ascending c ∧ ∀ q p, (q, p) ∈ c ↔ (q, p) ∈ a ∨ (q, p) ∈ b ∧ ∀ r, (q, r) ∉ a

theorem layers (front back : List Store) (extension : String) (k : Key) :
    Layers ⟨front, extension⟩ ⟨back, extension⟩ ⟨front ++ back, extension⟩ k := by
  have appended := findIn_append front back k
  have found (s : Source) (finds : findIn front k = .ok (some s)) : findIn (front ++ back) k = .ok (some s) := by
    rw [appended, finds]
  refine ⟨fun e fails => ?_, found, fun absent => ?_, fun s resolves => ?_, ?_, ?_, ?_⟩
  · change findIn front k = .error e at fails
    change findIn (front ++ back) k = .error e
    rw [appended, fails]
  · change findIn front k = .ok none at absent
    change findIn (front ++ back) k = findIn back k
    rw [appended, absent]
  · have finds := ((answers ⟨front, extension⟩ k).resolve_eq_ok_iff s).mp resolves
    exact ((answers ⟨front ++ back, extension⟩ k).resolve_eq_ok_iff s).mpr (found s finds)
  · simp
  · change (∃ c, listInto (front ++ back) [] = .ok c) ↔ (∃ a, listInto front [] = .ok a) ∧ ∃ b, listInto back [] = .ok b
    rw [listInto_append]
    constructor
    · rintro ⟨c, lists⟩
      cases upper : listInto front [] with
      | error e =>
        rw [upper] at lists
        cases lists
      | ok a =>
        rw [upper] at lists
        exact ⟨⟨a, rfl⟩, exists_listInto (a := a) lists []⟩
    · rintro ⟨⟨a, upper⟩, b, lower⟩
      rw [upper]
      exact exists_listInto lower a
  · intro a b c upper lower both
    exact ⟨ascending_list both, fun q p => mem_listInto_append upper lower both⟩

/-- A locator of one store finds what the store reads, and lists what the store lists under the store's name. -/
structure Alone (s : Store) (l : Locator) (k : Key) : Prop where
  find_eq : l.find k = (s.read k).map fun text? => text?.map fun text => ⟨k, text, s.name⟩
  error : ∀ e, s.list = .error e → l.list = .error e
  listed : ∀ ks, s.list = .ok ks → ∃ c, l.list = .ok c ∧ Ascending c ∧ ∀ q p, (q, p) ∈ c ↔ q ∈ ks ∧ p = s.name

theorem alone (s : Store) (extension : String) (k : Key) : Alone s ⟨[s], extension⟩ k where
  find_eq := by
    rw [find, findIn]
    rcases s.read k with e | (_ | text) <;> rfl
  error e fails := by rw [list, listInto, fails]
  listed ks lists := by
    have all : listInto [s] [] = .ok (noteAll s.name ks []) := listInto_cons lists
    refine ⟨_, all, ascending_list (l := ⟨[s], extension⟩) all, fun q p => ?_⟩
    rw [mem_listInto List.Pairwise.nil all]
    by_cases there : q ∈ ks
    · simp [firstLister?, lists, there, eq_comm]
    · simp [firstLister?, lists, there]

/-- Stores in layers find what the upper ones find, or fail with, and else what the lower ones find; all answers about a
key agree with what is found, and the listing joins those of the layers, where the upper ones win. A store alone is found
and listed as it is, and no stores have nothing. Directories and texts in memory fail on files only, so that what they do
not have is all that is reported as missing. -/
theorem layered_lookup (front back : List Store) (extension : String) (k : Key) :
    Layers ⟨front, extension⟩ ⟨back, extension⟩ ⟨front ++ back, extension⟩ k ∧ (∀ l : Locator, l.Answers k) ∧
      (∀ s : Store, Alone s ⟨[s], extension⟩ k) ∧
      (find ⟨[], extension⟩ k = .ok none ∧ list ⟨[], extension⟩ = .ok []) ∧
      ∀ (s : Stack) (files : FileTree), ∀ store ∈ (s.locator files).stores, store.FailsOnFiles := by
  refine ⟨layers front back extension k, fun l => answers l k, fun s => alone s extension k, ⟨rfl, rfl⟩, ?_⟩
  intro s files store listed
  obtain ⟨origin, -, rfl⟩ := List.mem_map.mp listed
  exact origin.store_failsOnFiles files

theorem page_layered_lookup :
    let upper := Store.memory "upper" [(⟨"page"⟩, "new")]
    let lower := Store.memory "lower" [(⟨"page"⟩, "old"), (⟨"part"⟩, "")]
    let both : Locator := ⟨[upper] ++ [lower], "html"⟩
    both.find ⟨"page"⟩ = .ok (some ⟨⟨"page"⟩, "new", "upper"⟩) ∧
      both.find ⟨"part"⟩ = .ok (some ⟨⟨"part"⟩, "", "lower"⟩) ∧
      ∃ c, both.list = .ok c ∧ ∀ q p, (q, p) ∈ c ↔ q = ⟨"page"⟩ ∧ p = "upper" ∨ q = ⟨"part"⟩ ∧ p = "lower" := by
  intro upper lower both
  obtain ⟨of_page, -, alone, -⟩ := layered_lookup [upper] [lower] "html" ⟨"page"⟩
  obtain ⟨of_part, -⟩ := layered_lookup [upper] [lower] "html" ⟨"part"⟩
  obtain ⟨a, lists_upper, -, mem_a⟩ := (alone upper).listed _ rfl
  obtain ⟨b, lists_lower, -, mem_b⟩ := (alone lower).listed _ rfl
  obtain ⟨c, lists⟩ := of_page.lists_iff.mpr ⟨⟨a, lists_upper⟩, b, lists_lower⟩
  obtain ⟨-, mem_c⟩ := of_page.listed a b c lists_upper lists_lower lists
  refine ⟨of_page.found _ rfl, of_part.absent rfl, c, lists, fun q p => ?_⟩
  rw [mem_c, mem_a, mem_b]
  by_cases page : q = ⟨"page"⟩
  · simp [mem_a, page, upper, Store.memory]
  · simp [mem_a, page, upper, lower, Store.memory]

end Locator
end Pageweave
