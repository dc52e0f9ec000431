import Pageweave.Proofs.Query.Encoding
/-!
# Where an appended pair lands

An address has a path, a query behind its first question mark and a fragment behind its first number sign. Pairs that
are appended one after the other stand behind those of the query in their order, and nothing else changes, unless there
is a fragment: then they make the fragment longer, and the query stays as it is.
-/
namespace Pageweave.Query

/-- An address, cut into its parts. -/
structure Address where
  path : List Char
  query : Option (List Char)
  fragment : Option (List Char)

namespace Address

variable {url : String} {before middle after : Address} {cs front : List Char}
  {added more : List (List UInt8 × List UInt8)}

/-- The fragment comes off first, so that a question mark in it begins no query. -/
def ofText (cs : List Char) : Address :=
  let (front, fragment) := divide '#' cs
  let (path, query) := divide '?' front
  { path, query, fragment }

/-- The pairs of the query. -/
def pairs (a : Address) : List (List UInt8 × List UInt8) := a.query.elim [] Query.pairs

theorem ofText_of_not_mem (plain : '#' ∉ cs) : ofText cs = ⟨(divide '?' cs).1, (divide '?' cs).2, none⟩ := by
  simp only [ofText, divide_of_not_mem plain]

theorem ofText_append_mark (plain : '#' ∉ front) (back : List Char) :
    ofText (front ++ '#' :: back) = ⟨(divide '?' front).1, (divide '?' front).2, some back⟩ := by
  simp only [ofText, divide_append_mark plain]

theorem fragment_eq_none_iff : (ofText cs).fragment = none ↔ '#' ∉ cs := by
  by_cases marked : '#' ∈ cs
  · obtain ⟨front, back, rfl, plain⟩ := List.eq_append_cons_of_mem marked
    simp [ofText_append_mark plain]
  · simp [ofText_of_not_mem marked, marked]

/-- The pairs stand behind those of the query, and all else is the same. -/
structure Extends (before after : Address) (added : List (List UInt8 × List UInt8)) : Prop where
  path : after.path = before.path
  fragment : after.fragment = before.fragment
  pairs : after.pairs = before.pairs ++ added

theorem Extends.refl (a : Address) : Extends a a [] := ⟨rfl, rfl, (List.append_nil _).symm⟩

theorem Extends.trans (first : Extends before middle added) (second : Extends middle after more) :
    Extends before after (added ++ more) where
  path := second.path.trans first.path
  fragment := second.fragment.trans first.fragment
  pairs := by rw [second.pairs, first.pairs, List.append_assoc]

theorem extends_append (plain : '#' ∉ url.toList) (key value : String) :
    Extends (ofText url.toList) (ofText (append url key value).toList) [(utf8 key, utf8 value)] := by
  have unmarked : '#' ∉ written key value := not_mem_written (by decide) (by decide) key value
  rw [toList_append, ofText_of_not_mem plain]
  by_cases asked : '?' ∈ url.toList
  · obtain ⟨path, query, parts, no_query⟩ := List.eq_append_cons_of_mem asked
    have longer : '#' ∉ path ++ '?' :: (query ++ '&' :: written key value) := by
      rw [parts] at plain
      simpa [unmarked] using plain
    have cut := divide_append_mark no_query query
    have cut' := divide_append_mark no_query (query ++ '&' :: written key value)
    rw [separator, if_pos asked, parts, List.append_assoc, List.cons_append, ofText_of_not_mem longer, cut, cut']
    exact ⟨rfl, rfl, by simp [pairs, pairs_append, pairs_written]⟩
  · have longer : '#' ∉ url.toList ++ '?' :: written key value := by simp [plain, unmarked]
    have cut := divide_append_mark asked (written key value)
    rw [separator, if_neg asked, ofText_of_not_mem longer, divide_of_not_mem asked, cut]
    exact ⟨rfl, rfl, by simp [pairs, pairs_written]⟩

end Address

/-- Appends each of the pairs. -/
def appendAll (url : String) (added : List (String × String)) : String :=
  added.foldl (fun url (key, value) => append url key value) url

def utf8Pairs (added : List (String × String)) : List (List UInt8 × List UInt8) :=
  added.map fun (key, value) => (utf8 key, utf8 value)

theorem extends_appendAll {url : String} (plain : '#' ∉ url.toList) (added : List (String × String)) :
    (Address.ofText url.toList).Extends (Address.ofText (appendAll url added).toList) (utf8Pairs added) := by
  induction added generalizing url with
  | nil => exact .refl _
  | cons entry more ih =>
    have first := Address.extends_append plain entry.1 entry.2
    have still_plain : '#' ∉ (append url entry.1 entry.2).toList := by
      rw [← Address.fragment_eq_none_iff, first.fragment, Address.fragment_eq_none_iff]
      exact plain
    exact first.trans (ih still_plain)

theorem exists_appendAll (url : String) (added : List (String × String)) :
    ∃ tail, (appendAll url added).toList = url.toList ++ tail ∧ (tail = [] ↔ added = []) := by
  induction added generalizing url with
  | nil => exact ⟨[], by simp [appendAll], by simp⟩
  | cons entry more ih =>
    obtain ⟨tail, longer, -⟩ := ih (append url entry.1 entry.2)
    refine ⟨separator url.toList :: written entry.1 entry.2 ++ tail, ?_, by simp⟩
    change (appendAll (append url entry.1 entry.2) more).toList = _
    rw [longer, toList_append, List.append_assoc]

/-- Pairs behind a fragment belong to it, and the query is what it was. -/
theorem appendAll_of_mem {url : String} (marked : '#' ∈ url.toList) (added : List (String × String)) :
    (Address.ofText (appendAll url added).toList).path = (Address.ofText url.toList).path ∧
    (Address.ofText (appendAll url added).toList).query = (Address.ofText url.toList).query ∧
    ((Address.ofText (appendAll url added).toList).fragment = (Address.ofText url.toList).fragment ↔ added = []) := by
  obtain ⟨tail, longer, tail_iff⟩ := exists_appendAll url added
  obtain ⟨front, back, parts, plain⟩ := List.eq_append_cons_of_mem marked
  rw [longer, parts, List.append_assoc, List.cons_append, Address.ofText_append_mark plain,
    Address.ofText_append_mark plain]
  exact ⟨rfl, rfl, by simp [← tail_iff]⟩

end Pageweave.Query

namespace Pageweave.Template.Builtin

open Query

/-- Applies the filter once for each pair, as a chain of filters does. -/
def appendEach (url : Value) : List (Value × Value) → Except Fault Value
  | [] => .ok url
  | (key, value) :: more => do appendEach (← appendQuery url [("key", key), ("value", value)]) more

def shownPairs (added : List (Value × Value)) : List (String × String) :=
  added.map fun (key, value) => (key.shown, value.shown)

theorem exists_appendEach (url : Value) (added : List (Value × Value)) :
    ∃ result, appendEach url added = .ok result ∧ result.shown = appendAll url.shown (shownPairs added) := by
  induction added generalizing url with
  | nil => exact ⟨url, rfl, rfl⟩
  | cons entry more ih =>
    obtain ⟨key, value⟩ := entry
    obtain ⟨result, ended, shown⟩ := ih (.string (append url.shown key.shown value.shown))
    refine ⟨result, ?_, shown⟩
    rw [appendEach, appendQuery_eq rfl rfl]
    exact ended

/-- A chain appends its pairs to the query of the address exactly if there is no fragment. Behind a fragment the query
keeps the pairs that it had. -/
theorem appended_in_query_iff (url : Value) (added : List (Value × Value)) :
    ∃ result, appendEach url added = .ok result ∧
      ((Address.ofText url.shown.toList).Extends (Address.ofText result.shown.toList) (utf8Pairs (shownPairs added)) ↔
        (Address.ofText url.shown.toList).fragment = none ∨ added = []) ∧
      ((Address.ofText url.shown.toList).fragment ≠ none →
        (Address.ofText result.shown.toList).path = (Address.ofText url.shown.toList).path ∧
        (Address.ofText result.shown.toList).pairs = (Address.ofText url.shown.toList).pairs) := by
  obtain ⟨result, ended, shown⟩ := exists_appendEach url added
  refine ⟨result, ended, ?_⟩
  rw [shown]
  by_cases marked : '#' ∈ url.shown.toList
  · obtain ⟨path, query, fragment_iff⟩ := appendAll_of_mem marked (shownPairs added)
    have nothing_iff : shownPairs added = [] ↔ added = [] := List.map_eq_nil_iff
    have some_there : (Address.ofText url.shown.toList).fragment ≠ none := by
      rwa [ne_eq, Address.fragment_eq_none_iff, Classical.not_not]
    refine ⟨⟨fun all => ?_, fun none_added => ?_⟩, fun _ => ⟨path, ?_⟩⟩
    · exact .inr (nothing_iff.mp (fragment_iff.mp all.fragment))
    · rw [none_added.resolve_left some_there]
      exact .refl _
    · rw [Address.pairs, query]
      rfl
  · have none_there := Address.fragment_eq_none_iff.mpr marked
    refine ⟨iff_of_true (extends_appendAll marked _) (.inl none_there), fun some_there => ?_⟩
    exact absurd none_there some_there

/-- A pair behind a fragment is not in the query. -/
theorem fragment_takes_pair :
    appendEach (.string "/docs#top") [(.string "page", .string "2")] = .ok (.string "/docs#top?page=2") ∧
    ¬(Address.ofText "/docs#top".toList).Extends (Address.ofText "/docs#top?page=2".toList)
      (utf8Pairs [("page", "2")]) := by
  have shown : append "/docs#top" "page" "2" = "/docs#top?page=2" := by decide +kernel
  refine ⟨?_, fun all => absurd all.fragment (by decide +kernel)⟩
  rw [appendEach, appendQuery_eq rfl rfl]
  exact congrArg (fun s => Except.ok (Value.string s)) shown

end Pageweave.Template.Builtin
