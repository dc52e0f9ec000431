import Pageweave.Command.Run
import Pageweave.Proofs.Loading.Failing
import Pageweave.Proofs.Loading.Table
import Pageweave.Proofs.Message.Place
import Pageweave.Proofs.Report.Excerpt
import Pageweave.Proofs.Template.Stopping
import Pageweave.Proofs.Text.Lines
/-!
# Where the error of a load points

The texts of a page are read together, its own first. When one of them does not match the grammar, the error bears the
page's key and the line at which reading that text stopped. So it points into the template that it names just if that
is the text at fault; if an included text is, the line is a line of another file.
-/
namespace Pageweave

open Template

/-- Reading the texts of a page stops in this one, at this line; the texts in front of it are read. -/
structure Loaded.StopsIn (p : Loaded) (name text : String) (line : Nat) : Prop where
  first : ∃ front back, p.texts = front ++ (name, text) :: back ∧ ∀ e ∈ front, ∃ s, Source.read e.1 e.2 = .ok s
  stops : StopsAt text line

/-- What makes a load fail before its texts are read together: a store, a template that is missing, or a name without a
key. -/
def Locator.Refuses (l : Locator) (fault : PageError) : Prop :=
  (∃ q, l.find q = .error fault) ∨ (∃ q, fault = .notFound q (l.suggestions q)) ∨ fault = .malformedName

namespace Loading

variable {l : Locator} {s : Loading} {w : Worklist} {t : Trying} {fault : PageError} {name : String}
  {rest : List String}

private theorem refuses_of_resolve {k : Key} (fails : l.resolve k = .error fault) : l.Refuses fault := by
  unfold Locator.resolve at fails
  split at fails
  · rename_i e finds
    obtain rfl := Except.error.inj fails
    exact .inl ⟨k, finds⟩
  · cases fails
  · exact .inr (.inl ⟨k, (Except.error.inj fails).symm⟩)

private theorem refuses_of_key (fails : l.key name = .error fault) : l.Refuses fault := by
  unfold Locator.key Key.named at fails
  split at fails
  · cases fails
  · exact .inr (.inr (Except.error.inj fails).symm)

private theorem refuses_of_tryName (fails : w.tryName l t name rest = .done (.error fault)) : l.Refuses fault := by
  unfold Worklist.tryName at fails
  split at fails
  · cases fails
  · split at fails
    · rename_i e key
      obtain rfl := Except.error.inj (Loading.done.inj fails)
      exact refuses_of_key key
    · rename_i q key
      split at fails
      · rename_i e finds
        obtain rfl := Except.error.inj (Loading.done.inj fails)
        exact .inl ⟨q, finds⟩
      · cases fails
      · cases fails

private theorem refuses_of_conclude (fails : w.conclude l t = .done (.error fault)) : l.Refuses fault := by
  unfold Worklist.conclude at fails
  split at fails
  · cases fails
  · split at fails
    · cases fails
    · split at fails
      · rename_i e resolves
        obtain rfl := Except.error.inj (Loading.done.inj fails)
        rcases error_of_bind resolves with key | ⟨q, -, resolves⟩
        · exact refuses_of_key key
        · exact refuses_of_resolve resolves
      · cases fails

theorem refuses_of_step (goes_on : ∀ r, s ≠ .done r) (fails : s.step l = .done (.error fault)) : l.Refuses fault := by
  cases s with
  | done r => exact absurd rfl (goes_on r)
  | opening k =>
    simp only [step] at fails
    split at fails
    · rename_i e resolves
      obtain rfl := Except.error.inj (Loading.done.inj fails)
      exact refuses_of_resolve resolves
    · cases fails
  | reading w =>
    change w.step l = .done (.error fault) at fails
    unfold Worklist.step at fails
    split at fails
    · split at fails
      · exact refuses_of_tryName fails
      · exact refuses_of_conclude fails
    · split at fails
      · cases fails
      · cases fails

end Loading

namespace Locator

theorem find_memory_ne_error {name extension : String} {texts : Texts} {fault : PageError} (q : Key) :
    (⟨[.memory name texts], extension⟩ : Locator).find q ≠ .error fault := by
  obtain ⟨found, finds⟩ : ∃ found, (⟨[.memory name texts], extension⟩ : Locator).find q = .ok found := by
    refine exists_findIn fun s listed => ?_
    obtain rfl := List.mem_singleton.mp listed
    exact ⟨_, rfl⟩
  rw [finds]
  exact nofun

end Locator

namespace Engine

variable {e : Engine} {l : Locator} {k q : Key} {p : Loaded} {x : Source} {message : String} {line : Nat}

theorem refuses_of_gather {fault : PageError} (failed : gather l k = .error fault) : l.Refuses fault := by
  obtain ⟨fuel, ends⟩ := run_of_gather failed
  obtain ⟨s, -, goes_on, fails⟩ := Loading.run_error_cases (P := fun _ => True) (s := .opening k)
    (fun _ _ _ _ _ => trivial) trivial nofun ends
  exact Loading.refuses_of_step goes_on fails

/-- The text at fault, if the place in the message is the place where reading stopped. -/
theorem stopsIn_of_build {fault : LibraryFault} (built : Library.build p.texts = .error fault)
    (quiet : ∀ t ∈ fault.mentioned, Compiled.Placeless t.toList)
    (found : Compiled.lineIn? fault.message.toList = some line) :
    ∃ name text column, fault = .unread name (.malformed line column) ∧ p.StopsIn name text line := by
  rw [lineIn?_message quiet, Option.filter_eq_some_iff] at found
  obtain ⟨name, column, rfl⟩ : ∃ name column, fault = .unread name (.malformed line column) := by
    have stopped := found.1
    unfold LibraryFault.line? at stopped
    split at stopped
    · rename_i name n column
      obtain rfl := Option.some.inj stopped
      exact ⟨name, column, rfl⟩
    · cases stopped
  obtain ⟨front, _, text, back, _, texts, reads, stops, same⟩ :=
    Library.error_of_readAll (Library.unread_of_build built)
  obtain ⟨rfl, rfl⟩ := LibraryFault.unread.inj same
  exact ⟨name, text, column, rfl, ⟨front, back, texts, reads⟩, (stopsAt_iff name).mpr ⟨column, stops⟩⟩

/-- The text at fault is the page's own, or one that the locator has under the name of an include; the page's own text
is read in that case. -/
theorem stopsIn_cases {name text : String} (table : p.IsTable l k x.text) (stops : p.StopsIn name text line) :
    (name = k.name ∧ text = x.text) ∨
      name ≠ k.name ∧ (∃ r s, l.key name = .ok r ∧ l.find r = .ok (some s) ∧ s.text = text) ∧
        ∀ n, ¬ StopsAt x.text n := by
  obtain ⟨front, back, texts, reads⟩ := stops.first
  rw [Loaded.texts, table.key_eq, table.text_eq] at texts
  cases front with
  | nil =>
    obtain ⟨own, -⟩ := List.cons.inj texts
    obtain ⟨same, same'⟩ := Prod.mk.inj own
    exact .inl ⟨same.symm, same'.symm⟩
  | cons first front =>
    obtain ⟨own, later⟩ := List.cons.inj texts
    subst own
    have listed : (name, text) ∈ p.included.map fun i => (i.name, i.text) := by simp [later]
    obtain ⟨i, held, same⟩ := List.mem_map.mp listed
    obtain ⟨rfl, rfl⟩ := Prod.mk.inj same
    obtain ⟨r, s, key, finds, text_eq⟩ := table.located i held
    refine .inr ⟨?_, ⟨r, s, key, finds, text_eq.symm⟩, ?_⟩
    · intro same
      exact (List.nodup_cons.mp table.names).1 (List.mem_map.mpr ⟨_, listed, same⟩)
    · intro n stops
      obtain ⟨s, read⟩ := reads _ List.mem_cons_self
      obtain ⟨column, fails⟩ := (stopsAt_iff k.name).mp stops
      rw [read] at fails
      cases fails

/-- A report on a page's own text marks the line at which reading it stopped; or it shows no line, if reading stopped
behind the last line end. -/
theorem excerpt_of_stopsAt {text : String} (stops : StopsAt text line) :
    (line ≤ (Text.lines text.toList).length ∧ Report.Marks (Report.excerpt (some text) (some line)) text line) ∨
      text.toList.getLast? = some '\n' ∧ line = (Text.lines text.toList).length + 1 ∧
        Report.excerpt (some text) (some line) = "" := by
  obtain ⟨positive, bound⟩ := stops.bounds
  have lines := Text.length_lines text.toList
  by_cases inside : line ≤ (Text.lines text.toList).length
  · exact .inl ⟨inside, Report.marks_excerpt positive inside⟩
  · right
    have ends : text.toList.getLast?.all (· = '\n') = true := by
      by_contra open_end
      rw [if_neg open_end] at lines
      omega
    rw [if_pos ends] at lines
    refine ⟨?_, by omega, Report.excerpt_of_outside (.inr (by omega))⟩
    cases last : text.toList.getLast? with
    | none =>
      -- the empty text is read
      obtain rfl : text = "" := by simpa using last
      obtain rfl : line = 1 := Nat.le_antisymm bound positive
      exact absurd stops (by decide +kernel)
    | some c =>
      rw [last] at ends
      simpa using ends

example : (Text.lines "\x7b% if a %\x7d\n".toList).length = 1 ∧ StopsAt "\x7b% if a %\x7d\n" 2 := by decide +kernel

/-- The parse error of a load bears the key of the page, whatever text is at fault, unless a store raises it. If nothing
that the message spells out reads like a place, its line is the one at which the first text that is not read stops
matching the grammar. If this is the page's own text, the report marks the line in it, or no line if reading stopped
behind the last line end. If it is an include, the page's own text is read, and yet it is the one that is shown. -/
theorem parse_error_points (failed : e.load l k = .error (.parse q message (some line))) :
    (∃ r, l.find r = .error (.parse q message (some line))) ∨
      q = k ∧ ∃ x p fault, l.find k = .ok (some x) ∧ gather l k = .ok p ∧ Library.build p.texts = .error fault ∧
        message = fault.message ∧
        Workplace.explain l (.parse q message (some line)) =
          (PageError.parse q message (some line)).report (some x.text) ++ "\n" ∧
        ((∃ t ∈ fault.mentioned, ¬ Compiled.Placeless t.toList) ∨
          ∃ name text, p.StopsIn name text line ∧ (∃ column, fault = .unread name (.malformed line column)) ∧
            ((name = k.name ∧ text = x.text ∧
                ((line ≤ (Text.lines text.toList).length ∧
                    Report.Marks (Report.excerpt (some text) (some line)) text line) ∨
                  text.toList.getLast? = some '\n' ∧ line = (Text.lines text.toList).length + 1 ∧
                    Report.excerpt (some text) (some line) = "")) ∨
              name ≠ k.name ∧ (∃ r s, l.key name = .ok r ∧ l.find r = .ok (some s) ∧ s.text = text) ∧
                ∀ n, ¬ StopsAt x.text n)) := by
  cases gathered : gather l k with
  | error fault =>
    left
    rw [load_of_gather_error gathered] at failed
    obtain rfl := Except.error.inj failed
    rcases refuses_of_gather gathered with refused | ⟨r, missing⟩ | malformed
    · exact refused
    · cases missing
    · cases malformed
  | ok p =>
    right
    obtain ⟨x, found, table⟩ := table_of_gather gathered
    have assembled : e.assemble p = .error (.parse q message (some line)) := by
      rwa [load, gathered] at failed
    obtain ⟨fault, built, same⟩ := cause_of_assemble assembled
    obtain ⟨rfl, rfl, place⟩ := PageError.parse.inj same
    have resolved : l.resolve k = .ok x := by rw [Locator.resolve, found]
    refine ⟨table.key_eq, x, p, fault, found, rfl, built, rfl, ?_, ?_⟩
    · rw [table.key_eq, Workplace.explain, PageError.template?, Option.bind_some, resolved]
      rfl
    · by_cases loud : ∃ t ∈ fault.mentioned, ¬ Compiled.Placeless t.toList
      · exact .inl loud
      right
      have quiet : ∀ t ∈ fault.mentioned, Compiled.Placeless t.toList := by simpa using loud
      obtain ⟨name, text, column, unread, stops⟩ := stopsIn_of_build built quiet place.symm
      refine ⟨name, text, stops, ⟨column, unread⟩, ?_⟩
      rcases stopsIn_cases table stops with ⟨own, text_eq⟩ | included
      · exact .inl ⟨own, text_eq, excerpt_of_stopsAt stops.stops⟩
      · exact .inr included

/-- The failure of a computation, which can be compared where its results cannot. -/
def failure? {ε α : Type} : Except ε α → Option ε
  | .error fault => some fault
  | .ok _ => none

theorem failure?_eq_some_iff {ε α : Type} {r : Except ε α} {fault : ε} :
    failure? r = some fault ↔ r = .error fault := by
  cases r <;> simp [failure?]

/-- A page with a tag that there is not. -/
def typo : Locator where
  stores := [.memory "texts" [(⟨"page"⟩, "one\n\x7b% oops %\x7d\nthree")]]
  extension := "html"

theorem typo_parse_error_points :
    ∃ text message, load {} typo ⟨"page"⟩ = .error (.parse ⟨"page"⟩ message (some 2)) ∧
      (typo.resolve ⟨"page"⟩).map Source.text = .ok text ∧ StopsAt text 2 ∧
      Report.Marks (Report.excerpt (some text) (some 2)) text 2 := by
  let text := "one\n\x7b% oops %\x7d\nthree"
  let message := "Failed to parse 'page'\n  -> --> 2:1"
  have failed : load {} typo ⟨"page"⟩ = .error (.parse ⟨"page"⟩ message (some 2)) :=
    failure?_eq_some_iff.mp (by decide +kernel)
  have stops : StopsAt text 2 := by decide +kernel
  refine ⟨text, message, failed, by decide +kernel, stops, ?_⟩
  rcases parse_error_points failed with ⟨r, refused⟩ | ⟨-, x, p, fault, found, gathered, built, -, -, points⟩
  · exact absurd refused (Locator.find_memory_ne_error r)
  have page : typo.find ⟨"page"⟩ = .ok (some ⟨⟨"page"⟩, text, "texts"⟩) := by decide +kernel
  have alone : gather typo ⟨"page"⟩ = .ok { key := ⟨"page"⟩, text } := by decide +kernel
  obtain rfl := Option.some.inj (Except.ok.inj (found.symm.trans page))
  obtain rfl := Except.ok.inj (gathered.symm.trans alone)
  rcases points with ⟨t, listed, loud⟩ | ⟨name, text', -, -, ⟨-, rfl, shown⟩ | ⟨-, -, reads⟩⟩
  · have names : (failure? (Library.build (Loaded.texts ⟨⟨"page"⟩, text, [], []⟩))).map LibraryFault.mentioned =
        some ["page"] := by decide +kernel
    rw [failure?_eq_some_iff.mpr built, Option.map_some] at names
    rw [Option.some.inj names] at listed
    obtain rfl := List.mem_singleton.mp listed
    exact absurd (by decide) loud
  · rcases shown with ⟨-, marked⟩ | ⟨ends, -⟩
    · exact marked
    · exact absurd ends (by decide)
  · exact absurd stops (reads 2)

/-- A page that reads, with an include that does not. -/
def blamed : Locator where
  stores := [.memory "texts" [(⟨"page"⟩, "one\n\x7b% include 'part' %\x7d\nthree"),
    (⟨"part"⟩, "one\ntwo\n\x7b% oops %\x7d")]]
  extension := "html"

/-- The error of an include is reported as one of the page, and a line of the page is marked that is not at fault. -/
theorem include_error_points_into_page :
    ∃ text message, load {} blamed ⟨"page"⟩ = .error (.parse ⟨"page"⟩ message (some 3)) ∧
      (blamed.resolve ⟨"page"⟩).map Source.text = .ok text ∧ ¬ StopsAt text 3 ∧
      Report.Marks (Report.excerpt (some text) (some 3)) text 3 := by
  refine ⟨"one\n\x7b% include 'part' %\x7d\nthree", "Failed to parse 'part'\n  -> --> 3:1", ?_, by decide +kernel,
    by decide +kernel, Report.marks_excerpt (by decide) (by decide)⟩
  exact failure?_eq_some_iff.mp (by decide +kernel)

end Engine
end Pageweave
