import Mathlib.Data.Nat.Find
import Pageweave.Proofs.LiveSite.History
import Pageweave.Proofs.Loading.Ending
/-!
# Pages in the cache are up to date

A page depends on all that its load asked for. So a page in the cache is what a load would give now, or something that
its load asked for has changed since and was not reported yet. Whether the load went through a change makes no
difference.
-/
namespace Pageweave

namespace LiveSite.History

variable {h : History} {n w i j : Nat} {q : Key} {x : Cache.Entry Compiled}

/-- A key changed after a load first asked for it and has not been reported since. -/
def Unreported (h : History) (n w : Nat) (q : Key) : Prop :=
  ∃ a m, h.FirstReads a w q ∧ a < m ∧ m < n ∧ h.Changes m q ∧ ∀ l, m < l → l < n → h.event l ≠ some (.report q)

private theorem firstReads_of_reads (reads : h.Reads n w q) : ∃ a ≤ n, h.FirstReads a w q := by
  classical
  have some_read : ∃ a, h.Reads a w q := ⟨n, reads⟩
  exact ⟨Nat.find some_read, Nat.find_min' some_read reads, Nat.find_spec some_read, fun _ => Nat.find_min some_read⟩

private theorem not_reported (origin : h.schedule.Origin n x w i j)
    (depends : q = x.key ∨ q ∈ x.value.dependencies) {m : Nat} (after : i ≤ m) (before : m < n) :
    h.event m ≠ some (.report q) := by
  intro reported
  have changed : h.schedule.event m = some (.change q) := by simp [schedule, reported, heard?]
  refine origin.fresh m after before ?_
  rcases depends with rfl | listed
  · left
    simp [Cache.Schedule.invalidated, changed, Cache.Event.invalidates]
  · refine .inr (.inr ⟨q, ?_, changed⟩)
    simpa [Dependent.dependsOn, Compiled.dependsOn] using listed

private theorem current_or_unreported (origin : h.schedule.Origin n x w i j) :
    h.engine.load (h.state n).locator x.key = .ok x.value ∨
      ∃ q, (q = x.key ∨ q ∈ x.value.dependencies) ∧ h.Unreported n w q := by
  obtain ⟨p, assembled, trace⟩ := trace_of_compiles origin.compiles
  by_cases agree : ∀ m, i + 1 ≤ m → m < j → h.event m = some (.load w) →
      ∀ q, (h.load w x.key m).asks h.locator.extension = some q →
        (h.state n).locator.find q = (h.state m).locator.find q
  · left
    obtain ⟨fuel, ends⟩ := trace.run_eq (h.extension_state n) agree
    unfold Engine.load
    rw [Engine.gather_eq_of_run ends]
    exact assembled
  · right
    simp only [not_forall] at agree
    obtain ⟨m, after, before, steps, q, asks, differs⟩ := agree
    have loading := loading?_of_compiles origin.compiles after (Nat.le_of_lt before)
    have earlier : m < n := Nat.lt_trans before origin.before
    have depends : q = x.key ∨ q ∈ x.value.dependencies := by
      by_cases own : q = x.key
      · exact .inl own
      · have met := trace.covers after before steps asks
        exact .inr ((Engine.mem_dependencies_iff assembled).mpr ⟨met, trace.key_eq ▸ own⟩)
    obtain ⟨l, from_m, to_n, changes⟩ := (h.find_eq_or_changes q (Nat.le_of_lt earlier)).resolve_left differs
    obtain ⟨a, upTo, first⟩ := firstReads_of_reads ⟨steps, _, loading, asks⟩
    have apart : l ≠ m := by
      rintro rfl
      obtain ⟨store, answer, edited⟩ := changes.1
      rw [steps] at edited
      cases edited
    exact ⟨q, depends, a, l, first, by omega, to_n, changes, fun l' later => not_reported origin depends (by omega)⟩

/-- A page in the cache was stored by a compile; and it is what a load gives now, or something it depends on has changed
since that compile's load first asked for it and was not reported. So once every change is reported, each page in the
cache is what a load gives. -/
theorem cached_page_is_current (there : x ∈ (h.state n).traffic.cache.entries) :
    (∃ w i j, h.schedule.Origin n x w i j) ∧
    (∀ w i j, h.schedule.Origin n x w i j →
      h.engine.load (h.state n).locator x.key = .ok x.value ∨
        ∃ q, (q = x.key ∨ q ∈ x.value.dependencies) ∧ h.Unreported n w q) ∧
    ((∀ m < n, ∀ q, h.Changes m q → ∃ l, m < l ∧ l < n ∧ h.event l = some (.report q)) →
      h.engine.load (h.state n).locator x.key = .ok x.value) := by
  rw [traffic_state] at there
  obtain ⟨w, i, j, origin⟩ := Cache.Schedule.origin_of_mem there
  refine ⟨⟨w, i, j, origin⟩, fun w i j => current_or_unreported, fun all_reported => ?_⟩
  refine (current_or_unreported origin).resolve_right ?_
  rintro ⟨q, -, a, m, -, -, before, changes, quiet⟩
  obtain ⟨l, after, earlier, reported⟩ := all_reported m before q changes
  exact quiet l after earlier reported

/-- A page that includes another is loaded after that one was changed and reported. -/
def revised : History where
  locator := ⟨[.memory "texts" [(⟨"page"⟩, "\x7b% include 'part' %\x7d"), (⟨"part"⟩, "old")]], "html"⟩
  event n := [.edit 0 ⟨"part"⟩ (.ok (some "new")), .report ⟨"part"⟩, .call ⟨"page"⟩, .go 0, .load 0, .load 0, .load 0,
    .load 0, .load 0, .load 0][n]?

theorem revised_page_is_current :
    ∃ x ∈ (revised.state 10).traffic.cache.entries, x.value.included = [⟨"part", ⟨"part"⟩, "new"⟩] ∧
      revised.engine.load (revised.state 10).locator ⟨"page"⟩ = .ok x.value := by
  have entry : ((revised.state 10).traffic.cache.entries.head?.map fun x => (x.key, x.value.included)) =
      some (⟨"page"⟩, [⟨"part", ⟨"part"⟩, "new"⟩]) := by decide +kernel
  obtain ⟨x, first, parts⟩ := Option.map_eq_some_iff.mp entry
  obtain ⟨key, included⟩ := Prod.mk.inj parts
  have there := List.mem_of_head? first
  refine ⟨x, there, included, ?_⟩
  rw [← key]
  refine (cached_page_is_current there).2.2 ?_
  rintro m before q ⟨⟨store, answer, edited⟩, -⟩
  match m, before with
  | 0, _ =>
    cases edited
    exact ⟨1, by decide, by decide, rfl⟩
  | 1, _ | 2, _ | 3, _ | 4, _ | 5, _ | 6, _ | 7, _ | 8, _ | 9, _ => cases edited

end LiveSite.History
end Pageweave
