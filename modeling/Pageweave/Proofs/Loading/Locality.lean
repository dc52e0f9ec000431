import Pageweave.LiveSite
import Pageweave.Proofs.Loading.Ending
/-!
# A page is made of what it depends on

A load is a trace over texts that stay. All it asks for is among the page's own key and its dependencies, so texts that
agree on these give the same page, whatever else they hold.
-/
namespace Pageweave

namespace Locator

variable {l : Locator}

/-- An edit: the place of a store, a key, and what there is behind it from now on. -/
abbrev Edit := Nat × Key × Except PageError (Option String)

def edited (l : Locator) (edits : List Edit) : Locator := edits.foldl (fun l x => l.put x.1 x.2.1 x.2.2) l

theorem extension_edited (l : Locator) (edits : List Edit) : (l.edited edits).extension = l.extension := by
  induction edits generalizing l with
  | nil => rfl
  | cons x rest ih => exact ih (l.put x.1 x.2.1 x.2.2)

theorem find_edited {q : Key} {edits : List Edit} (untouched : ∀ x ∈ edits, q ≠ x.2.1) :
    (l.edited edits).find q = l.find q := by
  induction edits generalizing l with
  | nil => rfl
  | cons x rest ih =>
    have later := ih (l := l.put x.1 x.2.1 x.2.2) fun y listed => untouched y (List.mem_cons_of_mem x listed)
    exact later.trans (find_put (untouched x List.mem_cons_self))

end Locator

namespace Loading

variable {l l' : Locator} {s : Loading} {q : Key}

/-- A load is opened with the key of a name, and asks for nothing else. -/
def IsMade (extension : String) (s : Loading) : Prop :=
  ∀ q, s.asks extension = some q → ∃ name, Key.named extension name = .ok q

theorem isMade_of_not_opening {extension : String} (goes_on : ∀ k, s ≠ .opening k) : s.IsMade extension := by
  intro q asks
  cases s with
  | opening k => exact absurd rfl (goes_on k)
  | done r => cases asks
  | reading w =>
    have named {name : String} (asked : (Key.named extension name).toOption = some q) :
        ∃ name, Key.named extension name = .ok q := by
      cases made : Key.named extension name with
      | error e => simp [made, Except.toOption] at asked
      | ok k =>
        obtain rfl : k = q := by simpa [made, Except.toOption] using asked
        exact ⟨name, made⟩
    change w.asks extension = some q at asks
    unfold Worklist.asks at asks
    repeat' split at asks
    all_goals first | exact named asks | cases asks

theorem isMade_step (l : Locator) (s : Loading) : (s.step l).IsMade l.extension := by
  apply isMade_of_not_opening
  intro k opens
  rcases progress_step l s with ⟨e, failed⟩ | progress
  · rw [failed] at opens
    cases opens
  · rw [opens] at progress
    generalize s.asks l.extension = asked at progress
    cases progress

/-- A step sees the locator only through the key that it asks for. -/
theorem step_congr (same : l'.extension = l.extension)
    (agree : ∀ q, s.asks l.extension = some q → l'.find q = l.find q ∧ l'.resolve q = l.resolve q) :
    s.step l' = s.step l := by
  cases s with
  | done r => rfl
  | opening k =>
    have resolved := (agree k rfl).2
    simp only [step, resolved]
  | reading w =>
    change ∀ q, w.asks l.extension = some q → _ at agree
    change w.step l' = w.step l
    unfold Worklist.asks at agree
    unfold Worklist.step
    cases trying : w.trying with
    | none => rfl
    | some t =>
      simp only [trying] at agree
      cases names : t.rest with
      | cons name rest =>
        simp only [names] at agree
        simp only [names, Worklist.tryName, Locator.key, same]
        cases seen : w.seen? name with
        | some there => rfl
        | none =>
          cases key : Key.named l.extension name with
          | error e => rfl
          | ok q =>
            have found := (agree q (by simp [seen, key, Except.toOption])).1
            simp only [found]
      | nil =>
        simp only [names] at agree
        simp only [names, Worklist.conclude, Locator.key, same]
        by_cases fine : (t.resolved || t.reference.ignoreMissing) = true
        · simp only [fine, if_true]
        · rw [if_neg fine] at agree
          rw [if_neg fine, if_neg fine]
          cases reference : t.reference.names with
          | nil => rfl
          | cons first more =>
            cases key : Key.named l.extension first with
            | error e => simp [key, bind, Except.bind]
            | ok q =>
              have resolved := (agree q (by simp [reference, key, Except.toOption])).2
              simp [key, bind, Except.bind, resolved]

theorem run_congr (same : l'.extension = l.extension)
    (agree : ∀ name q, Key.named l.extension name = .ok q → l'.find q = l.find q ∧ l'.resolve q = l.resolve q)
    (made : s.IsMade l.extension) (fuel : Nat) : run l' fuel s = run l fuel s := by
  induction fuel generalizing s with
  | zero => rfl
  | succ fuel ih =>
    have step_eq : s.step l' = s.step l := step_congr same fun q asks => by
      obtain ⟨name, named⟩ := made q asks
      exact agree name q named
    rw [run_succ, run_succ, step_eq]
    exact ih (isMade_step l s)

theorem isMade_run (made : s.IsMade l.extension) (fuel : Nat) : (run l fuel s).IsMade l.extension := by
  induction fuel generalizing s with
  | zero => exact made
  | succ fuel ih =>
    rw [run_succ]
    exact ih (isMade_step l s)

theorem isMade_opening {extension name : String} {k : Key} (made : Key.named extension name = .ok k) :
    (opening k).IsMade extension := by
  intro q asks
  obtain rfl : k = q := Option.some.inj asks
  exact ⟨name, made⟩

end Loading

theorem Engine.load_congr {l l' : Locator} {name : String} {k : Key} (same : l'.extension = l.extension)
    (agree : ∀ name q, Key.named l.extension name = .ok q → l'.find q = l.find q ∧ l'.resolve q = l.resolve q)
    (made : Key.named l.extension name = .ok k) (e : Engine) : e.load l' k = e.load l k := by
  have opened := Loading.isMade_opening made
  obtain ⟨fuel, ends⟩ := Engine.run_of_gather (l := l) (k := k) rfl
  have gathered : Engine.gather l' k = Engine.gather l k :=
    Engine.gather_eq_of_run ((Loading.run_congr same agree opened fuel).trans ends)
  unfold Engine.load
  rw [gathered]

namespace Engine

variable {e : Engine} {l : Locator} {k : Key} {c : Compiled} {p : Loaded}

theorem gather_of_load (loaded : e.load l k = .ok c) : ∃ p, gather l k = .ok p ∧ e.assemble p = .ok c := by
  unfold load at loaded
  cases gathered : gather l k with
  | error _ =>
    rw [gathered] at loaded
    cases loaded
  | ok p =>
    rw [gathered] at loaded
    exact ⟨p, rfl, loaded⟩

theorem load_of_toOption_map {β : Type} {f : Compiled → β} {b : β} (some_page : (e.load l k).toOption.map f = some b) :
    ∃ c, e.load l k = .ok c ∧ f c = b := by
  cases result : e.load l k with
  | error _ =>
    rw [result] at some_page
    cases some_page
  | ok c =>
    rw [result] at some_page
    exact ⟨c, rfl, Option.some.inj some_page⟩

theorem trace_of_gather (gathered : gather l k = .ok p) :
    ∃ n, Loading.Trace l.extension (fun _ => l) (fun _ => True) (fun m => Loading.run l m (.opening k)) k p 0 n := by
  obtain ⟨n, ends⟩ := run_of_gather gathered
  refine ⟨n, Nat.zero_le n, rfl, ?_, ?_, ends, fun _ => rfl⟩
  · intro m _ _ _
    exact Loading.run_step l m _
  · intro m _ _ rests
    exact absurd trivial rests

private theorem load_eq_of_agree {l' : Locator} (loaded : e.load l k = .ok c) (same : l'.extension = l.extension)
    (agree : ∀ q, q = k ∨ q ∈ c.dependencies → l'.find q = l.find q) : e.load l' k = .ok c := by
  obtain ⟨p, gathered, assembled⟩ := gather_of_load loaded
  obtain ⟨n, trace⟩ := trace_of_gather gathered
  have asked_agrees : ∀ m, 0 ≤ m → m < n → True → ∀ q,
      (Loading.run l m (.opening k)).asks l.extension = some q → l'.find q = l.find q := by
    intro m after before steps q asks
    have met : p.Covers q := trace.covers after before steps asks
    by_cases own : q = k
    · exact agree q (.inl own)
    · exact agree q (.inr ((mem_dependencies_iff assembled).mpr ⟨met, trace.key_eq ▸ own⟩))
  obtain ⟨fuel, ends⟩ := trace.run_eq same asked_agrees
  unfold load
  rw [gather_eq_of_run ends]
  exact assembled

/-- A page that loads asks for keys of names alone, and how they are found is all that counts. -/
theorem load_eq_of_find_eq {l' : Locator} {name : String} (loaded : e.load l k = .ok c)
    (made : Key.named l.extension name = .ok k) (same : l'.extension = l.extension)
    (agree : ∀ name q, Key.named l.extension name = .ok q → l'.find q = l.find q) : e.load l' k = .ok c := by
  obtain ⟨p, gathered, assembled⟩ := gather_of_load loaded
  obtain ⟨n, trace⟩ := trace_of_gather gathered
  obtain ⟨fuel, ends⟩ := trace.run_eq same fun m _ _ _ q asks => by
    obtain ⟨name, named⟩ := Loading.isMade_run (Loading.isMade_opening made) m q asks
    exact agree name q named
  unfold load
  rw [gather_eq_of_run ends]
  exact assembled

/-- Texts that agree on a page's key and on its dependencies give the same page; so no edits of other keys, which may
change, create, delete or shadow them, make a difference. -/
theorem load_local (loaded : e.load l k = .ok c) :
    (∀ l' : Locator, l'.extension = l.extension →
      (∀ q, q = k ∨ q ∈ c.dependencies → l'.find q = l.find q) → e.load l' k = .ok c) ∧
    ∀ edits : List Locator.Edit, (∀ x ∈ edits, x.2.1 ≠ k ∧ x.2.1 ∉ c.dependencies) →
      e.load (l.edited edits) k = .ok c := by
  refine ⟨fun l' same agree => load_eq_of_agree loaded same agree, fun edits elsewhere => ?_⟩
  refine load_eq_of_agree loaded (l.extension_edited edits) ?_
  intro q depends
  apply Locator.find_edited
  rintro x listed rfl
  rcases depends with own | listed_too
  · exact (elsewhere x listed).1 own
  · exact (elsewhere x listed).2 listed_too

/-- Two stores; a page of the second one goes without one of the names it refers to. -/
def shelves : Locator where
  stores := [.memory "front" [],
    .memory "back" [(⟨"note"⟩, "n"), (⟨"page"⟩, "\x7b% include ['part', 'gone'] %\x7d"), (⟨"part"⟩, "p")]]
  extension := "html"

/-- A key that is no dependency is shadowed, deleted, and created anew. -/
def shelfEdits : List Locator.Edit :=
  [(0, ⟨"note"⟩, .ok (some "shadow")), (1, ⟨"note"⟩, .ok none), (0, ⟨"fresh"⟩, .ok (some "new"))]

theorem shelves_load_local :
    ∃ c, load {} shelves ⟨"page"⟩ = .ok c ∧ c.dependencies = [⟨"gone"⟩, ⟨"part"⟩] ∧
      load {} (shelves.edited shelfEdits) ⟨"page"⟩ = .ok c ∧
      shelves.find ⟨"note"⟩ = .ok (some ⟨⟨"note"⟩, "n", "back"⟩) ∧
      (shelves.edited shelfEdits).find ⟨"note"⟩ = .ok (some ⟨⟨"note"⟩, "shadow", "front"⟩) := by
  have dependencies : (load {} shelves ⟨"page"⟩).toOption.map (·.dependencies) = some [⟨"gone"⟩, ⟨"part"⟩] := by
    decide +kernel
  obtain ⟨c, loaded, listed⟩ := load_of_toOption_map dependencies
  refine ⟨c, loaded, listed, (load_local loaded).2 shelfEdits ?_, rfl, rfl⟩
  rw [listed]
  decide

end Engine
end Pageweave
