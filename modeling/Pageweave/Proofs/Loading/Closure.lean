import Pageweave.Proofs.Loading.Locality
/-!
# The dependencies of a page are what it reaches

The names that a page reaches form the least set that holds the names its text refers to and, with every name that has
a text, those which that text refers to. The page's own name counts as found and leads no further. A load looks up all
of them and nothing else: at each step a name that is reached from what was looked up is looked up too, or still waits.
-/
namespace Pageweave

/-- A text refers to a name. -/
def Refers (text name : String) : Prop := ∃ r ∈ Reference.scan text, name ∈ r.names

/-- The names that are reached from the text of a page. -/
inductive Reaches (l : Locator) (k : Key) (text : String) : String → Prop where
  | own {name : String} (refers : Refers text name) : Reaches l k text name
  | beyond {via name : String} {q : Key} {s : Source} (reached : Reaches l k text via) (other : via ≠ k.name)
    (key : l.key via = .ok q) (found : l.find q = .ok (some s)) (refers : Refers s.text name) :
    Reaches l k text name

/-- A key belongs to a name, not the page's own, that the page reaches. -/
def ReachesKey (l : Locator) (k : Key) (text : String) (q : Key) : Prop :=
  ∃ name, Reaches l k text name ∧ name ≠ k.name ∧ l.key name = .ok q

namespace Worklist

variable {l : Locator} {k : Key} {text name x : String} {w w' : Worklist} {t : Trying} {rest : List String} {s : Source}

/-- A name waits to be tried. -/
def Pending (w : Worklist) (name : String) : Prop :=
  (∃ t, w.trying = some t ∧ name ∈ t.rest) ∨ ∃ r ∈ w.queue, name ∈ r.names

def Meets (w : Worklist) (name : String) : Prop := (w.seen? name).isSome = true ∨ w.Pending name

/-- A name was looked up: its key is known, and all that the text behind it refers to is met. -/
def LookedUp (l : Locator) (w : Worklist) (name : String) : Prop :=
  ∃ q, l.key name = .ok q ∧ w.loaded.Covers q ∧ ∀ s, l.find q = .ok (some s) → ∀ x, Refers s.text x → w.Meets x

structure Frontier (l : Locator) (k : Key) (text : String) (w : Worklist) : Prop where
  key_eq : w.loaded.key = k
  text_eq : w.loaded.text = text
  self : (w.seen? k.name).isSome = true
  pending : ∀ x, w.Pending x → Reaches l k text x
  own : ∀ x, Refers text x → w.Meets x
  covered : ∀ q, w.loaded.Covers q → q = k ∨ ReachesKey l k text q
  seen : ∀ x, (w.seen? x).isSome = true → x ≠ k.name → w.LookedUp l x

theorem not_pending_of_idle (idle : w.trying = none) (queue : w.queue = []) : ¬w.Pending x := by
  rintro (⟨t, trying, -⟩ | ⟨r, listed, -⟩)
  · rw [idle] at trying
    cases trying
  · rw [queue] at listed
    cases listed

private theorem LookedUp.mono (h : w.LookedUp l name) (covers : ∀ q, w.loaded.Covers q → w'.loaded.Covers q)
    (meets : ∀ x, w.Meets x → w'.Meets x) : w'.LookedUp l name := by
  obtain ⟨q, key, covered, refers⟩ := h
  exact ⟨q, key, covers q covered, fun s found x mentioned => meets x (refers s found x mentioned)⟩

/-- A step keeps the frontier if it forgets nothing and adds nothing but what is reached. -/
private theorem Frontier.step (h : w.Frontier l k text)
    (same : w'.loaded.key = w.loaded.key ∧ w'.loaded.text = w.loaded.text)
    (kept : ∀ x, (w.seen? x).isSome = true → (w'.seen? x).isSome = true)
    (meets : ∀ x, w.Meets x → w'.Meets x)
    (covers : ∀ q, w.loaded.Covers q → w'.loaded.Covers q)
    (pending : ∀ x, w'.Pending x → w.Pending x ∨ Reaches l k text x)
    (covered : ∀ q, w'.loaded.Covers q → w.loaded.Covers q ∨ ReachesKey l k text q)
    (seen : ∀ x, (w'.seen? x).isSome = true → (w.seen? x).isSome = true ∨ w'.LookedUp l x) :
    w'.Frontier l k text where
  key_eq := same.1.trans h.key_eq
  text_eq := same.2.trans h.text_eq
  self := kept _ h.self
  pending x waits := (pending x waits).elim (h.pending x) id
  own x refers := meets x (h.own x refers)
  covered q met := (covered q met).elim (h.covered q) .inr
  seen x looked other := (seen x looked).elim (fun before => (h.seen x before other).mono covers meets) id

private theorem Frontier.move (h : w.Frontier l k text) (loaded : w'.loaded = w.loaded) (seen : w'.seen = w.seen)
    (meets : ∀ x, w.Pending x → w'.Meets x) (pending : ∀ x, w'.Pending x → w.Pending x) : w'.Frontier l k text := by
  have same (x : String) : w'.seen? x = w.seen? x := by
    unfold seen?
    rw [seen]
  refine h.step (by rw [loaded]; exact ⟨rfl, rfl⟩) ?_ ?_ ?_ ?_ ?_ ?_
  · intro x before
    rwa [same]
  · rintro x (before | waits)
    · exact .inl (by rwa [same])
    · exact meets x waits
  · intro q met
    rwa [loaded]
  · intro x waits
    exact .inl (pending x waits)
  · intro q met
    rw [loaded] at met
    exact .inl met
  · intro x now
    rw [same] at now
    exact .inl now

private theorem frontier_start (l : Locator) (k : Key) (text : String) : (start k text).Frontier l k text where
  key_eq := rfl
  text_eq := rfl
  self := by simp [seen?_start]
  pending x waits := by
    rcases waits with ⟨t, trying, -⟩ | ⟨r, listed, named⟩
    · cases trying
    · exact .own ⟨r, listed, named⟩
  own x refers := .inr (.inr refers)
  covered q met := by
    rcases met with own | ⟨i, included, -⟩ | missing
    · exact .inl own
    · cases included
    · cases missing
  seen x looked other := by
    rw [seen?_start, if_neg (Ne.symm other)] at looked
    cases looked

private theorem frontier_known {there resolved : Bool} (h : w.Frontier l k text) (trying : w.trying = some t)
    (names : t.rest = name :: rest) (seen : w.seen? name = some there) :
    Frontier l k text { w with trying := some { t with rest, resolved } } := by
  refine h.move rfl rfl ?_ ?_
  · rintro x (⟨t', same, listed⟩ | queued)
    · rw [trying, Option.some.injEq] at same
      subst same
      rw [names] at listed
      rcases List.mem_cons.mp listed with rfl | later
      · exact .inl (Option.isSome_iff_exists.mpr ⟨there, seen⟩)
      · exact .inr (.inl ⟨_, rfl, later⟩)
    · exact .inr (.inr queued)
  · rintro x (⟨t', same, later⟩ | queued)
    · cases same
      exact .inl ⟨t, trying, by rw [names]; exact List.mem_cons_of_mem _ later⟩
    · exact .inr queued

private theorem frontier_concluded (h : w.Frontier l k text) (trying : w.trying = some t) (names : t.rest = []) :
    Frontier l k text { w with trying := none } := by
  refine h.move rfl rfl ?_ ?_
  · rintro x (⟨t', same, listed⟩ | queued)
    · rw [trying, Option.some.injEq] at same
      subst same
      rw [names] at listed
      cases listed
    · exact .inr (.inr queued)
  · rintro x (⟨t', same, -⟩ | queued)
    · cases same
    · exact .inr queued

private theorem frontier_next {r : Reference} {later : List Reference} (h : w.Frontier l k text)
    (idle : w.trying = none) (queue : w.queue = r :: later) :
    Frontier l k text { w with queue := later, trying := some ⟨r, r.names, false⟩ } := by
  refine h.move rfl rfl ?_ ?_
  · rintro x (⟨t', same, -⟩ | ⟨r', listed, named⟩)
    · rw [idle] at same
      cases same
    · rw [queue] at listed
      rcases List.mem_cons.mp listed with rfl | behind
      · exact .inr (.inl ⟨_, rfl, named⟩)
      · exact .inr (.inr ⟨r', behind, named⟩)
  · rintro x (⟨t', same, named⟩ | ⟨r', listed, named⟩)
    · cases same
      exact .inr ⟨r, by rw [queue]; exact List.mem_cons_self, named⟩
    · exact .inr ⟨r', by rw [queue]; exact List.mem_cons_of_mem _ listed, named⟩

private theorem Frontier.lookUp {q : Key} {there : Bool} {t' : Trying} {brought : List Reference}
    (h : w.Frontier l k text) (trying : w.trying = some t) (names : t.rest = name :: rest) (new : w.seen? name = none)
    (key : l.key name = .ok q) (same : w'.loaded.key = w.loaded.key ∧ w'.loaded.text = w.loaded.text)
    (seen : ∀ x, w'.seen? x = (w.seen? x).or (if name = x then some there else none))
    (goes_on : w'.trying = some t' ∧ t'.rest = rest) (queue : w'.queue = w.queue ++ brought)
    (covers : ∀ q', w'.loaded.Covers q' ↔ w.loaded.Covers q' ∨ q' = q)
    (brings : ∀ s, l.find q = .ok (some s) → brought = Reference.scan s.text)
    (nothing_else : (∃ s, l.find q = .ok (some s)) ∨ brought = []) : w'.Frontier l k text := by
  have reached : Reaches l k text name := h.pending name (.inl ⟨t, trying, by rw [names]; exact List.mem_cons_self⟩)
  have other : name ≠ k.name := by
    rintro rfl
    have self := h.self
    rw [new] at self
    cases self
  have kept (x : String) (before : (w.seen? x).isSome = true) : (w'.seen? x).isSome = true := by
    rw [seen, Option.isSome_or, before]
    rfl
  refine h.step same kept ?_ (fun q' met => (covers q').mpr (.inl met)) ?_ ?_ ?_
  · rintro x (before | ⟨t', same, listed⟩ | ⟨r, listed, named⟩)
    · exact .inl (kept x before)
    · rw [trying, Option.some.injEq] at same
      subst same
      rw [names] at listed
      rcases List.mem_cons.mp listed with rfl | later
      · exact .inl (by rw [seen, new]; simp)
      · exact .inr (.inl ⟨_, goes_on.1, by rwa [goes_on.2]⟩)
    · exact .inr (.inr ⟨r, by rw [queue]; exact List.mem_append_left _ listed, named⟩)
  · rintro x (⟨t'', same, later⟩ | ⟨r, listed, named⟩)
    · rw [goes_on.1, Option.some.injEq] at same
      subst same
      rw [goes_on.2] at later
      exact .inl (.inl ⟨t, trying, by rw [names]; exact List.mem_cons_of_mem _ later⟩)
    · rw [queue] at listed
      rcases List.mem_append.mp listed with before | new_one
      · exact .inl (.inr ⟨r, before, named⟩)
      · rcases nothing_else with ⟨s, found⟩ | nothing
        · rw [brings s found] at new_one
          exact .inr (.beyond reached other key found ⟨r, new_one, named⟩)
        · rw [nothing] at new_one
          cases new_one
  · intro q' met
    rcases (covers q').mp met with before | rfl
    · exact .inl before
    · exact .inr ⟨name, reached, other, key⟩
  · intro x now
    rw [seen] at now
    by_cases this : name = x
    · subst this
      refine .inr ⟨q, key, (covers q).mpr (.inr rfl), ?_⟩
      rintro s found y ⟨r, listed, named⟩
      exact .inr (.inr ⟨r, by rw [queue, brings s found]; exact List.mem_append_right _ listed, named⟩)
    · rw [if_neg this, Option.or_none] at now
      exact .inl now

private theorem frontier_found {q : Key} {resolved : Bool} (h : w.Frontier l k text) (trying : w.trying = some t)
    (names : t.rest = name :: rest) (new : w.seen? name = none) (key : l.key name = .ok q)
    (found : l.find q = .ok (some s)) :
    Frontier l k text { w.found name s with trying := some { t with rest, resolved } } := by
  refine h.lookUp trying names new key ⟨rfl, rfl⟩ (seen?_found w name s) ⟨rfl, rfl⟩ rfl ?_ ?_ (.inl ⟨s, found⟩)
  · intro q'
    have same : s.key = q := (Locator.findIn_mem found).1
    simp only [Loaded.Covers, Worklist.found, List.mem_append, List.mem_singleton, or_and_right, exists_or,
      exists_eq_left, same]
    grind
  · intro s' there
    rw [found] at there
    cases there
    rfl

private theorem frontier_absent {q : Key} (h : w.Frontier l k text) (trying : w.trying = some t)
    (names : t.rest = name :: rest) (new : w.seen? name = none) (key : l.key name = .ok q)
    (missing : l.find q = .ok none) : Frontier l k text { w.absent name q with trying := some { t with rest } } := by
  refine h.lookUp trying names new key ⟨rfl, rfl⟩ (seen?_absent w name q) ⟨rfl, rfl⟩
    (List.append_nil w.queue).symm ?_ ?_ (.inr rfl)
  · intro q'
    simp only [Loaded.Covers, Worklist.absent, List.mem_append, List.mem_singleton, or_assoc]
  · intro s there
    rw [missing] at there
    cases there

/-- When nothing waits any more, every name that is reached was seen. -/
private theorem Frontier.seen_of_reaches (h : w.Frontier l k text) (idle : w.trying = none) (queue : w.queue = [])
    (reached : Reaches l k text name) : (w.seen? name).isSome = true := by
  have seen_of_meets {x : String} (meets : w.Meets x) : (w.seen? x).isSome = true :=
    meets.resolve_right (not_pending_of_idle idle queue)
  induction reached with
  | own refers => exact seen_of_meets (h.own _ refers)
  | beyond _ other key found refers ih =>
    obtain ⟨q, key', -, meets⟩ := h.seen _ ih other
    rw [key] at key'
    cases key'
    exact seen_of_meets (meets _ found _ refers)

end Worklist

/-- What was loaded is just what is reached from its text. -/
structure Loaded.Closed (l : Locator) (k : Key) (text : String) (p : Loaded) : Prop where
  key_eq : p.key = k
  text_eq : p.text = text
  covers_iff : ∀ q, p.Covers q ↔ q = k ∨ ReachesKey l k text q
  named : ∀ name, Reaches l k text name → name ≠ k.name → ∃ q, l.key name = .ok q

namespace Loading

variable {l : Locator} {k : Key} {s s' : Loading} {asked : Option Key} {p : Loaded}

/-- All that a load has met lies on the way from its page, and all that it skipped still waits. -/
def OnFrontier (l : Locator) (k : Key) : Loading → Prop
  | .opening q => q = k
  | .reading w => ∃ x, l.find k = .ok (some x) ∧ w.Frontier l k x.text
  | .done (.ok p) => ∃ x, l.find k = .ok (some x) ∧ p.Closed l k x.text
  | .done (.error _) => False

private theorem closed_of_frontier {w : Worklist} {text : String} (h : w.Frontier l k text) (idle : w.trying = none)
    (queue : w.queue = []) : w.loaded.Closed l k text := by
  have looked {name : String} (reached : Reaches l k text name) (other : name ≠ k.name) : w.LookedUp l name :=
    h.seen name (h.seen_of_reaches idle queue reached) other
  refine ⟨h.key_eq, h.text_eq, fun q => ⟨h.covered q, ?_⟩, ?_⟩
  · rintro (rfl | ⟨name, reached, other, key⟩)
    · exact .inl h.key_eq.symm
    · obtain ⟨q', key', covered, -⟩ := looked reached other
      rw [key] at key'
      cases key'
      exact covered
  · intro name reached other
    obtain ⟨q, key, -⟩ := looked reached other
    exact ⟨q, key⟩

theorem Progress.onFrontier (h : Progress l s asked s') (before : s.OnFrontier l k) : s'.OnFrontier l k := by
  cases h with
  | «open» found =>
    cases before
    exact ⟨_, found, Worklist.frontier_start l k _⟩
  | known trying names seen =>
    obtain ⟨x, found, frontier⟩ := before
    exact ⟨x, found, Worklist.frontier_known frontier trying names seen⟩
  | found trying names new key there =>
    obtain ⟨x, found, frontier⟩ := before
    exact ⟨x, found, Worklist.frontier_found frontier trying names new key there⟩
  | absent trying names new key missing =>
    obtain ⟨x, found, frontier⟩ := before
    exact ⟨x, found, Worklist.frontier_absent frontier trying names new key missing⟩
  | content trying names _ =>
    obtain ⟨x, found, frontier⟩ := before
    exact ⟨x, found, Worklist.frontier_concluded frontier trying names⟩
  | late trying names _ _ _ _ =>
    obtain ⟨x, found, frontier⟩ := before
    exact ⟨x, found, Worklist.frontier_concluded frontier trying names⟩
  | next idle queue =>
    obtain ⟨x, found, frontier⟩ := before
    exact ⟨x, found, Worklist.frontier_next frontier idle queue⟩
  | finish idle queue =>
    obtain ⟨x, found, frontier⟩ := before
    exact ⟨x, found, closed_of_frontier frontier idle queue⟩
  | done _ => exact before

end Loading

namespace Engine

variable {e : Engine} {l : Locator} {k : Key} {c : Compiled}

/-- The dependencies of a page are the keys of the names that it reaches, without its own; every such name has a key. -/
theorem dependencies_eq_reached (loaded : e.load l k = .ok c) :
    ∃ s, l.find k = .ok (some s) ∧ c.source = s.text ∧
      (∀ q, q ∈ c.dependencies ↔ q ≠ k ∧ ReachesKey l k s.text q) ∧
      (∀ name, Reaches l k s.text name → name ≠ k.name → ∃ q, l.key name = .ok q) := by
  obtain ⟨p, gathered, assembled⟩ := gather_of_load loaded
  obtain ⟨fuel, ends⟩ := run_of_gather gathered
  obtain ⟨s, found, closed⟩ : Loading.OnFrontier l k (.done (.ok p)) :=
    Loading.run_ok_induction (s := .opening k) (fun _ _ _ progress => progress.onFrontier) rfl ends
  refine ⟨s, found, ?_, ?_, closed.named⟩
  · rw [(of_assemble assembled).1, closed.text_eq]
  · intro q
    rw [mem_dependencies_iff assembled, closed.covers_iff, closed.key_eq, and_comm, and_congr_right_iff]
    intro other
    simp [other]

/-- Two pages that refer to each other, one of them to itself, under other names and to a name without a text. -/
def ring : Locator where
  stores := [.memory "texts" [(⟨"a"⟩, "\x7b% include ['./b', 'no'] %\x7d"), (⟨"b"⟩, "\x7b% include ['a.html', 'b'] %\x7d")]]
  extension := "html"

theorem ring_dependencies_eq_reached :
    ∃ c s, load {} ring ⟨"a"⟩ = .ok c ∧ ring.find ⟨"a"⟩ = .ok (some s) ∧
      c.dependencies = [⟨"b"⟩, ⟨"no"⟩] ∧
      ∀ q, q ∈ c.dependencies ↔ q ≠ ⟨"a"⟩ ∧ ReachesKey ring ⟨"a"⟩ s.text q := by
  have dependencies : (load {} ring ⟨"a"⟩).toOption.map (·.dependencies) = some [⟨"b"⟩, ⟨"no"⟩] := by
    decide +kernel
  obtain ⟨c, loaded, listed⟩ := load_of_toOption_map dependencies
  obtain ⟨s, found, -, exact_set, -⟩ := dependencies_eq_reached loaded
  exact ⟨c, s, loaded, found, listed, exact_set⟩

end Engine
end Pageweave
