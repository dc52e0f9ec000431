import Pageweave.Proofs.Loading.Progress
/-!
# Loads while texts change

The steps of one load may meet different texts. Whatever it asked for it remembers, found or missing. If in the end all
it asked for is as it was when it asked, a load of the texts that there are now takes the same steps.
-/
namespace Pageweave

/-- Is a key the page's own, or that of a text that was found or missing? -/
def Loaded.Covers (p : Loaded) (q : Key) : Prop := q = p.key ∨ (∃ i ∈ p.included, i.key = q) ∨ q ∈ p.missing

/-- What was found missing is noted, and a name that was tried either settled its reference or is missing. -/
structure Worklist.Sound (extension : String) (w : Worklist) : Prop where
  absent : ∀ name, w.seen? name = some false → ∃ q ∈ w.loaded.missing, Key.named extension name = .ok q
  tried : ∀ t, w.trying = some t → ∀ name ∈ t.reference.names,
    name ∈ t.rest ∨ ∃ there, w.seen? name = some there ∧ (there = true → t.resolved = true)

namespace Worklist

variable {w : Worklist} {name x : String} {s : Source} {k : Key} {there : Bool}

private theorem seen?_append {w' : Worklist} (more : w'.seen = w.seen ++ [(name, there)]) (x : String) :
    w'.seen? x = (w.seen? x).or (if name = x then some there else none) := by
  unfold seen?
  rw [more, List.find?_append]
  cases w.seen.find? fun e => e.1 == x with
  | some e => rfl
  | none => by_cases same : name = x <;> simp [same]

theorem seen?_found (w : Worklist) (name : String) (s : Source) (x : String) :
    (w.found name s).seen? x = (w.seen? x).or (if name = x then some true else none) := seen?_append rfl x

theorem seen?_absent (w : Worklist) (name : String) (k : Key) (x : String) :
    (w.absent name k).seen? x = (w.seen? x).or (if name = x then some false else none) := seen?_append rfl x

theorem seen?_start (k : Key) (text : String) (x : String) :
    (start k text).seen? x = if k.name = x then some true else none := by
  by_cases same : k.name = x <;> simp [seen?, start, same]

theorem sound_start (extension : String) (k : Key) (text : String) : (start k text).Sound extension where
  absent name seen := by
    rw [seen?_start] at seen
    split at seen
    · cases seen
    · cases seen
  tried t trying := by cases trying

theorem seen?_found_of_some (seen : w.seen? x = some there) : (w.found name s).seen? x = some there := by
  rw [seen?_found, seen]
  rfl

theorem seen?_absent_of_some (seen : w.seen? x = some there) : (w.absent name k).seen? x = some there := by
  rw [seen?_absent, seen]
  rfl

end Worklist

namespace Loading

variable {l l' : Locator} {s s' : Loading} {k q : Key} {p : Loaded} {asked : Option Key} {extension : String}

/-- A step depends on the locator only through the key that it asks for. -/
theorem Progress.step_eq (h : Progress l s asked s') (same : l'.extension = l.extension)
    (agree : ∀ q, asked = some q → l'.find q = l.find q) : s.step l' = s' := by
  have resolved {k : Key} {x : Source} (found : l.find k = .ok (some x)) (asks : asked = some k) :
      l'.resolve k = .ok x := by
    unfold Locator.resolve
    rw [agree k asks, found]
  cases h with
  | «open» found => simp [step, resolved found rfl]
  | known trying names seen => simp [step, Worklist.step, Worklist.tryName, trying, names, seen]
  | found trying names new key found =>
    simp [step, Worklist.step, Worklist.tryName, trying, names, new, Locator.key, same, key, agree _ rfl, found]
  | absent trying names new key missing =>
    simp [step, Worklist.step, Worklist.tryName, trying, names, new, Locator.key, same, key, agree _ rfl, missing]
  | content trying names fine =>
    rcases fine with fine | none_named
    · simp [step, Worklist.step, Worklist.conclude, trying, names, fine]
    · simp [step, Worklist.step, Worklist.conclude, trying, names, none_named]
  | late trying names unresolved reference key found =>
    simp [step, Worklist.step, Worklist.conclude, trying, names, unresolved, reference, Locator.key, same, key, bind,
      Except.bind, resolved found rfl]
  | next idle queue => simp [step, Worklist.step, idle, queue]
  | finish idle queue => simp [step, Worklist.step, idle, queue]
  | done r => rfl

/-- Is a key among what a load has met so far? -/
def Covers (q : Key) : Loading → Prop
  | .opening _ => False
  | .reading w => w.loaded.Covers q
  | .done (.ok p) => p.Covers q
  | .done (.error _) => False

def IsOf (k : Key) : Loading → Prop
  | .opening q => q = k
  | .reading w => w.loaded.key = k
  | .done (.ok p) => p.key = k
  | .done (.error _) => True

def Sound (extension : String) : Loading → Prop
  | .reading w => w.Sound extension
  | _ => True

theorem Progress.isOf (h : Progress l s asked s') (page : s.IsOf k) : s'.IsOf k := by
  cases h with
  | «open» _ => exact page
  | known _ _ _ => exact page
  | found _ _ _ _ _ => exact page
  | absent _ _ _ _ _ => exact page
  | content _ _ _ => exact page
  | late _ _ _ _ _ _ => exact page
  | next _ _ => exact page
  | finish _ _ => exact page
  | done _ => exact page

theorem Progress.covers (h : Progress l s asked s') (met : s.Covers q) : s'.Covers q := by
  cases h with
  | «open» _ => cases met
  | known _ _ _ => exact met
  | found _ _ _ _ _ =>
    rcases met with own | ⟨i, included, key⟩ | missing
    · exact .inl own
    · exact .inr (.inl ⟨i, List.mem_append_left _ included, key⟩)
    · exact .inr (.inr missing)
  | absent _ _ _ _ _ =>
    rcases met with own | included | missing
    · exact .inl own
    · exact .inr (.inl included)
    · exact .inr (.inr (List.mem_append_left _ missing))
  | content _ _ _ => exact met
  | late _ _ _ _ _ _ => exact met
  | next _ _ => exact met
  | finish _ _ => exact met
  | done _ => exact met

theorem Progress.covers_asked (h : Progress l s (some q) s') (sound : s.Sound l.extension) : s'.Covers q := by
  cases h with
  | «open» _ => exact .inl rfl
  | found _ _ _ _ found =>
    exact .inr (.inl ⟨_, List.mem_append_right _ (List.mem_singleton_self _), (Locator.findIn_mem found).1⟩)
  | absent _ _ _ _ _ => exact .inr (.inr (List.mem_append_right _ (List.mem_singleton_self _)))
  | @late w t first more k x trying names unresolved reference key found =>
    -- the name was tried before and was not found then
    have tried := sound.tried t trying first (by rw [reference]; exact List.mem_cons_self)
    rw [names] at tried
    obtain ⟨there, seen, settles⟩ := tried.resolve_left List.not_mem_nil
    cases there with
    | true =>
      rw [settles rfl] at unresolved
      cases unresolved
    | false =>
      obtain ⟨q', missing, named⟩ := sound.absent first seen
      rw [key] at named
      cases named
      exact .inr (.inr missing)

private theorem tried_next {w w' : Worklist} {t : Trying} {name : String} {rest : List String} {there resolved : Bool}
    (sound : w.Sound extension) (trying : w.trying = some t) (names : t.rest = name :: rest)
    (kept : ∀ x found, w.seen? x = some found → w'.seen? x = some found) (now : w'.seen? name = some there)
    (settles : there = true → resolved = true) (stays : t.resolved = true → resolved = true) :
    ∀ x ∈ t.reference.names,
      x ∈ rest ∨ ∃ found, w'.seen? x = some found ∧ (found = true → resolved = true) := by
  intro x listed
  rcases sound.tried t trying x listed with later | ⟨found, seen, settled⟩
  · rw [names] at later
    rcases List.mem_cons.mp later with rfl | later
    · exact .inr ⟨there, now, settles⟩
    · exact .inl later
  · exact .inr ⟨found, kept x found seen, fun yes => stays (settled yes)⟩

private theorem sound_known {w : Worklist} {t : Trying} {name : String} {rest : List String} {there : Bool}
    (sound : w.Sound extension) (trying : w.trying = some t) (names : t.rest = name :: rest)
    (seen : w.seen? name = some there) :
    Sound extension (w.proceed { t with rest, resolved := t.resolved || there }) := by
  refine ⟨sound.absent, ?_⟩
  rintro _ ⟨⟩
  exact tried_next (t := t) sound trying names (fun _ _ same => same) seen (by simp +contextual) (by simp +contextual)

private theorem sound_found {w : Worklist} {t : Trying} {name : String} {rest : List String} {x : Source}
    (sound : w.Sound extension) (trying : w.trying = some t) (names : t.rest = name :: rest)
    (new : w.seen? name = none) : Sound extension ((w.found name x).proceed { t with rest, resolved := true }) := by
  refine ⟨?_, ?_⟩
  · intro y seen
    change (w.found name x).seen? y = some false at seen
    rw [Worklist.seen?_found] at seen
    cases before : w.seen? y with
    | some there =>
      rw [before] at seen
      exact sound.absent y (before.trans seen)
    | none =>
      rw [before, Option.none_or] at seen
      split at seen
      · cases seen
      · cases seen
  · rintro _ ⟨⟩
    have now : (w.found name x).seen? name = some true := by
      rw [Worklist.seen?_found, new, Option.none_or, if_pos rfl]
    have kept (y : String) (there : Bool) (seen : w.seen? y = some there) : (w.found name x).seen? y = some there :=
      Worklist.seen?_found_of_some seen
    exact tried_next (t := t) sound trying names kept now (fun _ => rfl) fun _ => rfl

private theorem sound_absent {w : Worklist} {t : Trying} {name : String} {rest : List String}
    (sound : w.Sound extension) (trying : w.trying = some t) (names : t.rest = name :: rest)
    (new : w.seen? name = none) (key : Key.named extension name = .ok k) :
    Sound extension ((w.absent name k).proceed { t with rest }) := by
  refine ⟨?_, ?_⟩
  · intro y seen
    change (w.absent name k).seen? y = some false at seen
    rw [Worklist.seen?_absent] at seen
    cases before : w.seen? y with
    | some there =>
      rw [before] at seen
      obtain ⟨q, listed, named⟩ := sound.absent y (before.trans seen)
      exact ⟨q, List.mem_append_left _ listed, named⟩
    | none =>
      rw [before, Option.none_or] at seen
      split at seen
      · rename_i same
        subst same
        exact ⟨k, List.mem_append_right _ (List.mem_singleton_self k), key⟩
      · cases seen
  · rintro _ ⟨⟩
    have now : (w.absent name k).seen? name = some false := by
      rw [Worklist.seen?_absent, new, Option.none_or, if_pos rfl]
    have kept (y : String) (there : Bool) (seen : w.seen? y = some there) : (w.absent name k).seen? y = some there :=
      Worklist.seen?_absent_of_some seen
    exact tried_next (t := t) sound trying names kept now nofun fun yes => yes

theorem Progress.sound (h : Progress l s asked s') (sound : s.Sound l.extension) : s'.Sound l.extension := by
  cases h with
  | «open» _ => exact Worklist.sound_start _ _ _
  | known trying names seen => exact sound_known sound trying names seen
  | found trying names new _ _ => exact sound_found sound trying names new
  | absent trying names new key _ => exact sound_absent sound trying names new key
  | content _ _ _ => exact ⟨sound.absent, nofun⟩
  | late _ _ _ _ _ _ => exact ⟨sound.absent, nofun⟩
  | next idle queue =>
    refine ⟨sound.absent, ?_⟩
    rintro _ ⟨⟩ x listed
    exact .inl listed
  | finish _ _ => trivial
  | done _ => trivial

theorem run_done (l : Locator) (fuel : Nat) (r : Except PageError Loaded) : run l fuel (.done r) = .done r := by
  cases fuel with
  | zero => rfl
  | succ fuel => rfl

theorem run_succ (l : Locator) (fuel : Nat) (s : Loading) : run l (fuel + 1) s = run l fuel (s.step l) := by
  cases s with
  | opening k => rfl
  | reading w => rfl
  | done r =>
    change _ = run l fuel (.done r)
    rw [run_done, run_done]

theorem run_step (l : Locator) (fuel : Nat) (s : Loading) : run l (fuel + 1) s = (run l fuel s).step l := by
  induction fuel generalizing s with
  | zero => rw [run_succ]; rfl
  | succ fuel ih => rw [run_succ, ih, ← run_succ]

/-- A load of a page that takes a step at some of the moments from `i` to `j`, each with the locator of that moment. -/
structure Trace (extension : String) (locator : Nat → Locator) (steps : Nat → Prop) (load : Nat → Loading) (k : Key)
    (p : Loaded) (i j : Nat) : Prop where
  before : i ≤ j
  starts : load i = .opening k
  goes : ∀ m, i ≤ m → m < j → steps m → load (m + 1) = (load m).step (locator m)
  rests : ∀ m, i ≤ m → m < j → ¬steps m → load (m + 1) = load m
  ends : load j = .done (.ok p)
  extension : ∀ m, (locator m).extension = extension

namespace Trace

variable {locator : Nat → Locator} {steps : Nat → Prop} {load : Nat → Loading} {i j m n : Nat}

private theorem done_of_le (h : Trace extension locator steps load k p i j) {r : Except PageError Loaded}
    (after : i ≤ m) (ended : load m = .done r) (upTo : m ≤ n) (before : n ≤ j) : load n = .done r := by
  induction upTo with
  | refl => exact ended
  | @step n later ih =>
    have here := ih (by omega)
    by_cases moves : steps n
    · rw [h.goes n (Nat.le_trans after later) before moves, here]
      rfl
    · rw [h.rests n (Nat.le_trans after later) before moves, here]

private theorem progress (h : Trace extension locator steps load k p i j) (after : i ≤ m) (before : m < j)
    (moves : steps m) : Progress (locator m) (load m) ((load m).asks extension) (load (m + 1)) := by
  have next := h.goes m after before moves
  rcases progress_step (locator m) (load m) with ⟨e, failed⟩ | progress
  · have ended := h.done_of_le (Nat.le_succ_of_le after) (next.trans failed) before (Nat.le_refl j)
    rw [h.ends] at ended
    cases ended
  · rwa [next, ← h.extension m]

private theorem known (h : Trace extension locator steps load k p i j) (after : i ≤ m) (upTo : m ≤ j) :
    (load m).Sound extension ∧ (load m).IsOf k := by
  induction after with
  | refl =>
    rw [h.starts]
    exact ⟨trivial, rfl⟩
  | @step m after ih =>
    obtain ⟨sound, page⟩ := ih (by omega)
    by_cases moves : steps m
    · have progress := h.progress after upTo moves
      rw [← h.extension m] at sound ⊢
      exact ⟨progress.sound sound, progress.isOf page⟩
    · rw [h.rests m after upTo moves]
      exact ⟨sound, page⟩

theorem key_eq (h : Trace extension locator steps load k p i j) : p.key = k := by
  have page := (h.known h.before (Nat.le_refl j)).2
  rwa [h.ends] at page

private theorem covers_of_le (h : Trace extension locator steps load k p i j) (after : i ≤ m) (met : (load m).Covers q)
    (upTo : m ≤ n) (before : n ≤ j) : (load n).Covers q := by
  induction upTo with
  | refl => exact met
  | @step n later ih =>
    have from_i := Nat.le_trans after later
    by_cases moves : steps n
    · exact (h.progress from_i before moves).covers (ih (by omega))
    · rw [h.rests n from_i before moves]
      exact ih (by omega)

theorem covers (h : Trace extension locator steps load k p i j) (after : i ≤ m) (before : m < j) (moves : steps m)
    (asks : (load m).asks extension = some q) : p.Covers q := by
  have sound := (h.known after (Nat.le_of_lt before)).1
  have progress := h.progress after before moves
  rw [asks] at progress
  rw [← h.extension m] at sound
  have met := progress.covers_asked sound
  have kept := h.covers_of_le (Nat.le_succ_of_le after) met before (Nat.le_refl j)
  rwa [h.ends] at kept

/-- If all that was asked for is the same by now, a load from now takes the same steps. -/
theorem run_eq (h : Trace extension locator steps load k p i j) (same : l.extension = extension)
    (agree : ∀ m, i ≤ m → m < j → steps m → ∀ q, (load m).asks extension = some q → l.find q = (locator m).find q) :
    ∃ fuel, run l fuel (.opening k) = .done (.ok p) := by
  have reached : ∀ m, i ≤ m → m ≤ j → ∃ fuel, run l fuel (.opening k) = load m := by
    intro m after
    induction after with
    | refl => exact fun _ => ⟨0, h.starts.symm⟩
    | @step m after ih =>
      intro before
      obtain ⟨fuel, here⟩ := ih (by omega)
      by_cases moves : steps m
      · refine ⟨fuel + 1, ?_⟩
        rw [run_step, here]
        exact (h.progress after before moves).step_eq (same.trans (h.extension m).symm) (agree m after before moves)
      · exact ⟨fuel, here.trans (h.rests m after before moves).symm⟩
  obtain ⟨fuel, ended⟩ := reached j h.before (Nat.le_refl j)
  exact ⟨fuel, ended.trans h.ends⟩

end Trace
end Loading
end Pageweave
