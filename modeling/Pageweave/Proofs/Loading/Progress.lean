import Pageweave.Loading
/-!
# What one step of a load can do

A step that does not fail goes on in one of a few ways. It depends on the locator only through the one key that it asks
for, and whatever is asked for is known afterwards: among what was loaded, or among what is missing.
-/
namespace Pageweave

/-- The key that the next step asks the locator for, if it asks. -/
def Worklist.asks (extension : String) (w : Worklist) : Option Key :=
  match w.trying with
  | none => none
  | some t =>
    match t.rest with
    | name :: _ => if (w.seen? name).isSome then none else (Key.named extension name).toOption
    | [] =>
      if t.resolved || t.reference.ignoreMissing then none
      else
        match t.reference.names with
        | [] => none
        | first :: _ => (Key.named extension first).toOption

namespace Loading

def asks (extension : String) : Loading → Option Key
  | .opening k => some k
  | .reading w => w.asks extension
  | .done _ => none

/-- With this locator a step leads from one state to another and asks for this key. -/
inductive Progress (l : Locator) : Loading → Option Key → Loading → Prop where
  | «open» {k : Key} {s : Source} (found : l.find k = .ok (some s)) :
    Progress l (.opening k) (some k) (.reading (Worklist.start k s.text))
  | known {w : Worklist} {t : Trying} {name : String} {rest : List String} {there : Bool} (trying : w.trying = some t)
      (names : t.rest = name :: rest) (seen : w.seen? name = some there) :
    Progress l (.reading w) none (w.proceed { t with rest, resolved := t.resolved || there })
  | found {w : Worklist} {t : Trying} {name : String} {rest : List String} {k : Key} {s : Source}
      (trying : w.trying = some t) (names : t.rest = name :: rest) (new : w.seen? name = none)
      (key : Key.named l.extension name = .ok k) (found : l.find k = .ok (some s)) :
    Progress l (.reading w) (some k) ((w.found name s).proceed { t with rest, resolved := true })
  | absent {w : Worklist} {t : Trying} {name : String} {rest : List String} {k : Key}
      (trying : w.trying = some t) (names : t.rest = name :: rest) (new : w.seen? name = none)
      (key : Key.named l.extension name = .ok k) (missing : l.find k = .ok none) :
    Progress l (.reading w) (some k) ((w.absent name k).proceed { t with rest })
  | content {w : Worklist} {t : Trying} (trying : w.trying = some t) (names : t.rest = [])
      (fine : (t.resolved || t.reference.ignoreMissing) = true ∨ t.reference.names = []) :
    Progress l (.reading w) none (.reading { w with trying := none })
  /-- Nothing was found behind any of the names, but by now there is a text behind the first of them. -/
  | late {w : Worklist} {t : Trying} {first : String} {more : List String} {k : Key} {s : Source}
      (trying : w.trying = some t) (names : t.rest = [])
      (unresolved : (t.resolved || t.reference.ignoreMissing) = false) (reference : t.reference.names = first :: more)
      (key : Key.named l.extension first = .ok k) (found : l.find k = .ok (some s)) :
    Progress l (.reading w) (some k) (.reading { w with trying := none })
  | next {w : Worklist} {r : Reference} {rest : List Reference} (idle : w.trying = none) (queue : w.queue = r :: rest) :
    Progress l (.reading w) none (.reading { w with queue := rest, trying := some ⟨r, r.names, false⟩ })
  | finish {w : Worklist} (idle : w.trying = none) (queue : w.queue = []) :
    Progress l (.reading w) none (.done (.ok w.loaded))
  | done (r : Except PageError Loaded) : Progress l (.done r) none (.done r)

variable {l : Locator} {w : Worklist} {t : Trying} {k q : Key} {p : Loaded} {s s' : Loading} {name : String}
  {asked : Option Key}

def Failed (s : Loading) : Prop := ∃ e, s = .done (.error e)

private theorem resolve_cases (l : Locator) (k : Key) :
    (∃ e, l.resolve k = .error e) ∨ ∃ s, l.find k = .ok (some s) ∧ l.resolve k = .ok s := by
  unfold Locator.resolve
  cases found : l.find k with
  | error e => exact .inl ⟨e, rfl⟩
  | ok there =>
    cases there with
    | none => exact .inl ⟨_, rfl⟩
    | some s => exact .inr ⟨s, rfl, rfl⟩

private theorem progress_tryName {rest : List String} (trying : w.trying = some t) (names : t.rest = name :: rest) :
    Failed (w.tryName l t name rest) ∨ Progress l (.reading w) (w.asks l.extension) (w.tryName l t name rest) := by
  unfold Worklist.tryName Worklist.asks
  simp only [trying, names]
  cases seen : w.seen? name with
  | some there => exact .inr (.known trying names seen)
  | none =>
    cases key : Key.named l.extension name with
    | error e =>
      simp only [Locator.key, key]
      exact .inl ⟨e, rfl⟩
    | ok k =>
      simp only [Locator.key, key]
      cases found : l.find k with
      | error e => exact .inl ⟨e, rfl⟩
      | ok there =>
        cases there with
        | some s => exact .inr (.found trying names seen key found)
        | none => exact .inr (.absent trying names seen key found)

private theorem progress_conclude (trying : w.trying = some t) (names : t.rest = []) :
    Failed (w.conclude l t) ∨ Progress l (.reading w) (w.asks l.extension) (w.conclude l t) := by
  unfold Worklist.conclude Worklist.asks
  simp only [trying, names]
  cases fine : t.resolved || t.reference.ignoreMissing with
  | true => exact .inr (.content trying names (.inl fine))
  | false =>
    cases reference : t.reference.names with
    | nil => exact .inr (.content trying names (.inr reference))
    | cons first more =>
      cases key : Key.named l.extension first with
      | error e =>
        have asked : (l.key first >>= l.resolve) = .error e := by
          unfold Locator.key
          rw [key]
          rfl
        simp only [asked]
        exact .inl ⟨e, rfl⟩
      | ok k =>
        have asked : (l.key first >>= l.resolve) = l.resolve k := by
          unfold Locator.key
          rw [key]
          rfl
        rcases resolve_cases l k with ⟨e, failed⟩ | ⟨s, found, resolved⟩
        · simp only [asked, failed]
          exact .inl ⟨e, rfl⟩
        · simp only [asked, resolved, key, Bool.false_eq_true, if_false]
          exact .inr (.late trying names fine reference key found)

/-- A step that does not fail goes on in one of these ways. -/
theorem progress_step (l : Locator) (s : Loading) :
    Failed (s.step l) ∨ Progress l s (s.asks l.extension) (s.step l) := by
  cases s with
  | opening k =>
    unfold step asks
    rcases resolve_cases l k with ⟨e, failed⟩ | ⟨s, found, resolved⟩
    · simp only [failed]
      exact .inl ⟨e, rfl⟩
    · simp only [resolved]
      exact .inr (.open found)
  | reading w =>
    change Failed (w.step l) ∨ Progress l (.reading w) (w.asks l.extension) (w.step l)
    cases trying : w.trying with
    | some t =>
      cases names : t.rest with
      | cons name rest =>
        rw [show w.step l = w.tryName l t name rest by simp [Worklist.step, trying, names]]
        exact progress_tryName trying names
      | nil =>
        rw [show w.step l = w.conclude l t by simp [Worklist.step, trying, names]]
        exact progress_conclude trying names
    | none =>
      right
      rw [show w.asks l.extension = none by simp [Worklist.asks, trying]]
      cases queue : w.queue with
      | cons r rest =>
        rw [show w.step l = .reading { w with queue := rest, trying := some ⟨r, r.names, false⟩ } by
          simp [Worklist.step, trying, queue]]
        exact .next trying queue
      | nil =>
        rw [show w.step l = .done (.ok w.loaded) by simp [Worklist.step, trying, queue]]
        exact .finish trying queue
  | done r => exact .inr (.done r)

end Loading
end Pageweave
