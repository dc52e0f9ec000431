import Pageweave.Proofs.Loading.Table
import Pageweave.Proofs.Reference.Literal
/-!
# What a load looks up

A load looks a name up only if it never did before, and a name that waits to be looked up stands in one of the texts
that the locator has, once comments and raw blocks are taken out of it. Apart from such names a load asks for its page,
and once more for a name that is missing when it fails because of it.
-/
namespace Pageweave

/-- The name that the next step looks up, if it looks one up. -/
def Worklist.looksUp (w : Worklist) : Option String :=
  match w.trying with
  | none => none
  | some t =>
    match t.rest with
    | [] => none
    | name :: _ => if (w.seen? name).isSome then none else some name

namespace Worklist

variable {l : Locator} {k q : Key} {w : Worklist} {t : Trying} {name first : String} {more : List String}

theorem looksUp_eq_some (looks : w.looksUp = some name) :
    w.seen? name = none ∧ ∃ t rest, w.trying = some t ∧ t.rest = name :: rest := by
  unfold looksUp at looks
  split at looks
  · cases looks
  · rename_i t trying
    split at looks
    · cases looks
    · rename_i other rest names
      split at looks
      · cases looks
      · rename_i new
        obtain rfl := Option.some.inj looks
        exact ⟨by simpa using new, t, rest, trying, names⟩

theorem Tabled.find_eq_none (tabled : w.Tabled l k) (sound : w.Sound l.extension) (trying : w.trying = some t)
    (names : t.rest = []) (unresolved : t.resolved = false) (listed : name ∈ t.reference.names) :
    ∃ q, l.key name = .ok q ∧ l.find q = .ok none := by
  obtain ⟨there, seen, settles⟩ := (sound.tried t trying name listed).resolve_left (by simp [names])
  have missing : there = false := by
    cases there with
    | false => rfl
    | true => rw [settles rfl] at unresolved; cases unresolved
  rw [missing] at seen
  have other : name ≠ k.name := by
    rintro rfl
    rw [tabled.own] at seen
    cases seen
  exact tabled.absent name other seen

theorem Tabled.conclude_eq (tabled : w.Tabled l k) (sound : w.Sound l.extension) (trying : w.trying = some t)
    (names : t.rest = []) (unresolved : (t.resolved || t.reference.ignoreMissing) = false)
    (reference : t.reference.names = first :: more) :
    ∃ q, l.key first = .ok q ∧ w.conclude l t = .done (.error (.notFound q (l.suggestions q))) := by
  have listed : first ∈ t.reference.names := by simp [reference]
  obtain ⟨q, key, missing⟩ := tabled.find_eq_none sound trying names (Bool.or_eq_false_iff.mp unresolved).1 listed
  refine ⟨q, key, ?_⟩
  simp [conclude, unresolved, reference, key, Locator.resolve, missing, bind, Except.bind]

end Worklist

namespace Loading

variable {l : Locator} {k q : Key} {s s' : Loading} {asked : Option Key} {w : Worklist} {name : String} {m n : Nat}

def looksUp : Loading → Option String
  | .reading w => w.looksUp
  | _ => none

/-- A name waits in the queue of a load. -/
def Queues (name : String) : Loading → Prop
  | .reading w => w.Pending name
  | _ => False

/-- A load will not look this name up any more. -/
def Knows (name : String) : Loading → Prop
  | .opening _ => False
  | .reading w => (w.seen? name).isSome = true
  | .done _ => True

theorem looksUp_ne_of_knows (knows : s.Knows name) : s.looksUp ≠ some name := by
  intro looks
  cases s with
  | opening _ => cases looks
  | done _ => cases looks
  | reading w =>
    obtain ⟨new, -⟩ := Worklist.looksUp_eq_some looks
    simp [Knows, new] at knows

private theorem Progress.knows (h : Progress l s asked s') (knows : s.Knows name) : s'.Knows name := by
  cases h with
  | «open» _ => cases knows
  | known _ _ _ => exact knows
  | @found w _ looked _ _ x _ _ _ _ _ =>
    change ((w.found looked x).seen? name).isSome = true
    rw [Worklist.seen?_found, Option.isSome_or, knows, Bool.true_or]
  | @absent w _ looked _ q _ _ _ _ _ =>
    change ((w.absent looked q).seen? name).isSome = true
    rw [Worklist.seen?_absent, Option.isSome_or, knows, Bool.true_or]
  | content _ _ _ => exact knows
  | late _ _ _ _ _ _ => exact knows
  | next _ _ => exact knows
  | finish _ _ => trivial
  | done _ => trivial

theorem knows_step (knows : s.Knows name) : (s.step l).Knows name := by
  rcases progress_step l s with ⟨e, failed⟩ | progress
  · rw [failed]
    trivial
  · exact progress.knows knows

theorem knows_step_of_looksUp (looks : s.looksUp = some name) : (s.step l).Knows name := by
  cases s with
  | opening _ => cases looks
  | done _ => cases looks
  | reading w =>
    obtain ⟨new, t, rest, trying, names⟩ := Worklist.looksUp_eq_some looks
    have step : w.step l = w.tryName l t name rest := by simp [Worklist.step, trying, names]
    change (w.step l).Knows name
    rw [step]
    unfold Worklist.tryName
    rw [new]
    split
    · rename_i there seen
      cases seen
    · split
      · trivial
      · split
        · trivial
        · simp [Knows, Worklist.proceed, Worklist.seen?, Worklist.found]
        · simp [Knows, Worklist.proceed, Worklist.seen?, Worklist.absent]

theorem knows_run (knows : s.Knows name) (n : Nat) : (run l n s).Knows name := by
  induction n with
  | zero => exact knows
  | succ n ih =>
    rw [run_step]
    exact knows_step ih

theorem run_add (l : Locator) (m n : Nat) (s : Loading) : run l (m + n) s = run l n (run l m s) := by
  induction n with
  | zero => rfl
  | succ n ih => rw [← Nat.add_assoc, run_step, ih, ← run_step]

private theorem not_looksUp_later (looks : (run l m s).looksUp = some name) (later : m < n) :
    (run l n s).looksUp ≠ some name := by
  obtain ⟨d, rfl⟩ := Nat.exists_eq_add_of_lt later
  apply looksUp_ne_of_knows
  rw [show m + d + 1 = m + 1 + d by omega, run_add, run_step]
  exact knows_run (knows_step_of_looksUp looks) d

/-- No name is looked up twice. -/
theorem looksUp_once (looks : (run l m s).looksUp = some name) (looks' : (run l n s).looksUp = some name) : m = n := by
  rcases Nat.lt_trichotomy m n with before | same | after
  · exact absurd looks' (not_looksUp_later looks before)
  · exact same
  · exact absurd looks (not_looksUp_later looks' after)

theorem reading_invariant (reads : run l n (.opening k) = .reading w) :
    ∃ x, l.find k = .ok (some x) ∧ w.Frontier l k x.text ∧ w.Tabled l k ∧ w.Sound l.extension := by
  have kept := run_invariant (l := l) (P := fun s => s.OnTable l k ∧ s.Sound l.extension)
    (fun s asked s' progress holds => ⟨progress.onTable holds.1, progress.sound holds.2⟩)
    (s := .opening k) ⟨rfl, trivial⟩ n
  rw [reads] at kept
  rcases kept with ⟨⟨x, found, frontier, tabled⟩, sound⟩ | ⟨e, failed⟩
  · exact ⟨x, found, frontier, tabled, sound⟩
  · cases failed

private theorem Progress.ne_opening (h : Progress l s asked s') : s' ≠ .opening k ∨ ∃ r, s = .done r := by
  cases h with
  | done r => exact .inr ⟨r, rfl⟩
  | _ => exact .inl nofun

theorem run_ne_opening (l : Locator) (n : Nat) (s : Loading) : run l (n + 1) s ≠ .opening k := by
  rw [run_step]
  rcases progress_step l (run l n s) with ⟨e, failed⟩ | progress
  · rw [failed]
    nofun
  · rcases progress.ne_opening with other | ⟨r, ended⟩
    · exact other
    · rw [ended]
      nofun

private theorem asks_reading (tabled : w.Tabled l k) (sound : w.Sound l.extension)
    (asks : w.asks l.extension = some q) :
    (∃ name, w.looksUp = some name ∧ l.key name = .ok q) ∨
      w.step l = .done (.error (.notFound q (l.suggestions q))) := by
  have of_key {name : String} (key : (Key.named l.extension name).toOption = some q) : l.key name = .ok q := by
    unfold Locator.key
    cases named : Key.named l.extension name with
    | error e => rw [named] at key; cases key
    | ok p => rw [named] at key; cases key; rfl
  cases trying : w.trying with
  | none => simp [Worklist.asks, trying] at asks
  | some t =>
    cases names : t.rest with
    | cons name rest =>
      left
      by_cases known : (w.seen? name).isSome = true
      · simp [Worklist.asks, trying, names, known] at asks
      · simp only [Worklist.asks, trying, names, known] at asks
        exact ⟨name, by simp [Worklist.looksUp, trying, names, known], of_key asks⟩
    | nil =>
      right
      by_cases fine : (t.resolved || t.reference.ignoreMissing) = true
      · simp only [Worklist.asks, trying, names, fine, if_true] at asks
        cases asks
      · cases reference : t.reference.names with
        | nil => simp [Worklist.asks, trying, names, fine, reference] at asks
        | cons first more =>
          obtain ⟨q', key, concludes⟩ := tabled.conclude_eq sound trying names (by simpa using fine) reference
          simp only [Worklist.asks, trying, names, fine, reference] at asks
          obtain rfl : q' = q := Except.ok.inj (key.symm.trans (of_key asks))
          simp only [Worklist.step, trying, names, concludes]

/-- What a load asks for is its page, or a name that it looks up, or a name that is missing and that it fails with. -/
theorem asks_cases (asks : (run l n (.opening k)).asks l.extension = some q) :
    (n = 0 ∧ q = k) ∨ (∃ name, (run l n (.opening k)).looksUp = some name ∧ l.key name = .ok q) ∨
      run l (n + 1) (.opening k) = .done (.error (.notFound q (l.suggestions q))) := by
  have step := run_step l n (.opening k)
  cases n with
  | zero => exact .inl ⟨rfl, (Option.some.inj asks).symm⟩
  | succ n =>
    cases here : run l (n + 1) (.opening k) with
    | opening _ => exact absurd here (run_ne_opening l n _)
    | done r =>
      rw [here] at asks
      cases asks
    | reading w =>
      rw [here] at asks step
      obtain ⟨x, -, -, tabled, sound⟩ := reading_invariant here
      refine .inr ((asks_reading tabled sound asks).imp_right fun fails => ?_)
      rw [step]
      exact fails

theorem infix_of_queues (queues : (run l n (.opening k)).Queues name) :
    ∃ q x, l.find q = .ok (some x) ∧ x.text ∈ l.texts ∧ name.toList <:+: Reference.active x.text.toList := by
  cases here : run l n (.opening k) with
  | opening _ => rw [here] at queues; cases queues
  | done _ => rw [here] at queues; cases queues
  | reading w =>
    rw [here] at queues
    obtain ⟨x, found, frontier, -, -⟩ := reading_invariant here
    obtain ⟨q, y, there, r, listed, named⟩ : ∃ q y, l.find q = .ok (some y) ∧ Refers y.text name := by
      cases frontier.pending name queues with
      | own refers => exact ⟨k, x, found, refers⟩
      | beyond _ _ _ there refers => exact ⟨_, _, there, refers⟩
    exact ⟨q, y, there, (Locator.findIn_mem there).2, Reference.infix_of_mem_scan listed named⟩

end Loading

namespace Engine

/-- Every load comes to an end, which is its result, within the steps that it is allowed. On the way it looks up no name
twice, asks for nothing else but its page and, once more, a key that it fails with; and every name that it queues stands
in a text that the locator finds, once comments and raw blocks are taken out of it. -/
theorem load_ends (l : Locator) (k : Key) :
    Loading.run l (Loading.steps l) (.opening k) = .done (gather l k) ∧
      (∀ m n name, (Loading.run l m (.opening k)).looksUp = some name →
        (Loading.run l n (.opening k)).looksUp = some name → m = n) ∧
      (∀ n q, (Loading.run l n (.opening k)).asks l.extension = some q → (n = 0 ∧ q = k) ∨
        (∃ name, (Loading.run l n (.opening k)).looksUp = some name ∧ l.key name = .ok q) ∨
        Loading.run l (n + 1) (.opening k) = .done (.error (.notFound q (l.suggestions q)))) ∧
      ∀ n name, (Loading.run l n (.opening k)).Queues name →
        ∃ q x, l.find q = .ok (some x) ∧ x.text ∈ l.texts ∧ name.toList <:+: Reference.active x.text.toList := by
  refine ⟨?_, ?_, ?_, ?_⟩
  · obtain ⟨r, ends⟩ := Loading.run_steps_ends l k
    rw [gather_eq_of_run ends, ends]
  · intro m n name looks looks'
    exact Loading.looksUp_once looks looks'
  · intro n q asks
    exact Loading.asks_cases asks
  · intro n name queues
    exact Loading.infix_of_queues queues

theorem ring_load_ends :
    ((Loading.run ring (Loading.steps ring) (.opening ⟨"a"⟩)).result?.isSome = true) ∧
      (∀ n, (Loading.run ring n (.opening ⟨"a"⟩)).looksUp = some "./b" → n = 2) ∧
      (∃ name, (Loading.run ring 2 (.opening ⟨"a"⟩)).looksUp = some name ∧ ring.key name = .ok ⟨"b"⟩) ∧
      ∃ q x, ring.find q = .ok (some x) ∧ x.text ∈ ring.texts ∧ "no".toList <:+: Reference.active x.text.toList := by
  obtain ⟨ends, once, asks, queues⟩ := load_ends ring ⟨"a"⟩
  have third : (Loading.run ring 2 (.opening ⟨"a"⟩)).looksUp = some "./b" ∧
      (Loading.run ring 2 (.opening ⟨"a"⟩)).asks "html" = some ⟨"b"⟩ := by
    decide +kernel
  have goes_on : (Loading.run ring 3 (.opening ⟨"a"⟩)).result? = none := by
    decide +kernel
  refine ⟨by rw [ends]; rfl, fun n looks => once n 2 "./b" looks third.1, ?_, queues 1 "no" ?_⟩
  · rcases asks 2 ⟨"b"⟩ third.2 with ⟨first, -⟩ | looks | failed
    · cases first
    · exact looks
    · rw [failed] at goes_on
      cases goes_on
  · exact .inr ⟨⟨["./b", "no"], false⟩, by decide +kernel, by decide⟩

/-- A page whose only name has a comment inside. -/
def glued : Locator where
  stores := [.memory "texts" [(⟨"page"⟩, "\x7b% include 'a\x7b##\x7db' %\x7d")]]
  extension := "html"

/-- A name that stands in no text as it is may be queued: the parts of a text around a comment are joined. -/
theorem glued_name_in_no_text : (Loading.run glued 1 (.opening ⟨"page"⟩)).Queues "ab" ∧
    ∀ text ∈ glued.texts, ¬ "ab".toList <:+: text.toList := by
  refine ⟨.inr ⟨⟨["ab"], false⟩, ?_, ?_⟩, ?_⟩
  · decide +kernel
  · decide
  · decide +kernel

end Engine
end Pageweave
