import Mathlib.Data.List.Infix
import Pageweave.Proofs.Loading.Closure
import Pageweave.Proofs.Reference.Literal
/-!
# References in breadth-first order

A page discovers references in rounds. First come those of its own text; each round goes on with the texts of all names
that are mentioned so far, each name once, in the order of its first mention. A round continues the one before it, so
together they give one order. A load looks at the references in this order, and what it knows of a name does not depend
on the reference that it was tried for first.
-/
namespace Pageweave

namespace Locator

variable {l : Locator} {k q : Key} {name text : String} {s : Source} {names more : List String}

/-- The text that the locator finds behind a name. -/
def text? (l : Locator) (name : String) : Option String :=
  match l.key name with
  | .error _ => none
  | .ok q =>
    match l.find q with
    | .ok (some s) => some s.text
    | _ => none

theorem text?_eq_some_iff : l.text? name = some text ↔
    ∃ q s, l.key name = .ok q ∧ l.find q = .ok (some s) ∧ s.text = text := by
  unfold text?
  cases key : l.key name with
  | error e => simp
  | ok q =>
    cases found : l.find q with
    | error e => simp [found]
    | ok there => cases there <;> simp [found]

theorem text?_of_find (key : l.key name = .ok q) (found : l.find q = .ok (some s)) : l.text? name = some s.text :=
  text?_eq_some_iff.mpr ⟨q, s, key, found, rfl⟩

theorem text?_of_find_none (key : l.key name = .ok q) (missing : l.find q = .ok none) : l.text? name = none := by
  simp [text?, key, missing]

/-- A name that a page is content with: its own, or one with a text. -/
def settles (l : Locator) (k : Key) (name : String) : Bool := name == k.name || (l.text? name).isSome

/-- A name that leads a page on to another text. -/
def leadsOn (l : Locator) (k : Key) (name : String) : Bool := name != k.name && (l.text? name).isSome

/-- The names that lead on, of those mentioned, in the order of their first mention. -/
def leads (l : Locator) (k : Key) (mentioned : List String) : List String := (mentioned.filter (l.leadsOn k)).eraseDups

theorem mem_leads : name ∈ l.leads k names ↔ name ∈ names ∧ name ≠ k.name ∧ (l.text? name).isSome = true := by
  simp [leads, leadsOn]

theorem leads_append (l : Locator) (k : Key) (names more : List String) : l.leads k (names ++ more) =
    l.leads k names ++ ((more.filter (l.leadsOn k)).removeAll (names.filter (l.leadsOn k))).eraseDups := by
  rw [leads, List.filter_append, List.eraseDups_append]
  rfl

theorem leads_isPrefix (h : names <+: more) : l.leads k names <+: l.leads k more := by
  obtain ⟨rest, rfl⟩ := h
  rw [leads_append]
  exact List.prefix_append _ _

theorem leads_concat_of_mem (known : name = k.name ∨ name ∈ names) : l.leads k (names ++ [name]) = l.leads k names := by
  rw [leads_append, List.append_right_eq_self]
  by_cases leads_on : l.leadsOn k name = true
  · have mentioned : name ∈ names := by
      refine known.resolve_left fun own => ?_
      simp [leadsOn, own] at leads_on
    simp [leads_on, List.removeAll, mentioned]
  · simp [leads_on, List.removeAll]

theorem leads_concat_of_none (missing : l.text? name = none) : l.leads k (names ++ [name]) = l.leads k names := by
  rw [leads_append, List.append_right_eq_self]
  simp [leadsOn, missing, List.removeAll]

theorem leads_concat_of_new (other : name ≠ k.name) (new : name ∉ names) (there : l.text? name = some text) :
    l.leads k (names ++ [name]) = l.leads k names ++ [name] := by
  rw [leads_append, List.append_right_inj]
  have leads_on : l.leadsOn k name = true := by simp [leadsOn, other, there]
  simp [leads_on, List.removeAll, new, List.eraseDups_cons]

/-- The references of a page's text and of the texts behind some names. -/
def referencesOf (l : Locator) (text : String) (names : List String) : List Reference :=
  Reference.scan text ++ names.flatMap fun name => Reference.scan ((l.text? name).getD "")

theorem referencesOf_isPrefix (text : String) (h : names <+: more) :
    l.referencesOf text names <+: l.referencesOf text more := by
  obtain ⟨rest, rfl⟩ := h
  rw [referencesOf, referencesOf, List.flatMap_append, ← List.append_assoc]
  exact List.prefix_append _ _

theorem referencesOf_concat (there : l.text? name = some text) (own : String) (names : List String) :
    l.referencesOf own (names ++ [name]) = l.referencesOf own names ++ Reference.scan text := by
  simp [referencesOf, there]

/-- The references that a page has discovered after some rounds. -/
def discovered (l : Locator) (k : Key) (text : String) : (rounds : Nat) → List Reference
  | 0 => Reference.scan text
  | n + 1 => l.referencesOf text (l.leads k ((discovered l k text n).flatMap Reference.names))

theorem discovered_isPrefix (l : Locator) (k : Key) (text : String) (n : Nat) :
    l.discovered k text n <+: l.discovered k text (n + 1) := by
  induction n with
  | zero => exact List.prefix_append _ _
  | succ n ih => exact referencesOf_isPrefix text (leads_isPrefix (List.IsPrefix.flatMap ih Reference.names))

theorem names_ne_nil_of_mem_referencesOf {r : Reference} (listed : r ∈ l.referencesOf text names) : r.names ≠ [] := by
  rcases List.mem_append.mp listed with own | behind
  · exact Reference.names_ne_nil_of_mem_scan own
  · obtain ⟨name, -, behind⟩ := List.mem_flatMap.mp behind
    exact Reference.names_ne_nil_of_mem_scan behind

end Locator

/-- A reference that needs one of its names to be found, and none is. -/
def Reference.isBroken (l : Locator) (k : Key) (r : Reference) : Bool :=
  !r.ignoreMissing && r.names.all fun name => !l.settles k name

/-- A page makes a reference, in its own text or in one that it reaches. -/
def Makes (l : Locator) (k : Key) (text : String) (r : Reference) : Prop :=
  r ∈ Reference.scan text ∨ ∃ via q s, Reaches l k text via ∧ via ≠ k.name ∧ l.key via = .ok q ∧
    l.find q = .ok (some s) ∧ r ∈ Reference.scan s.text

/-- The first reference, in the order of their discovery, that is broken. -/
def IsFirstBroken (l : Locator) (k : Key) (text : String) (r : Reference) : Prop :=
  ∃ n, (l.discovered k text n).find? (Reference.isBroken l k) = some r

namespace Locator

variable {l : Locator} {k : Key} {name text : String} {r : Reference}

theorem reaches_of_makes (makes : Makes l k text r) (listed : name ∈ r.names) : Reaches l k text name := by
  rcases makes with own | ⟨via, q, s, reached, other, key, found, behind⟩
  · exact .own ⟨r, own, listed⟩
  · exact .beyond reached other key found ⟨r, behind, listed⟩

theorem makes_of_mem_discovered {n : Nat} (listed : r ∈ l.discovered k text n) : Makes l k text r := by
  induction n generalizing r with
  | zero => exact .inl listed
  | succ n ih =>
    rcases List.mem_append.mp listed with own | behind
    · exact .inl own
    · obtain ⟨via, leads, behind⟩ := List.mem_flatMap.mp behind
      obtain ⟨mentioned, other, there⟩ := mem_leads.mp leads
      obtain ⟨r', listed', named⟩ := List.mem_flatMap.mp mentioned
      obtain ⟨t, text_eq⟩ := Option.isSome_iff_exists.mp there
      obtain ⟨q, s, key, found, rfl⟩ := text?_eq_some_iff.mp text_eq
      rw [text_eq] at behind
      exact .inr ⟨via, q, s, reaches_of_makes (ih listed') named, other, key, found, behind⟩

theorem exists_mem_discovered_of_makes (makes : Makes l k text r) : ∃ n, r ∈ l.discovered k text n := by
  have behind {via : String} {q : Key} {s : Source} {n : Nat} {r' r : Reference} (listed : r' ∈ l.discovered k text n)
      (named : via ∈ r'.names) (other : via ≠ k.name) (key : l.key via = .ok q) (found : l.find q = .ok (some s))
      (mentioned : r ∈ Reference.scan s.text) : r ∈ l.discovered k text (n + 1) := by
    have there := text?_of_find key found
    refine List.mem_append_right _ (List.mem_flatMap.mpr ⟨via, ?_, by rwa [there]⟩)
    exact mem_leads.mpr ⟨List.mem_flatMap.mpr ⟨r', listed, named⟩, other, by rw [there]; rfl⟩
  have of_reaches {name : String} (reached : Reaches l k text name) :
      ∃ n, ∃ r ∈ l.discovered k text n, name ∈ r.names := by
    induction reached with
    | own refers =>
      obtain ⟨r, listed, named⟩ := refers
      exact ⟨0, r, listed, named⟩
    | beyond _ other key found refers ih =>
      obtain ⟨n, r', listed, named⟩ := ih
      obtain ⟨r, mentioned, named'⟩ := refers
      exact ⟨n + 1, r, behind listed named other key found mentioned, named'⟩
  rcases makes with own | ⟨via, q, s, reached, other, key, found, mentioned⟩
  · exact ⟨0, own⟩
  · obtain ⟨n, r', listed, named⟩ := of_reaches reached
    exact ⟨n + 1, behind listed named other key found mentioned⟩

end Locator

namespace Worklist

variable {l : Locator} {k q : Key} {w : Worklist} {t : Trying} {name text : String} {rest : List String} {s : Source}
  {past : List Reference} {tried : List String}

/-- A load has dealt with some references, and of the one that it is at with some names, in the order of discovery. -/
structure InOrder (l : Locator) (k : Key) (text : String) (w : Worklist) (past : List Reference) (tried : List String) :
    Prop where
  references : past ++ ((w.trying.map Trying.reference).toList ++ w.queue) =
    l.referencesOf text (w.loaded.included.map Included.name)
  included : w.loaded.included.map Included.name = l.leads k (past.flatMap Reference.names ++ tried)
  ahead : ∃ n, l.referencesOf text (w.loaded.included.map Included.name) <+: l.discovered k text n
  seen : ∀ x, w.seen? x =
    if x = k.name ∨ x ∈ past.flatMap Reference.names ++ tried then some (l.settles k x) else none
  past : ∀ r ∈ past, r.isBroken l k = false
  trying : ∀ t, w.trying = some t → t.reference.names = tried ++ t.rest ∧ t.resolved = tried.any (l.settles k)
  idle : w.trying = none → tried = []

namespace InOrder

theorem start (l : Locator) (k : Key) (text : String) : (start k text).InOrder l k text [] [] where
  references := (List.append_nil _).symm
  included := rfl
  ahead := ⟨0, by simp [Worklist.start, Locator.referencesOf, Locator.discovered]⟩
  seen x := by
    rw [seen?_start]
    by_cases own : k.name = x
    · simp [own, Locator.settles]
    · simp [own, Ne.symm own]
  past _ none_there := absurd none_there List.not_mem_nil
  trying := nofun
  idle _ := rfl

theorem mem_references (h : w.InOrder l k text past tried) (trying : w.trying = some t) :
    t.reference ∈ l.referencesOf text (w.loaded.included.map Included.name) := by
  rw [← h.references, trying]
  simp

private theorem advance {w' : Worklist} {resolved : Bool} {brought : List Reference}
    (h : w.InOrder l k text past tried) (trying : w.trying = some t) (names : t.rest = name :: rest)
    (goes_on : w'.trying = some { t with rest, resolved }) (settled : resolved = (t.resolved || l.settles k name))
    (included : w'.loaded.included.map Included.name = l.leads k (past.flatMap Reference.names ++ tried ++ [name]))
    (queue : w'.queue = w.queue ++ brought)
    (brings : l.referencesOf text (w'.loaded.included.map Included.name) =
      l.referencesOf text (w.loaded.included.map Included.name) ++ brought)
    (seen : ∀ x, w'.seen? x = (w.seen? x).or (if name = x then some (l.settles k name) else none)) :
    w'.InOrder l k text past (tried ++ [name]) := by
  obtain ⟨reference, resolves⟩ := h.trying t trying
  have order := h.references
  rw [trying, Option.map_some, Option.toList_some] at order
  refine ⟨?_, ?_, ?_, ?_, h.past, ?_, ?_⟩
  · rw [brings, ← order, goes_on, queue]
    simp
  · rw [included, List.append_assoc]
  · obtain ⟨n, ahead⟩ := h.ahead
    refine ⟨n + 1, ?_⟩
    rw [included]
    apply Locator.referencesOf_isPrefix
    apply Locator.leads_isPrefix
    rw [← order] at ahead
    refine List.IsPrefix.trans ?_ (List.IsPrefix.flatMap ahead Reference.names)
    exact ⟨rest ++ w.queue.flatMap Reference.names, by simp [reference, names]⟩
  · intro x
    rw [seen, h.seen, ← List.append_assoc]
    by_cases this : name = x
    · by_cases known : x = k.name ∨ x ∈ past.flatMap Reference.names ++ tried
      · rw [if_pos known, if_pos (known.imp_right (List.mem_append_left _)), Option.some_or]
      · rw [if_neg known, Option.none_or, if_pos this, if_pos (.inr (by simp [this])), this]
    · have same : x ∈ past.flatMap Reference.names ++ tried ++ [name] ↔ x ∈ past.flatMap Reference.names ++ tried := by
        simp [Ne.symm this]
      rw [if_neg this, Option.or_none]
      simp only [same]
  · intro t' now
    rw [goes_on] at now
    obtain rfl := Option.some.inj now
    refine ⟨?_, ?_⟩
    · simp [reference, names]
    · simp [settled, resolves]
  · intro now
    rw [goes_on] at now
    cases now

theorem known {there : Bool} (h : w.InOrder l k text past tried) (trying : w.trying = some t)
    (names : t.rest = name :: rest) (seen : w.seen? name = some there) :
    InOrder l k text { w with trying := some { t with rest, resolved := t.resolved || there } } past
      (tried ++ [name]) := by
  have before : (name = k.name ∨ name ∈ past.flatMap Reference.names ++ tried) ∧ there = l.settles k name := by
    have looked := h.seen name
    rw [seen] at looked
    split at looked
    · rename_i before
      exact ⟨before, Option.some.inj looked⟩
    · cases looked
  have same := Locator.leads_concat_of_mem (l := l) before.1
  refine h.advance trying names rfl (by rw [before.2]) ?_ (List.append_nil _).symm
    (List.append_nil _).symm ?_
  · rw [same]
    exact h.included
  · intro x
    change w.seen? x = _
    by_cases this : name = x
    · rw [if_pos this, ← this, seen, before.2, Option.some_or]
    · rw [if_neg this, Option.or_none]

private theorem new (h : w.InOrder l k text past tried) (new : w.seen? name = none) :
    name ≠ k.name ∧ name ∉ past.flatMap Reference.names ++ tried := by
  have looked := h.seen name
  rw [new] at looked
  split at looked
  · cases looked
  · rename_i unknown
    exact not_or.mp unknown

theorem found (h : w.InOrder l k text past tried) (trying : w.trying = some t) (names : t.rest = name :: rest)
    (new : w.seen? name = none) (key : l.key name = .ok q) (there : l.find q = .ok (some s)) :
    InOrder l k text { w.found name s with trying := some { t with rest, resolved := true } } past
      (tried ++ [name]) := by
  obtain ⟨other, unknown⟩ := h.new new
  have behind := Locator.text?_of_find key there
  have settles : l.settles k name = true := by simp [Locator.settles, behind]
  have included : (w.found name s).loaded.included.map Included.name =
      w.loaded.included.map Included.name ++ [name] := by
    simp [Worklist.found]
  refine h.advance trying names rfl (by rw [settles, Bool.or_true]) ?_ rfl ?_ ?_
  · rw [Locator.leads_concat_of_new other unknown behind, ← h.included]
    exact included
  · rw [← Locator.referencesOf_concat behind, ← included]
  · intro x
    rw [settles]
    exact seen?_found w name s x

theorem absent (h : w.InOrder l k text past tried) (trying : w.trying = some t) (names : t.rest = name :: rest)
    (new : w.seen? name = none) (key : l.key name = .ok q) (missing : l.find q = .ok none) :
    InOrder l k text { w.absent name q with trying := some { t with rest } } past (tried ++ [name]) := by
  obtain ⟨other, unknown⟩ := h.new new
  have nothing := Locator.text?_of_find_none key missing
  have settles : l.settles k name = false := by simp [Locator.settles, nothing, other]
  refine h.advance trying names rfl (by rw [settles, Bool.or_false]) ?_ (List.append_nil _).symm
    (List.append_nil _).symm ?_
  · rw [Locator.leads_concat_of_none nothing]
    exact h.included
  · intro x
    rw [settles]
    exact seen?_absent w name q x

/-- A reference is broken just if nothing was found behind all of its names. -/
theorem isBroken_eq (h : w.InOrder l k text past tried) (trying : w.trying = some t) (names : t.rest = []) :
    t.reference.isBroken l k = !(t.resolved || t.reference.ignoreMissing) := by
  obtain ⟨reference, resolves⟩ := h.trying t trying
  rw [Reference.isBroken, reference, resolves, names, List.append_nil, List.all_eq_not_any_not, Bool.and_comm,
    Bool.not_or]
  simp

theorem concluded (h : w.InOrder l k text past tried) (trying : w.trying = some t) (names : t.rest = [])
    (fine : t.reference.isBroken l k = false) :
    InOrder l k text { w with trying := none } (past ++ [t.reference]) [] where
  references := by
    rw [← h.references, trying]
    simp
  included := by
    obtain ⟨reference, -⟩ := h.trying t trying
    rw [h.included]
    simp [reference, names]
  ahead := h.ahead
  seen x := by
    obtain ⟨reference, -⟩ := h.trying t trying
    change w.seen? x = _
    rw [h.seen]
    simp [reference, names]
  past := List.forall_mem_append.mpr ⟨h.past, fun r last => by rw [List.mem_singleton.mp last, fine]⟩
  trying := nofun
  idle _ := rfl

theorem next {r : Reference} {later : List Reference} (h : w.InOrder l k text past tried) (idle : w.trying = none)
    (queue : w.queue = r :: later) :
    InOrder l k text { w with queue := later, trying := some ⟨r, r.names, false⟩ } past [] := by
  obtain rfl := h.idle idle
  refine ⟨?_, h.included, h.ahead, h.seen, h.past, ?_, nofun⟩
  · rw [← h.references, idle, queue]
    rfl
  · rintro t now
    obtain rfl := Option.some.inj now
    exact ⟨rfl, rfl⟩

/-- When nothing waits any more, all references were looked at. -/
theorem discovered_isPrefix (h : w.InOrder l k text past tried) (idle : w.trying = none) (queue : w.queue = [])
    (n : Nat) : l.discovered k text n <+: past := by
  obtain rfl := h.idle idle
  have whole : past = l.referencesOf text (l.leads k (past.flatMap Reference.names)) := by
    have order := h.references
    rw [h.included, idle, queue] at order
    simpa using order
  induction n with
  | zero =>
    rw [whole]
    exact List.prefix_append _ _
  | succ n ih =>
    rw [whole]
    exact Locator.referencesOf_isPrefix text (Locator.leads_isPrefix (List.IsPrefix.flatMap ih Reference.names))

end InOrder
end Worklist
end Pageweave
