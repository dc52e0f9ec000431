import Pageweave.Proofs.Loading.Breadth
import Pageweave.Proofs.Loading.Ending
/-!
# When a load reports a missing template

Nothing but the page itself, or a broken reference, makes a load report a missing template; and of all broken references
it reports the one that is discovered first. What else was looked up before, and why, plays no part.
-/
namespace Pageweave

/-- No lookup of a page fails: not that of the page itself, nor those of the other names that it reaches, each of which
has a key. -/
structure Locator.IsReadable (l : Locator) (k : Key) : Prop where
  page : ∃ found, l.find k = .ok found
  reached : ∀ x name, l.find k = .ok (some x) → Reaches l k x.text name → name ≠ k.name →
    ∃ q found, l.key name = .ok q ∧ l.find q = .ok found

/-- The error of the first broken reference of a page: nothing was found under the key of its first name. -/
def Reported (l : Locator) (k : Key) (text : String) (e : PageError) : Prop :=
  ∃ r first more q, IsFirstBroken l k text r ∧ r.names = first :: more ∧ l.key first = .ok q ∧
    e = .notFound q (l.suggestions q)

namespace Loading

variable {l : Locator} {k : Key} {s s' : Loading} {asked : Option Key}

/-- A load goes through the references in the order of their discovery, and has met no broken one so far. -/
def OnOrder (l : Locator) (k : Key) : Loading → Prop
  | .opening q => q = k
  | .reading w => ∃ x past tried, l.find k = .ok (some x) ∧ w.InOrder l k x.text past tried
  | .done (.ok _) => ∃ x, l.find k = .ok (some x) ∧ ∀ r, Makes l k x.text r → r.isBroken l k = false
  | .done (.error _) => False

theorem Progress.onOrder (h : Progress l s asked s') (before : s.OnOrder l k) : s'.OnOrder l k := by
  cases h with
  | «open» found =>
    obtain rfl : _ = k := before
    exact ⟨_, [], [], found, .start l _ _⟩
  | known trying names seen =>
    obtain ⟨x, past, tried, found, ordered⟩ := before
    exact ⟨x, past, _, found, ordered.known trying names seen⟩
  | found trying names new key there =>
    obtain ⟨x, past, tried, found, ordered⟩ := before
    exact ⟨x, past, _, found, ordered.found trying names new key there⟩
  | absent trying names new key missing =>
    obtain ⟨x, past, tried, found, ordered⟩ := before
    exact ⟨x, past, _, found, ordered.absent trying names new key missing⟩
  | @content w t trying names fine =>
    obtain ⟨x, past, tried, found, ordered⟩ := before
    have some_name := Locator.names_ne_nil_of_mem_referencesOf (ordered.mem_references trying)
    refine ⟨x, _, _, found, ordered.concluded trying names ?_⟩
    rw [ordered.isBroken_eq trying names, fine.resolve_right some_name, Bool.not_true]
  | @late w t first more q y trying names unresolved reference key there =>
    obtain ⟨x, past, tried, found, ordered⟩ := before
    -- there was no text behind the name when it was tried
    have broken := ordered.isBroken_eq trying names
    rw [unresolved, Reference.isBroken, reference, List.all_cons] at broken
    simp [Locator.settles, Locator.text?_of_find key there] at broken
  | next idle queue =>
    obtain ⟨x, past, tried, found, ordered⟩ := before
    exact ⟨x, past, [], found, ordered.next idle queue⟩
  | finish idle queue =>
    obtain ⟨x, past, tried, found, ordered⟩ := before
    refine ⟨x, found, fun r makes => ?_⟩
    obtain ⟨n, listed⟩ := Locator.exists_mem_discovered_of_makes makes
    exact ordered.past r ((ordered.discovered_isPrefix idle queue n).subset listed)
  | done _ => exact before

end Loading

namespace Locator

variable {l : Locator} {k : Key} {text name : String} {names : List String}

/-- Every page is readable if no store fails to be read and all texts refer to names that have keys. -/
theorem isReadable_of_stores (reads : ∀ s ∈ l.stores, ∀ q, ∃ text?, s.read q = .ok text?)
    (named : ∀ text ∈ l.texts, ∀ name, Refers text name → ∃ q, l.key name = .ok q) (k : Key) : l.IsReadable k where
  page := exists_findIn fun s listed => reads s listed k
  reached x name found reaches _ := by
    obtain ⟨q, key⟩ : ∃ q, l.key name = .ok q := by
      cases reaches with
      | own refers => exact named x.text (findIn_mem found).2 name refers
      | beyond _ _ _ behind refers => exact named _ (findIn_mem behind).2 name refers
    obtain ⟨there, finds⟩ := exists_findIn fun s listed => reads s listed q
    exact ⟨q, there, key, finds⟩

theorem mem_of_reaches (closed : ∀ r ∈ l.referencesOf text names, ∀ name ∈ r.names, name ∈ names)
    (reaches : Reaches l k text name) : name ∈ names := by
  induction reaches with
  | own refers =>
    obtain ⟨r, listed, named⟩ := refers
    exact closed r (List.mem_append_left _ listed) _ named
  | beyond _ _ key found refers ih =>
    obtain ⟨r, listed, named⟩ := refers
    have behind : r ∈ names.flatMap fun via => Reference.scan ((l.text? via).getD "") :=
      List.mem_flatMap.mpr ⟨_, ih, by rwa [text?_of_find key found]⟩
    exact closed r (List.mem_append_right _ behind) _ named

end Locator

namespace Loading

variable {l : Locator} {k : Key} {s : Loading} {e : PageError} {w : Worklist} {t : Trying} {x : Source}
  {past : List Reference} {tried : List String} {name : String} {rest : List String}

private theorem reaches_trying (ordered : w.InOrder l k x.text past tried) (trying : w.trying = some t)
    (listed : name ∈ t.reference.names) : Reaches l k x.text name := by
  obtain ⟨n, ahead⟩ := ordered.ahead
  have discovered := ahead.subset (ordered.mem_references trying)
  exact Locator.reaches_of_makes (Locator.makes_of_mem_discovered discovered) listed

private theorem tryName_ne_error (readable : l.IsReadable k) (found : l.find k = .ok (some x))
    (ordered : w.InOrder l k x.text past tried) (trying : w.trying = some t) (names : t.rest = name :: rest) :
    w.tryName l t name rest ≠ .done (.error e) := by
  unfold Worklist.tryName
  cases seen : w.seen? name with
  | some there => exact nofun
  | none =>
    have listed : name ∈ t.reference.names := by
      rw [(ordered.trying t trying).1, names]
      simp
    have other : name ≠ k.name := by
      rintro rfl
      rw [ordered.seen, if_pos (.inl rfl)] at seen
      cases seen
    obtain ⟨q, there, key, finds⟩ := readable.reached x name found (reaches_trying ordered trying listed) other
    simp only [key, finds]
    cases there with
    | some s => exact nofun
    | none => exact nofun

private theorem conclude_error (readable : l.IsReadable k) (found : l.find k = .ok (some x))
    (ordered : w.InOrder l k x.text past tried) (trying : w.trying = some t) (names : t.rest = [])
    (fails : w.conclude l t = .done (.error e)) : Reported l k x.text e := by
  have broken := ordered.isBroken_eq trying names
  unfold Worklist.conclude at fails
  split at fails
  · cases fails
  · rename_i unresolved
    rw [Bool.not_eq_true] at unresolved
    rw [unresolved, Bool.not_false] at broken
    split at fails
    · cases fails
    · rename_i first more reference
      have unsettled : l.settles k first = false := by
        rw [Reference.isBroken, reference, List.all_cons] at broken
        simp_all
      have other : first ≠ k.name := by
        rintro rfl
        simp [Locator.settles] at unsettled
      have reaches := reaches_trying ordered trying (reference ▸ List.mem_cons_self)
      obtain ⟨q, there, key, finds⟩ := readable.reached x first found reaches other
      have missing : l.find q = .ok none := by
        cases there with
        | none => exact finds
        | some s => simp [Locator.settles, Locator.text?_of_find key finds] at unsettled
      refine ⟨t.reference, first, more, q, ?_, reference, key, ?_⟩
      · obtain ⟨n, ahead⟩ := ordered.ahead
        refine ⟨n, ahead.find?_eq_some ?_⟩
        rw [← ordered.references, trying, List.find?_append,
          List.find?_eq_none.mpr fun r listed => by simp [ordered.past r listed], Option.none_or]
        simp [broken]
      · simpa [key, Locator.resolve, missing, bind, Except.bind] using fails.symm

/-- A step that fails reports that the page is missing, or its first broken reference. -/
theorem step_error (readable : l.IsReadable k) (before : s.OnOrder l k) (goes_on : ∀ r, s ≠ .done r)
    (fails : s.step l = .done (.error e)) : (l.find k = .ok none ∧ e = .notFound k (l.suggestions k)) ∨
      ∃ x, l.find k = .ok (some x) ∧ Reported l k x.text e := by
  cases s with
  | opening q =>
    obtain rfl : q = k := before
    left
    obtain ⟨there, finds⟩ := readable.page
    cases there with
    | some s => simp [step, Locator.resolve, finds] at fails
    | none => exact ⟨finds, by simpa [step, Locator.resolve, finds] using fails.symm⟩
  | done r => exact absurd rfl (goes_on r)
  | reading w =>
    obtain ⟨x, past, tried, found, ordered⟩ := before
    change w.step l = .done (.error e) at fails
    unfold Worklist.step at fails
    split at fails
    · rename_i t trying
      split at fails
      · rename_i name rest names
        exact absurd fails (tryName_ne_error readable found ordered trying names)
      · rename_i names
        exact .inr ⟨x, found, conclude_error readable found ordered trying names fails⟩
    · split at fails
      · cases fails
      · cases fails

end Loading

theorem IsFirstBroken.unique {l : Locator} {k : Key} {text : String} {r r' : Reference} (h : IsFirstBroken l k text r)
    (h' : IsFirstBroken l k text r') : r = r' := by
  have later {n : Nat} {r : Reference} (first : (l.discovered k text n).find? (Reference.isBroken l k) = some r)
      (d : Nat) : (l.discovered k text (n + d)).find? (Reference.isBroken l k) = some r := by
    induction d with
    | zero => exact first
    | succ d ih => exact (Locator.discovered_isPrefix l k text (n + d)).find?_eq_some ih
  obtain ⟨n, first⟩ := h
  obtain ⟨n', first'⟩ := h'
  have both := later first n'
  rw [Nat.add_comm, later first' n] at both
  exact (Option.some.inj both).symm

namespace Engine

variable {e : Engine} {l : Locator} {k : Key} {p : Loaded} {fault : PageError}

theorem gather_error_cases (readable : l.IsReadable k) (failed : gather l k = .error fault) :
    (l.find k = .ok none ∧ fault = .notFound k (l.suggestions k)) ∨
      ∃ x, l.find k = .ok (some x) ∧ Reported l k x.text fault := by
  obtain ⟨fuel, ends⟩ := run_of_gather failed
  obtain ⟨s, ordered, goes_on, fails⟩ := Loading.run_error_cases (P := Loading.OnOrder l k) (s := .opening k)
    (fun _ _ _ progress => progress.onOrder) rfl nofun ends
  exact Loading.step_error readable ordered goes_on fails

theorem not_isBroken_of_gather (gathered : gather l k = .ok p) :
    ∃ x, l.find k = .ok (some x) ∧ ∀ r, Makes l k x.text r → r.isBroken l k = false := by
  obtain ⟨fuel, ends⟩ := run_of_gather gathered
  exact Loading.run_ok_induction (s := .opening k) (fun _ _ _ progress => progress.onOrder) rfl ends

/-- Texts that cannot be read together are reported under the key of the page, with the line that the message names. -/
theorem cause_of_assemble {fault : PageError} (failed : e.assemble p = .error fault) :
    ∃ cause, Template.Library.build p.texts = .error cause ∧
      fault = .parse p.key cause.message (Compiled.lineIn? cause.message.toList) := by
  unfold assemble compile at failed
  cases built : Template.Library.build ((p.key.name, p.text) :: p.included.map fun i => (i.name, i.text)) with
  | error cause =>
    rw [built] at failed
    exact ⟨cause, built, (Except.error.inj failed).symm⟩
  | ok library =>
    rw [built] at failed
    cases failed

theorem assemble_error {fault : PageError} (failed : e.assemble p = .error fault) : fault.isParse = true := by
  obtain ⟨cause, -, rfl⟩ := cause_of_assemble failed
  rfl

theorem load_error_cases (failed : e.load l k = .error fault) :
    gather l k = .error fault ∨ fault.isParse = true ∧ ∃ p, gather l k = .ok p := by
  unfold load at failed
  cases gathered : gather l k with
  | error e =>
    rw [gathered] at failed
    cases failed
    exact .inl rfl
  | ok p =>
    rw [gathered] at failed
    exact .inr ⟨assemble_error failed, p, rfl⟩

theorem load_of_gather_error (failed : gather l k = .error fault) : e.load l k = .error fault := by
  rw [load, failed]
  rfl

private theorem load_of_missing (missing : l.find k = .ok none) :
    e.load l k = .error (.notFound k (l.suggestions k)) := by
  have ends : Loading.run l 1 (.opening k) = .done (.error (.notFound k (l.suggestions k))) := by
    simp [Loading.run, Loading.step, Locator.resolve, missing]
  exact load_of_gather_error (gather_eq_of_run ends)

private theorem load_of_isBroken {x : Source} {r : Reference} (readable : l.IsReadable k)
    (found : l.find k = .ok (some x)) (makes : Makes l k x.text r) (broken : r.isBroken l k = true) :
    ∃ fault, Reported l k x.text fault ∧ e.load l k = .error fault := by
  cases gathered : gather l k with
  | ok p =>
    obtain ⟨y, found', fine⟩ := not_isBroken_of_gather gathered
    rw [found] at found'
    cases found'
    rw [fine r makes] at broken
    cases broken
  | error fault =>
    refine ⟨fault, ?_, load_of_gather_error gathered⟩
    rcases gather_error_cases readable gathered with ⟨missing, -⟩ | ⟨y, found', reported⟩
    · rw [found] at missing
      cases missing
    · rw [found] at found'
      cases found'
      exact reported

private theorem Reported.exists_broken {text : String} (reported : Reported l k text fault) :
    ∃ r, Makes l k text r ∧ r.isBroken l k = true := by
  obtain ⟨r, -, -, -, ⟨n, first⟩, -⟩ := reported
  exact ⟨r, Locator.makes_of_mem_discovered (List.mem_of_find?_eq_some first), List.find?_some first⟩

/-- A load reports a missing template just if its page is missing or makes a broken reference. In the first case the report
is about the page, in the second about the first name of the first broken reference. A text that cannot be read as a
template is reported only if no reference is broken. -/
theorem load_reports_missing (e : Engine) (k : Key) (readable : l.IsReadable k) :
    ((∃ q near, e.load l k = .error (.notFound q near)) ↔
        l.find k = .ok none ∨ ∃ x r, l.find k = .ok (some x) ∧ Makes l k x.text r ∧ r.isBroken l k = true) ∧
      (l.find k = .ok none → e.load l k = .error (.notFound k (l.suggestions k))) ∧
      (∀ x, l.find k = .ok (some x) → (∃ r, Makes l k x.text r ∧ r.isBroken l k = true) →
        ∃ r first more q, IsFirstBroken l k x.text r ∧ r.names = first :: more ∧ l.key first = .ok q ∧
          e.load l k = .error (.notFound q (l.suggestions q))) ∧
      ∀ q message line, e.load l k = .error (.parse q message line) →
        ∃ x, l.find k = .ok (some x) ∧ ∀ r, Makes l k x.text r → r.isBroken l k = false := by
  have of_broken (x : Source) (found : l.find k = .ok (some x))
      (broken : ∃ r, Makes l k x.text r ∧ r.isBroken l k = true) :
      ∃ r first more q, IsFirstBroken l k x.text r ∧ r.names = first :: more ∧ l.key first = .ok q ∧
        e.load l k = .error (.notFound q (l.suggestions q)) := by
    obtain ⟨r, makes, broken⟩ := broken
    obtain ⟨fault, ⟨r, first, more, q, is_first, names, key, rfl⟩, failed⟩ :=
      load_of_isBroken (e := e) readable found makes broken
    exact ⟨r, first, more, q, is_first, names, key, failed⟩
  refine ⟨⟨?_, ?_⟩, load_of_missing, of_broken, ?_⟩
  · rintro ⟨q, near, failed⟩
    rcases load_error_cases failed with gathered | ⟨is_parse, -⟩
    · rcases gather_error_cases readable gathered with ⟨missing, -⟩ | ⟨x, found, reported⟩
      · exact .inl missing
      · obtain ⟨r, makes, broken⟩ := Reported.exists_broken reported
        exact .inr ⟨x, r, found, makes, broken⟩
    · cases is_parse
  · rintro (missing | ⟨x, r, found, makes, broken⟩)
    · exact ⟨k, _, load_of_missing missing⟩
    · obtain ⟨-, -, -, q, -, -, -, failed⟩ := of_broken x found ⟨r, makes, broken⟩
      exact ⟨q, _, failed⟩
  · intro q message line failed
    rcases load_error_cases failed with gathered | ⟨-, p, gathered⟩
    · rcases gather_error_cases readable gathered with ⟨-, same⟩ | ⟨x, -, r, first, more, q', -, -, -, same⟩
      · cases same
      · cases same
    · exact not_isBroken_of_gather gathered

/-- Two pages that include each other; the second needs a name that the first may go without. -/
def gap : Locator where
  stores := [.memory "texts" [(⟨"a"⟩, "\x7b% include 'c' ignore missing %\x7d\x7b% include './b' %\x7d"),
    (⟨"b"⟩, "\x7b% include 'a' %\x7d\x7b% include ['c', 'd'] %\x7d")]]
  extension := "html"

theorem isReadable_gap (k : Key) : gap.IsReadable k := by
  refine Locator.isReadable_of_stores (fun s listed q => ?_) (fun text there name refers => ?_) k
  · obtain rfl := List.mem_singleton.mp listed
    exact ⟨_, rfl⟩
  · have all_keyed : ∀ text ∈ gap.texts, ∀ r ∈ Reference.scan text, ∀ name ∈ r.names,
        (gap.key name).toOption.isSome = true := by
      decide +kernel
    obtain ⟨r, listed, named⟩ := refers
    have keyed := all_keyed text there r listed name named
    cases key : gap.key name with
    | ok q' => exact ⟨q', rfl⟩
    | error e =>
      rw [key] at keyed
      cases keyed

/-- A page that includes a part, and twice what nobody has; only once may it go without. -/
def lackingText : String :=
  "\x7b% include 'part' %\x7d\x7b% include 'gone' ignore missing %\x7d\x7b% include ['./gone', 'lost'] %\x7d"

/-- A project with this page and the part, in front of the bundled templates. -/
def lacking : Locator := (Stack.standard "Templates" "html").locator
  { nodes := [(["Templates"], .directory), (["Templates", "page.html"], .file lackingText.toUTF8),
      (["Templates", "part.html"], .file "".toUTF8)] }

theorem find_lacking_page : lacking.find ⟨"page"⟩ = .ok (some ⟨⟨"page"⟩, lackingText, Names.projectStore⟩) := by
  decide +kernel

theorem isReadable_lacking_page : lacking.IsReadable ⟨"page"⟩ where
  page := ⟨_, find_lacking_page⟩
  reached x name found reaches _ := by
    rw [find_lacking_page] at found
    obtain rfl := Option.some.inj (Except.ok.inj found)
    have closed : ∀ r ∈ lacking.referencesOf lackingText ["part", "gone", "./gone", "lost"],
        ∀ name ∈ r.names, name ∈ ["part", "gone", "./gone", "lost"] := by
      decide +kernel
    have looked_up : ∀ name ∈ ["part", "gone", "./gone", "lost"],
        ((lacking.key name).toOption.bind fun q => (lacking.find q).toOption).isSome = true := by
      decide +kernel
    have answered := looked_up name (Locator.mem_of_reaches closed reaches)
    cases key : lacking.key name with
    | error e => simp [key, Except.toOption] at answered
    | ok q =>
      cases finds : lacking.find q with
      | error e => simp [key, finds, Except.toOption] at answered
      | ok there => exact ⟨q, there, rfl, finds⟩

private theorem load_of_first_broken {text name : String} {rest : List String} {ignoreMissing : Bool} {n : Nat}
    {q : Key}
    (reported : ∃ r first more q, IsFirstBroken l k text r ∧ r.names = first :: more ∧ l.key first = .ok q ∧
      e.load l k = .error (.notFound q (l.suggestions q)))
    (broken : (l.discovered k text n).find? (Reference.isBroken l k) = some ⟨name :: rest, ignoreMissing⟩)
    (key : l.key name = .ok q) : e.load l k = .error (.notFound q (l.suggestions q)) := by
  obtain ⟨r, first, more, q', is_first, names, key', failed⟩ := reported
  obtain rfl := IsFirstBroken.unique ⟨n, broken⟩ is_first
  obtain ⟨rfl, -⟩ := List.cons.inj names
  rw [key] at key'
  obtain rfl := Except.ok.inj key'
  exact failed

theorem gap_load_reports_missing :
    load {} gap ⟨"a"⟩ = .error (.notFound ⟨"c"⟩ (gap.suggestions ⟨"c"⟩)) ∧
      load {} gap ⟨"z"⟩ = .error (.notFound ⟨"z"⟩ (gap.suggestions ⟨"z"⟩)) ∧
      load {} lacking ⟨"page"⟩ = .error (.notFound ⟨"gone"⟩ (lacking.suggestions ⟨"gone"⟩)) := by
  obtain ⟨-, -, of_gap, -⟩ := load_reports_missing {} ⟨"a"⟩ (isReadable_gap _)
  obtain ⟨-, of_missing, -, -⟩ := load_reports_missing {} ⟨"z"⟩ (isReadable_gap _)
  obtain ⟨-, -, of_lacking, -⟩ := load_reports_missing {} ⟨"page"⟩ isReadable_lacking_page
  refine ⟨?_, of_missing (by decide +kernel), ?_⟩
  · let text := "\x7b% include 'c' ignore missing %\x7d\x7b% include './b' %\x7d"
    have page : gap.find ⟨"a"⟩ = .ok (some ⟨⟨"a"⟩, text, "texts"⟩) := by
      decide +kernel
    have second_round : (gap.discovered ⟨"a"⟩ text 1).find? (Reference.isBroken gap ⟨"a"⟩) =
        some ⟨["c", "d"], false⟩ := by
      decide +kernel
    have makes := Locator.makes_of_mem_discovered (List.mem_of_find?_eq_some second_round)
    exact load_of_first_broken (of_gap _ page ⟨_, makes, List.find?_some second_round⟩) second_round (by decide +kernel)
  · have first_round : (lacking.discovered ⟨"page"⟩ lackingText 0).find? (Reference.isBroken lacking ⟨"page"⟩) =
        some ⟨["./gone", "lost"], false⟩ := by
      decide +kernel
    have makes := Locator.makes_of_mem_discovered (List.mem_of_find?_eq_some first_round)
    exact load_of_first_broken (of_lacking _ find_lacking_page ⟨_, makes, List.find?_some first_round⟩) first_round
      (by decide +kernel)

end Engine
end Pageweave
