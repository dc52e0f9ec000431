import Pageweave.Proofs.Text.Pieces
import Pageweave.Template.Peg
/-!
# Derivations

What a pattern reads, told without fuel, places and the furthest place: a derivation shows which nodes it leaves and
which text is left, or that it does not fit. A pattern whose stars all read something reads on only in a shorter text.
-/
namespace Pageweave.Peg

variable {R : Type}

/-- The text that the next part of a sequence sees. -/
def Setting.skips (c : Setting) (cs : List Char) : List Char :=
  if c.mode = .loose then cs.dropWhile isSpace else cs

/-- No blanks are skipped, and nodes are left. -/
def Setting.tight : Setting := ⟨.tight, .outside⟩

/-- Blanks are skipped, and nodes are left. -/
def Setting.loose : Setting := ⟨.loose, .outside⟩

def one? (ok : Char → Bool) : List Char → Option (List Char)
  | c :: cs => if ok c then some cs else none
  | [] => none

def Kind.inside (k : Kind) (c : Setting) : Setting := { c with mode := k.mode c.mode }

inductive Derives (g : Grammar R) : Setting → Pattern R → List Char → Option (List (Tree R) × List Char) → Prop
  | chars {c text cs r} : (Text.after? text cs).map ([], ·) = r → Derives g c (.chars text) cs r
  | range {c first last cs r} :
      (one? (fun x => first ≤ x && x ≤ last) cs).map ([], ·) = r → Derives g c (.range first last) cs r
  | any {c cs r} : (one? (fun _ => true) cs).map ([], ·) = r → Derives g c .any cs r
  | finish_fits {c} : Derives g c .finish [] (some ([], []))
  | finish_fails {c cs} : cs ≠ [] → Derives g c .finish cs none
  | seq_fits {c front back cs ts ms us ds} : Derives g c front cs (some (ts, ms)) →
      Derives g c back (c.skips ms) (some (us, ds)) → Derives g c (.seq front back) cs (some (ts ++ us, ds))
  | seq_front {c front back cs} : Derives g c front cs none → Derives g c (.seq front back) cs none
  | seq_back {c front back cs ts ms} : Derives g c front cs (some (ts, ms)) →
      Derives g c back (c.skips ms) none → Derives g c (.seq front back) cs none
  | alt_one {c one other cs x} : Derives g c one cs (some x) → Derives g c (.alt one other) cs (some x)
  | alt_other {c one other cs r} : Derives g c one cs none → Derives g c other cs r → Derives g c (.alt one other) cs r
  | opt_some {c p cs x} : Derives g c p cs (some x) → Derives g c (.opt p) cs (some x)
  | opt_none {c p cs} : Derives g c p cs none → Derives g c (.opt p) cs (some ([], cs))
  | star_none {c p cs} : Derives g c p cs none → Derives g c (.star p) cs (some ([], cs))
  /-- Blanks behind the last part are not skipped. -/
  | star_last {c p cs ts ms} : Derives g c p cs (some (ts, ms)) → Derives g c p (c.skips ms) none →
      Derives g c (.star p) cs (some (ts, ms))
  | star_next {c p cs ts ms us ds x} : Derives g c p cs (some (ts, ms)) → Derives g c p (c.skips ms) (some x) →
      Derives g c (.star p) (c.skips ms) (some (us, ds)) → Derives g c (.star p) cs (some (ts ++ us, ds))
  | unless_fits {c : Setting} {p cs x} : Derives g { c with look := c.look.negated } p cs (some x) →
      Derives g c (.unless p) cs none
  | unless_fails {c : Setting} {p cs} : Derives g { c with look := c.look.negated } p cs none →
      Derives g c (.unless p) cs (some ([], cs))
  | rule_fails {c r cs} : Derives g ((g.kind r).inside c) (g.body r) cs none → Derives g c (.rule r) cs none
  | rule_node {c r cs inner ds} : g.kind r ≠ .silent → c.leaves = true →
      Derives g ((g.kind r).inside c) (g.body r) cs (some (inner, ds)) →
      Derives g c (.rule r) cs (some ([.node r cs (cs.length - ds.length) inner], ds))
  | rule_bare {c r cs x} : g.kind r = .silent ∨ c.leaves = false →
      Derives g ((g.kind r).inside c) (g.body r) cs (some x) → Derives g c (.rule r) cs (some x)

namespace Pattern

/-- May a pattern fit without reading anything? `empty` answers for the rules. -/
def mayBeEmpty (empty : R → Bool) : Pattern R → Bool
  | .chars text => text.isEmpty
  | .range _ _ => false
  | .any => false
  | .rule r => empty r
  | .seq front back => front.mayBeEmpty empty && back.mayBeEmpty empty
  | .alt one other => one.mayBeEmpty empty || other.mayBeEmpty empty
  | .finish => true
  | .opt _ => true
  | .star _ => true
  | .unless _ => true

end Pattern

variable {g : Grammar R} {c : Setting} {p : Pattern R} {cs ds : List Char} {ts : List (Tree R)}

theorem Setting.skips_suffix (c : Setting) (cs : List Char) : c.skips cs <:+ cs := by
  unfold skips
  split
  · exact List.dropWhile_suffix isSpace
  · exact List.suffix_refl cs

theorem one?_eq_some {ok : Char → Bool} (h : one? ok cs = some ds) : ∃ x, ok x = true ∧ cs = x :: ds := by
  cases cs with
  | nil => cases h
  | cons x cs =>
    rw [one?, Option.ite_none_right_eq_some, Option.some.injEq] at h
    exact ⟨x, h.1, by rw [h.2]⟩

namespace Derives

private theorem reads_of_eq (empty : R → Bool) (covers : ∀ r, (g.body r).mayBeEmpty empty = true → empty r = true)
    {r : Option (List (Tree R) × List Char)} (h : Derives g c p cs r) : ∀ {ts ds}, r = some (ts, ds) →
      ds <:+ cs ∧ (p.mayBeEmpty empty = false → ds.length < cs.length) := by
  have one {ok : Char → Bool} {cs ds : List Char} (found : one? ok cs = some ds) :
      ds <:+ cs ∧ ds.length < cs.length := by
    obtain ⟨x, -, rfl⟩ := one?_eq_some found
    exact ⟨List.suffix_cons x ds, by simp⟩
  induction h with
  | chars h =>
    rintro ts ds rfl
    obtain ⟨_, found, ⟨⟩⟩ := Option.map_eq_some_iff.mp h
    rw [Text.after?_eq_some found]
    refine ⟨List.suffix_append _ _, fun some_text => ?_⟩
    have := List.length_pos_iff.mpr (List.isEmpty_eq_false_iff.mp some_text)
    rw [List.length_append]
    omega
  | range h =>
    rintro ts ds rfl
    obtain ⟨_, found, ⟨⟩⟩ := Option.map_eq_some_iff.mp h
    exact ⟨(one found).1, fun _ => (one found).2⟩
  | any h =>
    rintro ts ds rfl
    obtain ⟨_, found, ⟨⟩⟩ := Option.map_eq_some_iff.mp h
    exact ⟨(one found).1, fun _ => (one found).2⟩
  | finish_fits =>
    rintro _ _ ⟨⟩
    exact ⟨List.suffix_refl _, nofun⟩
  | @seq_fits c front back cs ts ms us ds first second ih ih' =>
    rintro _ _ ⟨⟩
    obtain ⟨suffix, less⟩ := ih rfl
    obtain ⟨suffix', less'⟩ := ih' rfl
    have skips := c.skips_suffix ms
    refine ⟨(suffix'.trans skips).trans suffix, fun reads => ?_⟩
    have le := suffix.length_le
    have le' := suffix'.length_le
    have le_skips := skips.length_le
    rcases Bool.and_eq_false_iff.mp reads with reads | reads
    · have := less reads
      omega
    · have := less' reads
      omega
  | alt_one first ih =>
    rintro _ _ ⟨⟩
    exact ⟨(ih rfl).1, fun reads => (ih rfl).2 (Bool.or_eq_false_iff.mp reads).1⟩
  | alt_other _ second _ ih =>
    rintro _ _ rfl
    exact ⟨(ih rfl).1, fun reads => (ih rfl).2 (Bool.or_eq_false_iff.mp reads).2⟩
  | opt_some _ ih =>
    rintro _ _ ⟨⟩
    exact ⟨(ih rfl).1, nofun⟩
  | star_last _ _ ih _ =>
    rintro _ _ ⟨⟩
    exact ⟨(ih rfl).1, nofun⟩
  | @star_next c p cs ts ms us ds x first next rest ih _ ih' =>
    rintro _ _ ⟨⟩
    exact ⟨((ih' rfl).1.trans (c.skips_suffix ms)).trans (ih rfl).1, nofun⟩
  | opt_none | star_none | unless_fails =>
    rintro _ _ ⟨⟩
    exact ⟨List.suffix_refl _, nofun⟩
  | @rule_node c r cs inner ds _ _ _ ih =>
    rintro _ _ ⟨⟩
    refine ⟨(ih rfl).1, fun reads => (ih rfl).2 ?_⟩
    rw [← Bool.not_eq_true] at reads ⊢
    exact fun body => reads (covers r body)
  | @rule_bare c r cs x _ _ ih =>
    rintro _ _ ⟨⟩
    refine ⟨(ih rfl).1, fun reads => (ih rfl).2 ?_⟩
    rw [← Bool.not_eq_true] at reads ⊢
    exact fun body => reads (covers r body)
  | _ => nofun

theorem suffix (h : Derives g c p cs (some (ts, ds))) : ds <:+ cs :=
  (h.reads_of_eq (fun _ => true) (fun _ _ => rfl) rfl).1

theorem length_lt {empty : R → Bool} (covers : ∀ r, (g.body r).mayBeEmpty empty = true → empty r = true)
    (h : Derives g c p cs (some (ts, ds))) (reads : p.mayBeEmpty empty = false) : ds.length < cs.length :=
  (h.reads_of_eq empty covers rfl).2 reads

theorem of_chars {text : List Char} (h : Derives g c (.chars text) cs (some (ts, ds))) : ts = [] ∧ cs = text ++ ds := by
  cases h with
  | chars h =>
    obtain ⟨_, found, ⟨⟩⟩ := Option.map_eq_some_iff.mp h
    exact ⟨rfl, Text.after?_eq_some found⟩

theorem of_any (h : Derives g c .any cs (some (ts, ds))) : ts = [] ∧ ∃ x, cs = x :: ds := by
  cases h with
  | any h =>
    obtain ⟨_, found, ⟨⟩⟩ := Option.map_eq_some_iff.mp h
    obtain ⟨x, -, same⟩ := one?_eq_some found
    exact ⟨rfl, x, same⟩

theorem of_range {first last : Char} (h : Derives g c (.range first last) cs (some (ts, ds))) : ts = [] := by
  cases h with
  | range h =>
    obtain ⟨_, -, ⟨⟩⟩ := Option.map_eq_some_iff.mp h
    rfl

theorem of_seq {front back : Pattern R} (h : Derives g c (.seq front back) cs (some (ts, ds))) :
    ∃ first ms second, Derives g c front cs (some (first, ms)) ∧ Derives g c back (c.skips ms) (some (second, ds)) ∧
      ts = first ++ second := by
  cases h with
  | seq_fits first second => exact ⟨_, _, _, first, second, rfl⟩

theorem of_alt {one other : Pattern R} (h : Derives g c (.alt one other) cs (some (ts, ds))) :
    Derives g c one cs (some (ts, ds)) ∨ Derives g c one cs none ∧ Derives g c other cs (some (ts, ds)) := by
  cases h with
  | alt_one fits => exact .inl fits
  | alt_other fails fits => exact .inr ⟨fails, fits⟩

theorem of_opt (h : Derives g c (.opt p) cs (some (ts, ds))) :
    Derives g c p cs (some (ts, ds)) ∨ Derives g c p cs none ∧ ts = [] ∧ ds = cs := by
  cases h with
  | opt_some fits => exact .inl fits
  | opt_none fails => exact .inr ⟨fails, rfl, rfl⟩

theorem of_unless (h : Derives g c (.unless p) cs (some (ts, ds))) :
    Derives g { c with look := c.look.negated } p cs none ∧ ts = [] ∧ ds = cs := by
  cases h with
  | unless_fails fails => exact ⟨fails, rfl, rfl⟩

theorem of_rule {r : R} (loud : g.kind r ≠ .silent) (leaves : c.leaves = true)
    (h : Derives g c (.rule r) cs (some (ts, ds))) : ∃ inner,
      Derives g ((g.kind r).inside c) (g.body r) cs (some (inner, ds)) ∧
        ts = [.node r cs (cs.length - ds.length) inner] := by
  cases h with
  | rule_node _ _ body => exact ⟨_, body, rfl⟩
  | rule_bare bare _ => exact absurd bare (by simp [loud, leaves])

theorem of_rule_body {r : R} (h : Derives g c (.rule r) cs (some (ts, ds))) :
    ∃ inner, Derives g ((g.kind r).inside c) (g.body r) cs (some (inner, ds)) := by
  cases h with
  | rule_node _ _ body => exact ⟨_, body⟩
  | rule_bare _ body => exact ⟨_, body⟩

theorem of_star {Q : List Char → List (Tree R) → List Char → Prop} (stop : ∀ cs, Derives g c p cs none → Q cs [] cs)
    (last : ∀ cs ts ds, Derives g c p cs (some (ts, ds)) → Derives g c p (c.skips ds) none → Q cs ts ds)
    (next : ∀ cs first ms later ds, Derives g c p cs (some (first, ms)) → Q (c.skips ms) later ds →
      Q cs (first ++ later) ds)
    (h : Derives g c (.star p) cs (some (ts, ds))) : Q cs ts ds := by
  generalize pattern : Pattern.star p = q at h
  generalize result : some (ts, ds) = r at h
  induction h generalizing ts ds with
  | star_none fails =>
    cases pattern
    cases result
    exact stop _ fails
  | star_last fits fails =>
    cases pattern
    cases result
    exact last _ _ _ fits fails
  | star_next fits _ _ _ _ ih =>
    cases pattern
    cases result
    exact next _ _ _ _ _ fits (ih stop last next rfl rfl)
  | _ => cases pattern

theorem of_star_tight {Q : List Char → List (Tree R) → List Char → Prop} (tight : c.mode ≠ .loose)
    (stop : ∀ cs, Derives g c p cs none → Q cs [] cs)
    (next : ∀ cs first ms later ds, Derives g c p cs (some (first, ms)) → Q ms later ds → Q cs (first ++ later) ds)
    (h : Derives g c (.star p) cs (some (ts, ds))) : Q cs ts ds := by
  have no_skip (cs : List Char) : c.skips cs = cs := if_neg tight
  refine h.of_star stop (fun cs ts ds fits fails => ?_) (fun cs first ms later ds fits rest => ?_)
  · rw [no_skip] at fails
    simpa using next cs ts ds [] ds fits (stop ds fails)
  · rw [no_skip] at rest
    exact next cs first ms later ds fits rest

theorem star_of_plus (tight : c.mode ≠ .loose) (h : Derives g c p.plus cs (some (ts, ds))) :
    Derives g c (.star p) cs (some (ts, ds)) := by
  obtain ⟨first, ms, later, fits, rest, rfl⟩ := h.of_seq
  have rest' := rest
  cases rest with
  | star_none fails =>
    rw [show c.skips ms = ms from if_neg tight] at fails ⊢
    simpa using Derives.star_last fits (by rwa [show c.skips ms = ms from if_neg tight])
  | star_last again _ => exact .star_next fits again rest'
  | star_next again _ _ => exact .star_next fits again rest'

theorem none_of_chars {text : List Char} (h : Derives g c (.chars text) cs none) : Text.after? text cs = none := by
  cases h with
  | chars h => exact Option.map_eq_none_iff.mp h

theorem none_of_alt {one other : Pattern R} (h : Derives g c (.alt one other) cs none) :
    Derives g c one cs none ∧ Derives g c other cs none := by
  cases h with
  | alt_other first second => exact ⟨first, second⟩

theorem none_of_rule {r : R} (h : Derives g c (.rule r) cs none) :
    Derives g ((g.kind r).inside c) (g.body r) cs none := by
  cases h with
  | rule_fails body => exact body

/-- A text up to a mark, without blanks skipped: at no place in it the mark fits, and behind it the mark does or the whole
text is at its end. -/
theorem of_upTo {mark : Pattern R} (tight : c.mode ≠ .loose)
    (h : Derives g c (.star (Pattern.upTo mark)) cs (some (ts, ds))) : ts = [] ∧ ∃ front, cs = front ++ ds ∧
      (∀ back, back <:+ front → back ≠ [] → Derives g { c with look := c.look.negated } mark (back ++ ds) none) ∧
      (ds = [] ∨ ∃ x, Derives g { c with look := c.look.negated } mark ds (some x)) := by
  have no_skip (cs : List Char) : c.skips cs = cs := if_neg tight
  refine of_star_tight (Q := fun cs ts ds => ts = [] ∧ ∃ front, cs = front ++ ds ∧
    (∀ back, back <:+ front → back ≠ [] → Derives g { c with look := c.look.negated } mark (back ++ ds) none) ∧
    (ds = [] ∨ ∃ x, Derives g { c with look := c.look.negated } mark ds (some x))) tight ?_ ?_ h
  · intro cs fails
    refine ⟨rfl, [], rfl, fun back suffix some_char => absurd (List.suffix_nil.mp suffix) some_char, ?_⟩
    cases fails with
    | seq_front fails =>
      cases fails with
      | unless_fits fits => exact .inr ⟨_, fits⟩
    | seq_back first fails =>
      obtain ⟨-, -, same⟩ := first.of_unless
      rw [no_skip, same] at fails
      cases fails with
      | any fails =>
        cases cs with
        | nil => exact .inl rfl
        | cons x cs => simp [one?] at fails
  · rintro cs first ms later ds one ⟨rfl, front, rfl, nowhere, behind⟩
    obtain ⟨first', ms', second', unless_, any_, rfl⟩ := one.of_seq
    obtain ⟨fails, rfl, rfl⟩ := unless_.of_unless
    rw [no_skip] at any_
    obtain ⟨rfl, x, rfl⟩ := any_.of_any
    refine ⟨rfl, x :: front, rfl, fun back suffix some_char => ?_, behind⟩
    rcases List.suffix_cons_iff.mp suffix with rfl | suffix
    · exact fails
    · exact nowhere back suffix some_char

end Derives

end Pageweave.Peg
