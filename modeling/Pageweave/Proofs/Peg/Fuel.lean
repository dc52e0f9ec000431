import Pageweave.Proofs.Peg.Derivation
/-!
# Enough fuel

A grammar is founded if its stars repeat only what reads something and if no rule calls itself before it has read a
character. With a thousand steps for each character, and as many for the end, the reader of a founded grammar never runs
out of fuel: what it finds is derivable, and what it does not find is not.
-/
namespace Pageweave.Peg

variable {R : Type}

/-- Fuel for reading on behind a character. -/
def perCharacter : Nat := 1000

namespace Pattern

/-- Does every star repeat something that reads? -/
def guarded (empty : R → Bool) : Pattern R → Bool
  | .seq front back => front.guarded empty && back.guarded empty
  | .alt one other => one.guarded empty && other.guarded empty
  | .opt inner => inner.guarded empty
  | .star inner => inner.guarded empty && !inner.mayBeEmpty empty
  | .unless inner => inner.guarded empty
  | _ => true

/-- How deep calls nest before a character is read, if those of the rules nest as deep as `rank` says. -/
def depth (empty : R → Bool) (rank : R → Nat) : Pattern R → Nat
  | .rule r => rank r
  | .seq front back =>
    1 + max (front.depth empty rank)
      (if front.mayBeEmpty empty then back.depth empty rank else back.depth empty rank - perCharacter)
  | .alt one other => 1 + max (one.depth empty rank) (other.depth empty rank)
  | .opt inner => 1 + inner.depth empty rank
  | .star inner => 2 + inner.depth empty rank
  | .unless inner => 1 + inner.depth empty rank
  | _ => 1

end Pattern

structure Grammar.Founded (g : Grammar R) (empty : R → Bool) (rank : R → Nat) : Prop where
  guarded : ∀ r, (g.body r).guarded empty = true
  covers : ∀ r, (g.body r).mayBeEmpty empty = true → empty r = true
  rank : ∀ r, (g.body r).depth empty rank + 2 ≤ rank r

/-- A state reached from another one by reading. -/
structure Reached (s t : State R) (new : List (Tree R)) : Prop where
  trees : t.trees = new.reverse ++ s.trees
  position : t.position + t.rest.length = s.position + s.rest.length

def Agrees (g : Grammar R) (c : Setting) (p : Pattern R) (s : State R) : Outcome R → Prop
  | .fits t => ∃ new, Derives g c p s.rest (some (new, t.rest)) ∧ Reached s t new
  | .fails _ => Derives g c p s.rest none

/-- What further repetitions find is a star of its own, unless there is none. -/
def AgreesFurther (g : Grammar R) (c : Setting) (p : Pattern R) (s : State R) : Outcome R → Prop
  | .fits t =>
    (Derives g c p (c.skips s.rest) none ∧ t.rest = s.rest ∧ Reached s t []) ∨
      ∃ new x, Derives g c p (c.skips s.rest) (some x) ∧
        Derives g c (.star p) (c.skips s.rest) (some (new, t.rest)) ∧ Reached s t new
  | .fails _ => False

variable {g : Grammar R} {c : Setting} {s t u : State R} {new later : List (Tree R)}

theorem Reached.trans (first : Reached s t new) (second : Reached t u later) : Reached s u (new ++ later) where
  trees := by rw [second.trees, first.trees, List.reverse_append, List.append_assoc]
  position := second.position.trans first.position

theorem skip_rest (c : Setting) (s : State R) : (skip c s).rest = c.skips s.rest := by
  unfold skip Setting.skips
  split
  · have whole : s.rest.takeWhile isSpace ++ s.rest.dropWhile isSpace = s.rest := List.takeWhile_append_dropWhile
    have cut : (s.rest.takeWhile isSpace ++ s.rest.dropWhile isSpace).drop (s.rest.takeWhile isSpace).length =
        s.rest.dropWhile isSpace := List.drop_left
    rwa [whole] at cut
  · rfl

theorem skip_reached (c : Setting) (s : State R) : Reached s (skip c s) [] := by
  unfold skip
  split
  · refine ⟨rfl, ?_⟩
    have le := (List.takeWhile_prefix isSpace (l := s.rest)).length_le
    simp only [advance, List.length_drop]
    omega
  · exact ⟨rfl, rfl⟩

theorem Reached.of_skip (h : Reached (skip c s) t new) : Reached s t new := (skip_reached c s).trans h

theorem advance_reached {x : Char} {cs : List Char} (rest : s.rest = x :: cs) : Reached s (advance 1 s) [] := by
  refine ⟨rfl, ?_⟩
  simp only [advance, rest, List.drop_succ_cons, List.drop_zero, List.length_cons]
  omega

private theorem oneChar_agrees {p : Pattern R} (ok : Char → Bool) (s : State R)
    (derives : ∀ {r}, (one? ok s.rest).map ([], ·) = r → Derives g c p s.rest r) : Agrees g c p s (oneChar ok s) := by
  unfold oneChar
  cases rest : s.rest with
  | nil => exact derives (by rw [rest]; rfl)
  | cons x cs =>
    by_cases fits : ok x = true
    · simp only [fits, if_true]
      exact ⟨[], derives (by simp [rest, one?, fits, advance]), advance_reached rest⟩
    · simp only [fits, if_false, Bool.false_eq_true]
      exact derives (by simp [rest, one?, fits])

variable {empty : R → Bool} {rank : R → Nat} {p : Pattern R} {fuel : Nat}

/-- With so much fuel the reader goes right. -/
structure Right (g : Grammar R) (empty : R → Bool) (rank : R → Nat) (fuel : Nat) : Prop where
  run : ∀ (c : Setting) p s, p.guarded empty = true → p.depth empty rank + perCharacter * s.rest.length ≤ fuel →
    Agrees g c p s (run g fuel c p s)
  rule : ∀ (c : Setting) r s, rank r + perCharacter * s.rest.length ≤ fuel + 1 →
    Agrees g c (.rule r) s (runRule g fuel c r s)
  more : ∀ (c : Setting) p s, p.guarded empty = true → p.mayBeEmpty empty = false →
    p.depth empty rank + 1 + perCharacter * s.rest.length ≤ fuel → AgreesFurther g c p s (more g fuel c p s)

private theorem seq_right (founded : g.Founded empty rank) (right : Right g empty rank fuel) {front back : Pattern R}
    (guarded : (Pattern.seq front back).guarded empty = true)
    (enough : (Pattern.seq front back).depth empty rank + perCharacter * s.rest.length ≤ fuel + 1) :
    Agrees g c (.seq front back) s (run g (fuel + 1) c (.seq front back) s) := by
  simp only [Pattern.guarded, Bool.and_eq_true] at guarded
  simp only [Pattern.depth] at enough
  have first := right.run c front s guarded.1 (by omega)
  cases found : run g fuel c front s with
  | fails f =>
    rw [found] at first
    simp only [run, found]
    exact Derives.seq_front first
  | fits t =>
    rw [found] at first
    obtain ⟨new, derives, reached⟩ := first
    have enough' : back.depth empty rank + perCharacter * (skip c t).rest.length ≤ fuel := by
      have le := derives.suffix.length_le
      have le_skips := (c.skips_suffix t.rest).length_le
      rw [skip_rest]
      cases reads : front.mayBeEmpty empty with
      | true =>
        have le' := Nat.mul_le_mul_left perCharacter (Nat.le_trans le_skips le)
        simp only [reads, if_true] at enough
        omega
      | false =>
        have less := derives.length_lt founded.covers reads
        have le' := Nat.mul_le_mul_left perCharacter (Nat.succ_le_of_lt (Nat.lt_of_le_of_lt le_skips less))
        rw [Nat.mul_succ] at le'
        simp only [reads, Bool.false_eq_true, if_false] at enough
        omega
    have second := right.run c back (skip c t) guarded.2 enough'
    cases found' : run g fuel c back (skip c t) with
    | fails f =>
      rw [found', Agrees, skip_rest] at second
      simp only [run, found, found']
      exact Derives.seq_back derives second
    | fits u =>
      rw [found'] at second
      obtain ⟨later, derives', reached'⟩ := second
      rw [skip_rest] at derives'
      simp only [run, found, found']
      exact ⟨new ++ later, .seq_fits derives derives', reached.trans reached'.of_skip⟩

private theorem star_right (founded : g.Founded empty rank) (right : Right g empty rank fuel)
    (guarded : (Pattern.star p).guarded empty = true)
    (enough : (Pattern.star p).depth empty rank + perCharacter * s.rest.length ≤ fuel + 1) :
    Agrees g c (.star p) s (run g (fuel + 1) c (.star p) s) := by
  simp only [Pattern.guarded, Bool.and_eq_true, Bool.not_eq_true'] at guarded
  simp only [Pattern.depth] at enough
  have first := right.run c p s guarded.1 (by omega)
  cases found : run g fuel c p s with
  | fails f =>
    rw [found] at first
    simp only [run, found]
    exact ⟨[], .star_none first, rfl, rfl⟩
  | fits t =>
    rw [found] at first
    obtain ⟨new, derives, reached⟩ := first
    have less := derives.length_lt founded.covers guarded.2
    have le := Nat.mul_le_mul_left perCharacter (Nat.le_of_lt less)
    have further := right.more c p t guarded.1 guarded.2 (by omega)
    cases found' : more g fuel c p t with
    | fails f =>
      rw [found'] at further
      exact further.elim
    | fits u =>
      rw [found'] at further
      simp only [run, found, found']
      obtain ⟨none, rest, reached'⟩ | ⟨later, x, next, rest, reached'⟩ := further
      · refine ⟨new, ?_, by simpa using reached.trans reached'⟩
        rw [rest]
        exact .star_last derives none
      · exact ⟨new ++ later, .star_next derives next rest, reached.trans reached'⟩

private theorem more_right (founded : g.Founded empty rank) (right : Right g empty rank fuel)
    (guarded : p.guarded empty = true) (reads : p.mayBeEmpty empty = false)
    (enough : p.depth empty rank + 1 + perCharacter * s.rest.length ≤ fuel + 1) :
    AgreesFurther g c p s (more g (fuel + 1) c p s) := by
  have le_skips := Nat.mul_le_mul_left perCharacter (c.skips_suffix s.rest).length_le
  have next := right.run c p (skip c s) guarded (by rw [skip_rest]; omega)
  cases found : run g fuel c p (skip c s) with
  | fails f =>
    rw [found, Agrees, skip_rest] at next
    simp only [more, found]
    exact .inl ⟨next, rfl, rfl, rfl⟩
  | fits t =>
    rw [found] at next
    obtain ⟨new, derives, reached⟩ := next
    rw [skip_rest] at derives
    have less := derives.length_lt founded.covers reads
    have le := Nat.mul_le_mul_left perCharacter (Nat.succ_le_of_lt less)
    rw [Nat.mul_succ] at le
    have further := right.more c p t guarded reads (by unfold perCharacter at *; omega)
    cases found' : more g fuel c p t with
    | fails f =>
      rw [found'] at further
      exact further.elim
    | fits u =>
      rw [found'] at further
      simp only [more, found, found']
      obtain ⟨none, rest, reached'⟩ | ⟨later, x, again, rest, reached'⟩ := further
      · refine .inr ⟨new, _, derives, ?_, by simpa using reached.of_skip.trans reached'⟩
        rw [rest]
        exact .star_last derives none
      · exact .inr ⟨new ++ later, _, derives, .star_next derives again rest, reached.of_skip.trans reached'⟩

private theorem rule_right (founded : g.Founded empty rank) (right : Right g empty rank fuel) {r : R}
    (enough : rank r + perCharacter * s.rest.length ≤ fuel + 2) :
    Agrees g c (.rule r) s (runRule g (fuel + 1) c r s) := by
  have deep := founded.rank r
  have body (s' : State R) (rest : s'.rest = s.rest) :=
    right.run ((g.kind r).inside c) (g.body r) s' (founded.guarded r) (by rw [rest]; omega)
  unfold runRule
  simp only
  change Agrees g c (.rule r) s (if g.kind r = .silent then run g fuel ((g.kind r).inside c) (g.body r) s else _)
  by_cases silent : g.kind r = .silent
  · rw [if_pos silent]
    have inner := body s rfl
    cases found : run g fuel ((g.kind r).inside c) (g.body r) s with
    | fails f =>
      rw [found] at inner
      exact .rule_fails inner
    | fits t =>
      rw [found] at inner
      obtain ⟨new, derives, reached⟩ := inner
      exact ⟨new, .rule_bare (.inl silent) derives, reached⟩
  · rw [if_neg silent]
    cases leaves : c.leaves with
    | true =>
      have inner := body { s with trees := [] } rfl
      simp only [if_true]
      change Agrees g c (.rule r) s (match run g fuel ((g.kind r).inside c) (g.body r) { s with trees := [] } with
        | .fits t => _
        | .fails f => _)
      cases found : run g fuel ((g.kind r).inside c) (g.body r) { s with trees := [] } with
      | fails f =>
        rw [found] at inner
        exact .rule_fails inner
      | fits t =>
        rw [found] at inner
        obtain ⟨new, derives, reached⟩ := inner
        have trees : t.trees = new.reverse := by simpa using reached.trees
        have position := reached.position
        have size : t.position - s.position = s.rest.length - t.rest.length := by
          simp only at position
          omega
        refine ⟨[.node r s.rest (s.rest.length - t.rest.length) new], .rule_node silent leaves derives, ?_, position⟩
        simp only [trees, List.reverse_reverse, size]
        rfl
    | false =>
      have inner := body s rfl
      simp only [Bool.false_eq_true, if_false]
      change Agrees g c (.rule r) s (match run g fuel ((g.kind r).inside c) (g.body r) s with
        | .fits t => _
        | .fails f => _)
      cases found : run g fuel ((g.kind r).inside c) (g.body r) s with
      | fails f =>
        rw [found] at inner
        exact .rule_fails inner
      | fits t =>
        rw [found] at inner
        obtain ⟨new, derives, reached⟩ := inner
        exact ⟨new, .rule_bare (.inr leaves) derives, reached.trees, reached.position⟩

private theorem run_right (founded : g.Founded empty rank) (right : Right g empty rank fuel)
    (guarded : p.guarded empty = true) (enough : p.depth empty rank + perCharacter * s.rest.length ≤ fuel + 1) :
    Agrees g c p s (run g (fuel + 1) c p s) := by
  cases p with
  | chars text =>
    simp only [run]
    cases found : Text.after? text s.rest with
    | none => exact Derives.chars (by rw [found]; rfl)
    | some rest =>
      refine ⟨[], Derives.chars (by rw [found]; rfl), rfl, ?_⟩
      rw [Text.after?_eq_some found, List.length_append]
      simp only
      omega
  | range first last => exact oneChar_agrees _ s Derives.range
  | any => exact oneChar_agrees _ s Derives.any
  | finish =>
    simp only [run]
    cases rest : s.rest with
    | nil => exact ⟨[], rest ▸ Derives.finish_fits, rfl, rfl⟩
    | cons x cs => exact Derives.finish_fails (by simp [rest])
  | rule r => exact right.rule c r s enough
  | seq front back => exact seq_right founded right guarded enough
  | alt one other =>
    simp only [Pattern.guarded, Bool.and_eq_true] at guarded
    simp only [Pattern.depth] at enough
    have first := right.run c one s guarded.1 (by omega)
    simp only [run]
    cases found : run g fuel c one s with
    | fits t =>
      rw [found] at first
      obtain ⟨new, derives, reached⟩ := first
      exact ⟨new, .alt_one derives, reached⟩
    | fails f =>
      rw [found] at first
      have second := right.run c other { s with furthest := f } guarded.2 (by simp only; omega)
      simp only
      cases found' : run g fuel c other { s with furthest := f } with
      | fits t =>
        rw [found'] at second
        obtain ⟨new, derives, reached⟩ := second
        exact ⟨new, .alt_other first derives, reached.trees, reached.position⟩
      | fails f' =>
        rw [found'] at second
        exact Derives.alt_other first second
  | opt inner =>
    simp only [Pattern.depth] at enough
    have first := right.run c inner s guarded (by omega)
    simp only [run]
    cases found : run g fuel c inner s with
    | fits t =>
      rw [found] at first
      obtain ⟨new, derives, reached⟩ := first
      exact ⟨new, .opt_some derives, reached⟩
    | fails f =>
      rw [found] at first
      exact ⟨[], .opt_none first, rfl, rfl⟩
  | star inner => exact star_right founded right guarded enough
  | _ inner =>
    simp only [Pattern.depth] at enough
    have first := right.run { c with look := c.look.negated } inner s guarded (by omega)
    simp only [run]
    cases found : run g fuel { c with look := c.look.negated } inner s with
    | fits t =>
      rw [found] at first
      obtain ⟨new, derives, -⟩ := first
      exact Derives.unless_fits derives
    | fails f =>
      rw [found] at first
      exact ⟨[], .unless_fails first, rfl, rfl⟩

private theorem depth_pos (founded : g.Founded empty rank) (p : Pattern R) : 0 < p.depth empty rank := by
  cases p with
  | rule r =>
    have := founded.rank r
    simp only [Pattern.depth]
    omega
  | _ =>
    simp only [Pattern.depth]
    omega

theorem right (founded : g.Founded empty rank) (fuel : Nat) : Right g empty rank fuel := by
  -- every call inside spends one unit of fuel, and the depth of its pattern or the length of its text drops as well
  induction fuel with
  | zero =>
    refine ⟨fun c p s _ enough => ?_, fun c r s enough => ?_, fun c p s _ _ enough => ?_⟩
    · have := depth_pos founded p
      omega
    · have := founded.rank r
      omega
    · omega
  | succ fuel ih =>
    exact ⟨fun c p s guarded enough => run_right founded ih guarded enough,
      fun c r s enough => rule_right founded ih enough,
      fun c p s guarded reads enough => more_right founded ih guarded reads enough⟩

/-- What the reader finds in a whole text is derivable. -/
theorem derives_of_read (founded : g.Founded empty rank) {r : R} {text : List Char} {tree : Tree R}
    (enough : rank r ≤ perCharacter) (leaves : g.kind r ≠ .silent) (found : read g r text = .ok tree) :
    ∃ rest, Derives g ⟨.loose, .outside⟩ (.rule r) text (some ([tree], rest)) := by
  unfold read at found
  have agrees := (right founded (1000 * (text.length + 1))).run ⟨.loose, .outside⟩ (.rule r) ⟨text, 0, [], 0⟩ rfl
    (by simp only [Pattern.depth]; unfold perCharacter at *; omega)
  cases ran : run g (1000 * (text.length + 1)) ⟨.loose, .outside⟩ (.rule r) ⟨text, 0, [], 0⟩ with
  | fails f => simp [ran] at found
  | fits t =>
    rw [ran] at agrees found
    obtain ⟨new, derives, trees, -⟩ := agrees
    cases derives with
    | rule_bare bare _ => exact absurd bare (by simp [leaves, Setting.leaves])
    | rule_node _ _ inner =>
      simp only [trees, List.reverse_singleton, List.append_nil] at found
      obtain rfl := Except.ok.inj found
      exact ⟨t.rest, .rule_node leaves rfl inner⟩

end Pageweave.Peg
