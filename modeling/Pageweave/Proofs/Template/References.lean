import Pageweave.Reference
import Pageweave.Template.Reading
/-!
# The references of a read template

The tags of a template that name others, in the order of its text, also those inside blocks, loops and conditions. Blanks
that are removed and bodies that are put together leave them as they are.
-/
namespace Pageweave.Template

theorem ok_of_bind {ε α β : Type} {x : Except ε α} {next : α → Except ε β} {b : β} (h : x >>= next = .ok b) :
    ∃ a, x = .ok a ∧ next a = .ok b := by
  cases x with
  | error fault => cases h
  | ok a => exact ⟨a, rfl, h⟩

namespace Node

mutual
def references : Node → List Reference
  | .includes names ignoreMissing => [⟨names, ignoreMissing⟩]
  | .extending name => [⟨[name], false⟩]
  | .importing file _ => [⟨[file], false⟩]
  | .block _ body => referencesOf body
  | .macroDefinition _ _ body => referencesOf body
  | .section _ body => referencesOf body
  | .loop _ _ _ body none => referencesOf body
  | .loop _ _ _ body (some otherwise) => referencesOf body ++ referencesOf otherwise
  | .cond branches none => referencesOfBranches branches
  | .cond branches (some otherwise) => referencesOfBranches branches ++ referencesOf otherwise
  | _ => []

def referencesOf : List Node → List Reference
  | [] => []
  | n :: ns => references n ++ referencesOf ns

def referencesOfBranches : List (Expr × List Node) → List Reference
  | [] => []
  | (_, body) :: rest => referencesOf body ++ referencesOfBranches rest
end

variable {ns ms : List Node}

@[simp] theorem references_text (s : String) : (Node.text s).references = [] := by simp only [references]

@[simp] theorem referencesOf_nil : referencesOf [] = [] := by simp only [referencesOf]

@[simp] theorem referencesOf_cons {n : Node} : referencesOf (n :: ns) = n.references ++ referencesOf ns := by
  simp only [referencesOf]

@[simp] theorem referencesOf_append : referencesOf (ns ++ ms) = referencesOf ns ++ referencesOf ms := by
  induction ns with
  | nil => rw [List.nil_append, referencesOf_nil, List.nil_append]
  | cons n ns ih => rw [List.cons_append, referencesOf_cons, referencesOf_cons, ih, List.append_assoc]

end Node

open Template.Node

def Piece.references (p : Piece) : List Reference := p.node.references

theorem referencesOf_trimLast (ns : List Node) : referencesOf (trimLast ns).reverse = referencesOf ns.reverse := by
  unfold trimLast
  split
  · simp only
    split <;> simp
  · rfl

theorem referencesOf_tidyFrom (trimNext afterText : Bool) (done : List Node) (pieces : List Piece) :
    referencesOf (tidyFrom trimNext afterText done pieces).reverse =
      referencesOf done.reverse ++ pieces.flatMap Piece.references := by
  induction pieces generalizing trimNext afterText done with
  | nil => simp [tidyFrom]
  | cons p pieces ih =>
    rw [List.flatMap_cons]
    unfold tidyFrom
    split
    · next none => cases none
    · next s _ _ rest same =>
      cases same
      simp only
      split
      · rw [ih]
        split <;> simp [Piece.references]
      · rw [ih]
        simp [Piece.references]
    · next p' rest _ same =>
      cases same
      rw [ih]
      split <;> simp [Piece.references, referencesOf_trimLast]

theorem referencesOf_tidy (trimFirst trimEnd : Bool) (pieces : List Piece) :
    referencesOf (tidy trimFirst trimEnd pieces) = pieces.flatMap Piece.references := by
  have whole := referencesOf_tidyFrom trimFirst false [] pieces
  unfold tidy
  cases trimEnd with
  | true => simp [referencesOf_trimLast, whole]
  | false => simp [whole]

namespace Reading

def Part.references : Part → List Reference
  | .pieces items => items.flatMap Piece.references
  | _ => []

def Group.references (g : Group) : List Reference := g.pieces.flatMap Piece.references

/-- A tag or the pieces between two tags. -/
def Part.isRegular : Part → Bool
  | .pieces _ => true
  | .tag _ _ _ => true
  | _ => false

/-- Nothing, or a tag and what stands behind it. -/
def startsWithTag : List Part → Bool
  | [] => true
  | .tag _ _ _ :: _ => true
  | _ => false

theorem groups_append {ps qs : List Part} (regular : ∀ p ∈ ps, p.isRegular = true) (tag : startsWithTag qs = true) :
    ∃ more, groups (ps ++ qs) = more ++ groups qs ∧ (∀ g ∈ more, ∃ trim inner, .tag g.rule trim inner ∈ ps) ∧
      (groups.loose (ps ++ qs)).flatMap Piece.references ++ more.flatMap Group.references =
        ps.flatMap Part.references := by
  induction ps with
  | nil =>
    refine ⟨[], rfl, nofun, ?_⟩
    cases qs with
    | nil => rfl
    | cons q qs => cases q <;> first | rfl | cases tag
  | cons p ps ih =>
    obtain ⟨more, rest, rules, same⟩ := ih fun p listed => regular p (List.mem_cons_of_mem _ listed)
    have first := regular p List.mem_cons_self
    cases p with
    | pieces items =>
      refine ⟨more, rest, fun g listed => ?_, ?_⟩
      · obtain ⟨trim, inner, listed⟩ := rules g listed
        exact ⟨trim, inner, List.mem_cons_of_mem _ listed⟩
      · rw [List.flatMap_cons, ← same, List.cons_append, groups.loose, List.flatMap_append, List.append_assoc]
        rfl
    | tag rule trim inner =>
      refine ⟨⟨rule, trim, inner, groups.loose (ps ++ qs)⟩ :: more, ?_, fun g listed => ?_, ?_⟩
      · rw [List.cons_append, groups, rest, List.cons_append]
      · rcases List.mem_cons.mp listed with rfl | listed
        · exact ⟨trim, inner, List.mem_cons_self⟩
        · obtain ⟨trim, inner, listed⟩ := rules g listed
          exact ⟨trim, inner, List.mem_cons_of_mem _ listed⟩
      · rw [List.flatMap_cons, List.flatMap_cons, ← same]
        rfl
    | _ => cases first

/-- Only pieces, and no tags. -/
def AreBodies (ps : List Part) : Prop := ∀ p ∈ ps, ∃ items, p = .pieces items

theorem AreBodies.regular {ps : List Part} (h : AreBodies ps) : ∀ p ∈ ps, p.isRegular = true := by
  intro p listed
  obtain ⟨items, rfl⟩ := h p listed
  rfl

theorem groups_bodies {ps : List Part} (qs : List Part) (h : AreBodies ps) (tag : startsWithTag qs = true) :
    groups (ps ++ qs) = groups qs ∧
      (groups.loose (ps ++ qs)).flatMap Piece.references = ps.flatMap Part.references := by
  obtain ⟨more, rest, rules, same⟩ := groups_append h.regular tag
  have no_more : more = [] := by
    refine List.eq_nil_iff_forall_not_mem.mpr fun g listed => ?_
    obtain ⟨trim, inner, listed⟩ := rules g listed
    obtain ⟨items, impossible⟩ := h _ listed
    cases impossible
  rw [no_more] at rest same
  exact ⟨rest, by simpa using same⟩

variable {first last : Rule} {trim trim' : Trim} {inner inner' parts : List Part}

theorem references_between (first last : Trim) (n : Node) :
    (Part.pieces [.between first last n]).references = n.references := by
  simp [Part.references, Piece.references, Piece.between]

variable {make : List Part → List Node → Option (List Node) → Result Node} {ps os : List Part} {p : Part}

theorem references_paired_one (bodies : AreBodies ps)
    (keeps : ∀ body n, make inner body none = .ok n → n.references = referencesOf body)
    (h : paired (.tag first trim inner :: (ps ++ [.tag last trim' inner'])) make = .ok p) :
    p.references = ps.flatMap Part.references := by
  obtain ⟨rest, same⟩ := groups_bodies [.tag last trim' inner'] bodies rfl
  obtain ⟨n, made, ⟨⟩⟩ := ok_of_bind h
  rw [groups, rest] at made
  rw [references_between, keeps _ n made, ← same]
  exact referencesOf_tidy _ _ _

theorem references_paired_two {between : Rule} {trim₁ : Trim} {inner₁ : List Part} (bodies : AreBodies ps)
    (bodies' : AreBodies os)
    (keeps : ∀ body otherwise n, make inner body (some otherwise) = .ok n →
      n.references = referencesOf body ++ referencesOf otherwise)
    (h : paired (.tag first trim inner :: (ps ++ (.tag between trim₁ inner₁ :: (os ++ [.tag last trim' inner'])))) make =
      .ok p) : p.references = ps.flatMap Part.references ++ os.flatMap Part.references := by
  obtain ⟨rest, same⟩ := groups_bodies (.tag between trim₁ inner₁ :: (os ++ [.tag last trim' inner'])) bodies rfl
  obtain ⟨rest', same'⟩ := groups_bodies [.tag last trim' inner'] bodies' rfl
  obtain ⟨n, made, ⟨⟩⟩ := ok_of_bind h
  rw [groups, rest, groups, rest'] at made
  rw [references_between, keeps _ _ n made, ← same, ← same']
  exact congr (congrArg HAppend.hAppend (referencesOf_tidy _ _ _)) (referencesOf_tidy _ _ _)

theorem branches_cons {first : Group} {gs : List Group} {found : List (Expr × List Node)}
    {otherwise : Option (List Node)} (condition : first.rule ≠ .elseTag) (more : gs ≠ [])
    (h : branches (first :: gs) = .ok (found, otherwise)) : ∃ later, branches gs = .ok (later, otherwise) ∧
      referencesOfBranches found = first.references ++ referencesOfBranches later := by
  obtain ⟨next, gs, rfl⟩ := List.exists_cons_of_ne_nil more
  rw [branches, if_neg (by simpa using condition)] at h
  obtain ⟨e, -, h⟩ := ok_of_bind h
  obtain ⟨⟨later, _⟩, rest, h⟩ := ok_of_bind h
  cases h
  refine ⟨later, rest, ?_⟩
  rw [referencesOfBranches, referencesOf_tidy]
  rfl

theorem branches_conditions {gs : List Group} {g : Group} {found : List (Expr × List Node)} {otherwise : Option (List Node)}
    (no_else : ∀ g ∈ gs, g.rule ≠ .elseTag) (h : branches (gs ++ [g]) = .ok (found, otherwise)) :
    otherwise = none ∧ referencesOfBranches found = gs.flatMap Group.references := by
  induction gs generalizing found otherwise with
  | nil =>
    cases h
    exact ⟨rfl, by simp only [referencesOfBranches, List.flatMap_nil]⟩
  | cons first gs ih =>
    obtain ⟨later, rest, same⟩ := branches_cons (no_else first List.mem_cons_self) (by simp) h
    obtain ⟨none, all⟩ := ih (fun g listed => no_else g (List.mem_cons_of_mem first listed)) rest
    exact ⟨none, by rw [same, all, List.flatMap_cons]⟩

theorem branches_otherwise {gs : List Group} {e g : Group} {found : List (Expr × List Node)}
    {otherwise : Option (List Node)} (no_else : ∀ g ∈ gs, g.rule ≠ .elseTag) (is_else : e.rule = .elseTag)
    (h : branches (gs ++ [e, g]) = .ok (found, otherwise)) : ∃ body, otherwise = some body ∧
      referencesOfBranches found ++ referencesOf body = gs.flatMap Group.references ++ e.references := by
  induction gs generalizing found otherwise with
  | nil =>
    simp only [List.nil_append, branches, is_else, beq_self_eq_true, if_true] at h
    cases h
    refine ⟨_, rfl, ?_⟩
    rw [referencesOf_tidy, referencesOfBranches, List.flatMap_nil]
    rfl
  | cons first gs ih =>
    obtain ⟨later, rest, same⟩ := branches_cons (no_else first List.mem_cons_self) (by simp) h
    obtain ⟨body, some, all⟩ := ih (fun g listed => no_else g (List.mem_cons_of_mem first listed)) rest
    exact ⟨body, some, by rw [same, List.append_assoc, all, List.flatMap_cons, List.append_assoc]⟩

theorem ok_of_conditional (h : conditional parts = .ok p) : ∃ found otherwise,
    branches (groups parts) = .ok (found, otherwise) ∧
      p = .pieces [.between (firstTrim (groups parts)) (lastTrim (groups parts)) (.cond found otherwise)] := by
  obtain ⟨⟨found, otherwise⟩, ran, same⟩ := ok_of_bind h
  exact ⟨found, otherwise, ran, (Except.ok.inj same).symm⟩

/-- All branches of a condition together refer to what its bodies refer to. -/
theorem references_conditional (first_if : first ≠ .elseTag)
    (regular : ∀ p ∈ ps, p.isRegular = true) (no_else : ∀ rule trim inner, .tag rule trim inner ∈ ps → rule ≠ .elseTag)
    (others : os = [] ∨ ∃ trim inner more, os = .tag .elseTag trim inner :: more ∧ AreBodies more)
    (h : conditional (.tag first trim inner :: (ps ++ (os ++ [.tag last trim' inner']))) = .ok p) :
    p.references = ps.flatMap Part.references ++ os.flatMap Part.references := by
  have starts : startsWithTag (os ++ [.tag last trim' inner']) = true := by
    rcases others with rfl | ⟨_, _, _, rfl, -⟩ <;> rfl
  obtain ⟨more, rest, rules, same⟩ := groups_append regular starts
  have conditions : ∀ g ∈ (⟨first, trim, inner, groups.loose (ps ++ (os ++ [.tag last trim' inner']))⟩ : Group) :: more,
      g.rule ≠ .elseTag := by
    refine List.forall_mem_cons.mpr ⟨first_if, fun g listed => ?_⟩
    obtain ⟨trim, inner, listed⟩ := rules g listed
    exact no_else _ _ _ listed
  have whole := congrArg (Group.mk first trim inner (groups.loose (ps ++ (os ++ [.tag last trim' inner']))) :: ·) rest
  change groups (.tag first trim inner :: (ps ++ (os ++ [.tag last trim' inner']))) = _ at whole
  obtain ⟨found, otherwise, ran, rfl⟩ := ok_of_conditional h
  rw [whole] at ran
  rcases others with rfl | ⟨trim₁, inner₁, more', rfl, bodies⟩
  · obtain ⟨rfl, all⟩ := branches_conditions conditions ran
    rw [references_between, references, all, List.flatMap_cons, ← same, List.flatMap_nil, List.append_nil]
    rfl
  · obtain ⟨rest', same'⟩ := groups_bodies [.tag last trim' inner'] bodies rfl
    rw [List.cons_append, groups, rest'] at ran
    obtain ⟨body, rfl, all⟩ := branches_otherwise conditions rfl ran
    rw [references_between, references, all, List.flatMap_cons, List.flatMap_cons, ← same, ← same']
    rfl

end Reading

end Pageweave.Template
