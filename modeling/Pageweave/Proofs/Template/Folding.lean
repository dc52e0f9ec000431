import Pageweave.Proofs.Template.Parts
/-!
# What becomes of the outline

The nodes of a read template refer, in the same order, to what the tags in the outline of its text name.
-/
namespace Pageweave.Template

open Peg Reading Template.Node

variable {t : Parse} {ts : List Parse} {p : Part} {r : Rule} {text : List Char} {parts : List Part}

theorem loopNode_references {body : List Node} {otherwise : Option (List Node)} {n : Node}
    (enough : parts.length = 2 ∨ parts.length = 3) (h : loopNode parts body otherwise = .ok n) :
    n.references = referencesOf body ++ referencesOf (otherwise.getD []) := by
  unfold loopNode at h
  split at h
  · obtain ⟨e, -, h⟩ := ok_of_bind h
    cases h
    cases otherwise <;> simp [Node.references]
  · obtain ⟨e, -, h⟩ := ok_of_bind h
    cases h
    cases otherwise <;> simp [Node.references]
  · next other other' =>
    rcases enough with two | three
    · obtain ⟨a, b, rfl⟩ := List.length_eq_two.mp two
      exact absurd rfl (other a b)
    · obtain ⟨a, b, c, rfl⟩ := List.length_eq_three.mp three
      exact absurd rfl (other' a b c)

/-- What the part of a node keeps of it. -/
structure Stands (t : Parse) (p : Part) : Prop where
  refers : p.references = tagsOf t
  body : t.rule.isContent = true → ∃ items, p = .pieces items
  mark : t.rule.isMark = true → ∃ trim inner, p = .tag t.rule trim inner
  loop : t.rule = .forTag → ∀ rule trim inner, p = .tag rule trim inner → inner.length = 2 ∨ inner.length = 3
  head : t.rule = .macroTag → ∀ rule trim inner, p = .tag rule trim inner → ∃ name params, inner = [.head name params]

theorem stands_append {us vs : List Parse} (h : List.Forall₂ Stands (us ++ vs) parts) : ∃ ps qs, parts = ps ++ qs ∧
    List.Forall₂ Stands us ps ∧ List.Forall₂ Stands vs qs := by
  induction us generalizing parts with
  | nil => exact ⟨[], parts, rfl, .nil, h⟩
  | cons u us ih =>
    obtain ⟨p, rest, first, later, rfl⟩ := List.forall₂_cons_left_iff.mp h
    obtain ⟨ps, qs, rfl, front, back⟩ := ih later
    exact ⟨p :: ps, qs, rfl, .cons first front, back⟩

theorem stands_references (h : List.Forall₂ Stands ts parts) : parts.flatMap Part.references = tagsIn ts := by
  induction h with
  | nil => simp only [List.flatMap_nil, tagsIn]
  | cons first rest ih => rw [List.flatMap_cons, ih, first.refers, tagsIn]

theorem stands_bodies (h : List.Forall₂ Stands ts parts) (contents : AreContents (ts.map Tree.rule)) : AreBodies parts := by
  induction h with
  | nil => exact nofun
  | cons first rest ih =>
    obtain ⟨content, contents⟩ := List.forall_mem_cons.mp contents
    exact List.forall_mem_cons.mpr ⟨first.body content, ih contents⟩

/-- The parts between the tags of a group, and those from `else` on. -/
structure AreMiddle (r : Rule) (ps os : List Part) : Prop where
  regular : ∀ p ∈ ps, p.isRegular = true
  tags : ∀ rule trim inner, .tag rule trim inner ∈ ps → rule = .elifTag ∧ r.hasElif = true
  otherwise : os = [] ∨ (r.hasElse = true ∧ ∃ trim inner more, os = .tag .elseTag trim inner :: more ∧ AreBodies more)

variable {first last : Rule} {ps os inner inner' : List Part} {trim trim' : Trim}

theorem AreMiddle.bodies (h : AreMiddle r ps os) (no_elif : r.hasElif = false) : AreBodies ps := by
  intro p listed
  have regular := h.regular p listed
  cases p with
  | pieces items => exact ⟨items, rfl⟩
  | tag rule trim inner =>
    have elif := (h.tags rule trim inner listed).2
    rw [no_elif] at elif
    cases elif
  | _ => cases regular

theorem AreMiddle.none (h : AreMiddle r ps os) (no_else : r.hasElse = false) : os = [] :=
  h.otherwise.resolve_right fun ⟨has_else, _⟩ => by rw [no_else] at has_else; cases has_else

theorem stands_middle {body otherwise : List Parse} (stands : List.Forall₂ Stands body ps)
    (stands' : List.Forall₂ Stands otherwise os)
    (rules : ∀ x ∈ body.map Tree.rule, x.isContent = true ∨ (x = .elifTag ∧ r.hasElif = true))
    (last : otherwise.map Tree.rule = [] ∨
      (r.hasElse = true ∧ ∃ more, otherwise.map Tree.rule = .elseTag :: more ∧ AreContents more)) : AreMiddle r ps os := by
  have each : ∀ p ∈ ps, (∃ items, p = .pieces items) ∨ ∃ trim inner, p = .tag .elifTag trim inner ∧ r.hasElif = true := by
    clear stands' last
    induction stands with
    | nil => exact nofun
    | cons first rest ih =>
      obtain ⟨rule, rules⟩ := List.forall_mem_cons.mp rules
      refine List.forall_mem_cons.mpr ⟨?_, ih rules⟩
      rcases rule with content | ⟨elif, has_elif⟩
      · exact .inl (first.body content)
      · obtain ⟨trim, inner, rfl⟩ := first.mark (by rw [elif]; rfl)
        exact .inr ⟨trim, inner, by rw [elif], has_elif⟩
  refine ⟨fun p listed => ?_, fun rule trim inner listed => ?_, ?_⟩
  · rcases each p listed with ⟨items, rfl⟩ | ⟨trim, inner, rfl, -⟩ <;> rfl
  · rcases each _ listed with ⟨items, impossible⟩ | ⟨trim, inner, same, has_elif⟩
    · cases impossible
    · cases same
      exact ⟨rfl, has_elif⟩
  · rcases last with empty | ⟨has_else, more, rules, contents⟩
    · rw [List.map_eq_nil_iff.mp empty] at stands'
      exact .inl (List.forall₂_nil_left_iff.mp stands')
    · obtain ⟨e, us, rfl, is_else, rfl⟩ := List.map_eq_cons_iff.mp rules
      obtain ⟨p, qs, first, rest, rfl⟩ := List.forall₂_cons_left_iff.mp stands'
      obtain ⟨trim, inner, rfl⟩ := first.mark (by rw [is_else]; rfl)
      exact .inr ⟨has_else, trim, inner, qs, by rw [is_else], stands_bodies rest contents⟩

theorem part_framed (middle : AreMiddle r ps os) (framed : r.frame? = some (first, last))
    (loop : first = .forTag → inner.length = 2 ∨ inner.length = 3)
    (head : first = .macroTag → ∃ name params, inner = [.head name params])
    (h : part r text (.tag first trim inner :: (ps ++ (os ++ [.tag last trim' inner']))) = .ok p) :
    p.references = ps.flatMap Part.references ++ os.flatMap Part.references := by
  have simple (make : List Part → List Node → Option (List Node) → Result Node) (no_elif : r.hasElif = false)
      (no_else : r.hasElse = false)
      (keeps : ∀ body n, make inner body none = .ok n → n.references = referencesOf body)
      (h : paired (.tag first trim inner :: (ps ++ (os ++ [.tag last trim' inner']))) make = .ok p) :
      p.references = ps.flatMap Part.references ++ os.flatMap Part.references := by
    rw [middle.none no_else] at h ⊢
    rw [references_paired_one (middle.bodies no_elif) keeps h]
    simp
  have conditional (opens : first = .ifTag)
      (h : conditional (.tag first trim inner :: (ps ++ (os ++ [.tag last trim' inner']))) = .ok p) :
      p.references = ps.flatMap Part.references ++ os.flatMap Part.references := by
    refine references_conditional (by rw [opens]; decide) middle.regular (fun rule trim inner listed => ?_)
      (middle.otherwise.imp_right And.right) h
    rw [(middle.tags rule trim inner listed).1]
    decide
  cases r <;> cases framed
  case contentIf | blockIf | loopIf | macroIf | sectionIf => exact conditional rfl h
  case block =>
    refine simple (fun inner body _ => .ok (.block (nameOf (inner.headD default)) body)) rfl rfl (fun body n made => ?_) h
    cases made
    simp [Node.references]
  case sectionIn =>
    refine simple (fun inner body _ => .ok (.section (callOf (inner.headD default)) body)) rfl rfl (fun body n made => ?_) h
    cases made
    simp [Node.references]
  case macroDefinition =>
    obtain ⟨name, params, rfl⟩ := head rfl
    refine simple (fun inner body _ => .ok (macroNode inner body)) rfl rfl (fun body n made => ?_) h
    cases made
    simp [macroNode, Node.references]
  case loopIn =>
    have bodies := middle.bodies rfl
    rcases middle.otherwise with rfl | ⟨-, trim, inner, more, rfl, bodies'⟩
    · rw [references_paired_one bodies (fun body n made => ?_) h]
      · simp
      · rw [loopNode_references (loop rfl) made]
        simp
    · rw [references_paired_two bodies bodies' (fun body otherwise n made => ?_) h]
      · simp [Part.references]
      · exact loopNode_references (loop rfl) made

theorem tagsOf_eq (t : Parse) :
    tagsOf t = if t.rule.isReferring then [referenceOf t] else if t.rule.isGroup then tagsIn t.inner else [] := by
  cases t
  simp only [tagsOf, Tree.rule_node, Tree.inner_node]
  rfl

theorem stands_leaf (leaf : t.rule.isLeaf = true) (grown : Grown grammar t) (grown' : ∀ u ∈ t.inner, Grown grammar u)
    (h : t.fold part = .ok p) : Stands t p := by
  have no_group := Rule.isGroup_of_isLeaf leaf
  refine ⟨?_, fun content => ?_, fun mark => ?_, fun loop rule trim inner same => ?_, fun head rule trim inner same => ?_⟩
  · rw [tagsOf_eq, no_group]
    cases refers : t.rule.isReferring with
    | false =>
      obtain ⟨parts, -, h⟩ := Tree.fold_eq_ok h
      exact part_leaf leaf refers h
    | true =>
      have referring : t.rule = .includeTag ∨ t.rule = .extendsTag ∨ t.rule = .importTag := by
        generalize t.rule = r at refers
        cases r <;> first | cases refers; done | simp
      rcases referring with rule | rule | rule
      · exact fold_include rule grown grown' h
      · exact fold_extends rule grown h
      · exact fold_import rule grown h
  · rw [Rule.isGroup, content] at no_group
    cases no_group
  · obtain ⟨parts, -, h⟩ := Tree.fold_eq_ok h
    rw [part_mark mark] at h
    exact ⟨_, _, (Except.ok.inj h).symm⟩
  · obtain ⟨parts, folds, h⟩ := Tree.fold_eq_ok h
    rw [part_mark (by rw [loop]; rfl), same] at h
    cases h
    exact inside_forTag loop grown folds
  · obtain ⟨parts, folds, h⟩ := Tree.fold_eq_ok h
    rw [part_mark (by rw [head]; rfl), same] at h
    cases h
    exact inside_macroTag head grown grown' folds

theorem contentOf_references (parts : List Part) : (contentOf parts).references = parts.flatMap Part.references := by
  unfold contentOf
  rw [Part.references, List.flatMap_assoc]
  refine congrArg (parts.flatMap ·) (funext fun p => ?_)
  split
  · rfl
  · simp [Part.references, Piece.references, Piece.ofTag, Node.references]
  · next other _ => cases p <;> first | rfl | exact absurd rfl (other _)

theorem part_content (content : r.isContent = true) : part r text parts = .ok (contentOf parts) := by
  cases r <;> cases content <;> rfl

theorem wholeOf_references (parts : List Part) : (wholeOf parts).references = parts.flatMap Part.references := by
  unfold wholeOf
  rw [Part.references, List.flatMap_assoc]
  refine congrArg (parts.flatMap ·) (funext fun p => ?_)
  split
  · rfl
  · next other => cases p <;> first | rfl | exact absurd rfl (other _)

theorem framed_references (framed : r.frame? = some (first, last)) (laid : IsLaid r (ts.map Tree.rule))
    (stands : List.Forall₂ Stands ts parts) (h : part r text parts = .ok p) :
    p.references = parts.flatMap Part.references := by
  have marks : first.isMark = true ∧ last.isMark = true := by
    cases r <;> cases framed <;> exact ⟨rfl, rfl⟩
  obtain ⟨body, otherwise, rules, conditions, others⟩ := laid first last framed
  obtain ⟨opening, rest, rfl, is_first, rest_rules⟩ := List.map_eq_cons_iff.mp rules
  obtain ⟨bodies, rest', rfl, rfl, rest_rules'⟩ := List.map_eq_append_iff.mp rest_rules
  obtain ⟨more, closings, rfl, rfl, closing_rules⟩ := List.map_eq_append_iff.mp rest_rules'
  obtain ⟨closing, rfl, is_last⟩ := List.map_eq_singleton_iff.mp closing_rules
  obtain ⟨opened, _, stands_opening, behind, rfl⟩ := List.forall₂_cons_left_iff.mp stands
  obtain ⟨ps, _, rfl, stands_bodies, behind'⟩ := stands_append behind
  obtain ⟨os, _, rfl, stands_more, end'⟩ := stands_append behind'
  obtain ⟨closed, _, stands_closing, none, rfl⟩ := List.forall₂_cons_left_iff.mp end'
  rw [List.forall₂_nil_left_iff.mp none] at h ⊢
  obtain ⟨trim, inner, rfl⟩ := stands_opening.mark (by rw [is_first]; exact marks.1)
  obtain ⟨trim', inner', rfl⟩ := stands_closing.mark (by rw [is_last]; exact marks.2)
  rw [is_first, is_last] at h
  have middle := stands_middle stands_bodies stands_more conditions others
  rw [part_framed middle framed (fun loop => stands_opening.loop (is_first.trans loop) _ _ _ rfl)
    (fun head => stands_opening.head (is_first.trans head) _ _ _ rfl) h]
  simp [Part.references]

theorem stands_group (group : t.rule.isGroup = true) (laid : IsLaid t.rule (t.inner.map Tree.rule))
    (stands : ∀ u ∈ t.inner, ∀ p, u.fold part = .ok p → Stands u p) (h : t.fold part = .ok p) : Stands t p := by
  obtain ⟨parts, folds, h⟩ := Tree.fold_eq_ok h
  have stands : List.Forall₂ Stands t.inner parts := by
    clear h
    generalize t.inner = ts at folds stands
    induction folds with
    | nil => exact .nil
    | cons first rest ih =>
      obtain ⟨stand, stands⟩ := List.forall_mem_cons.mp stands
      exact .cons (stand _ first) (ih stands)
  have no_mark {r : Rule} (mark : r.isMark = true) (same : t.rule = r) : False := by
    rw [same] at group
    cases r <;> first | cases mark; done | cases group
  refine ⟨?_, fun content => ?_, fun mark => (no_mark mark rfl).elim, fun loop => (no_mark rfl loop).elim,
    fun head => (no_mark rfl head).elim⟩
  · rw [tagsOf_eq, Rule.isReferring_of_isGroup group, group, if_neg (by decide), if_pos rfl, ← stands_references stands]
    rw [Rule.isGroup, Bool.or_eq_true, Bool.or_eq_true, beq_iff_eq] at group
    rcases group with (content | framed) | whole
    · rw [part_content content] at h
      cases h
      exact contentOf_references parts
    · obtain ⟨⟨first, last⟩, framed⟩ := Option.isSome_iff_exists.mp framed
      exact framed_references framed laid stands h
    · rw [whole] at h
      cases h
      exact wholeOf_references parts
  · rw [part_content content] at h
    cases h
    exact ⟨_, rfl⟩

theorem stands_of_covers {cs ds : List Char} (h : Covers cs ts ds) (grown : ∀ t ∈ Tree.nodesOf ts, Grown grammar t) :
    ∀ t ∈ ts, ∀ p, t.fold part = .ok p → Stands t p := by
  -- on the cover: what stands for the tags of a group tells which bodies its node has
  induction h with
  | nil => exact nofun
  | append _ _ ih ih' =>
    rw [Tree.nodesOf_append] at grown
    obtain ⟨grown, grown'⟩ := List.forall_mem_append.mp grown
    exact List.forall_mem_append.mpr ⟨ih grown, ih' grown'⟩
  | leaf is_leaf reads =>
    obtain ⟨inner, -, rfl⟩ := reads_rule rfl reads
    rw [Tree.nodesOf_node] at grown
    obtain ⟨grown, grown'⟩ := List.forall_mem_cons.mp grown
    refine List.forall_mem_singleton.mpr fun p => stands_leaf is_leaf grown fun u listed => ?_
    exact grown' u (Tree.nodesOf_of_mem listed List.mem_cons_self)
  | group is_group laid _ ih =>
    rw [Tree.nodesOf_node] at grown
    obtain ⟨-, grown⟩ := List.forall_mem_cons.mp grown
    exact List.forall_mem_singleton.mpr fun p => stands_group is_group laid (ih grown)

theorem reads_of_read {tree : Parse} (h : Peg.read grammar .template text = .ok tree) :
    Reads .tight (.rule .template) text [tree] [] := by
  obtain ⟨ds, reads⟩ := derives_of_read Rule.founded (by decide) (by decide) h
  obtain ⟨inner, body, same⟩ := reads_rule rfl reads
  cases same
  obtain ⟨_, _, _, -, body', -⟩ := body.of_seq
  obtain ⟨_, _, _, -, body'', -⟩ := body'.of_seq
  obtain ⟨_, _, _, -, ending, -⟩ := body''.of_seq
  obtain ⟨_, finish, -⟩ := reads_rule rfl ending
  cases finish
  exact .rule_node (by decide) rfl body

/-- The nodes of a template refer to what the tags in the outline of its text name. -/
theorem referencesOf_nodes {ns : List Node} (h : Reading.nodes text = .ok ns) :
    ∃ tree, Peg.read grammar .template text = .ok tree ∧ referencesOf ns = tagsOf tree := by
  unfold Reading.nodes at h
  split at h
  · cases h
  · next tree read =>
    refine ⟨tree, read, ?_⟩
    have reads := reads_of_read read
    obtain ⟨covers, rules⟩ := Outlined.template (text.length + 1) text [tree] [] (by omega) reads
    obtain ⟨p, folded, h⟩ := ok_of_bind h
    have refers := (stands_of_covers covers reads.grown tree List.mem_cons_self p folded).refers
    rw [← refers]
    split at h
    · cases h
      exact referencesOf_tidy _ _ _
    · next other =>
      cases h
      cases p <;> first | rfl | exact absurd rfl (other _)

theorem nodes_of_read {name source : String} {s : Source} (h : Source.read name source = .ok s) :
    Reading.nodes source.toList = .ok s.nodes := by
  obtain ⟨ns, read, h⟩ := ok_of_bind h
  obtain ⟨blocks, -, h⟩ := ok_of_bind h
  have kept : ∀ (later : List Node) (s' : Source), later.foldlM Source.note s' = .ok s → s.nodes = s'.nodes := by
    intro later
    induction later with
    | nil =>
      rintro s' ⟨⟩
      rfl
    | cons n later ih =>
      intro s' h
      rw [List.foldlM_cons] at h
      obtain ⟨s'', noted, h⟩ := ok_of_bind h
      rw [ih s'' h]
      unfold Source.note at noted
      split at noted
      · cases noted; rfl
      · cases noted; rfl
      · split at noted
        · cases noted
        · cases noted; rfl
      · cases noted; rfl
  rw [read, kept ns _ h]

end Pageweave.Template
