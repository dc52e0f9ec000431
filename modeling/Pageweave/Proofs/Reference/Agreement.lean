import Pageweave.Proofs.Reference.Sighting
import Pageweave.Proofs.Template.Folding
/-!
# What the scan reports

The scan of a plain template reports what the nodes of the read template refer to: nothing else, nothing less, and in the
same order.
-/
namespace Pageweave.Template

open Peg Reference

variable {cs ds : List Char} {ts : List Parse} {r : Rule}

/-- A leaf shows the scan its own reference, if it has one. -/
theorem found_leaf (leaf : r.isLeaf = true) (h : Reads .tight (.rule r) cs ts ds) (plain : ArePlain ts) :
    found cs = tagsIn ts ++ found ds := by
  obtain ⟨inner, -, rfl⟩ := reads_rule rfl h
  have tags : tagsIn [.node r cs (cs.length - ds.length) inner] =
      if r.isReferring then [referenceOf (.node r cs (cs.length - ds.length) inner)] else [] := by
    simp [tagsIn, tagsOf_eq, Rule.isGroup_of_isLeaf leaf]
  rw [tags]
  cases word : wordOf r with
  | some word =>
    have other : r.isReferring = false := by cases r <;> first | rfl | cases word
    rw [other]
    exact found_other_tag word h plain
  | none =>
    cases r <;> first | cases leaf; done | cases word; done | skip
    case includeTag => exact found_include h plain
    case extendsTag => exact found_extends h plain
    case importTag => exact found_import h plain
    case variableTag => exact found_expression (.inl rfl) h plain
    case superTag => exact found_expression (.inr rfl) h plain
    case commentTag => exact found_comment h
    case raw => exact found_raw h plain
    case text => exact found_text h
    case eoi =>
      obtain ⟨_, finish, -⟩ := reads_rule rfl h
      cases finish
      rfl

theorem found_of_covers (h : Covers cs ts ds) (plain : ArePlain ts) : found cs = tagsIn ts ++ found ds := by
  -- each leaf ends where the scan goes on, so groups add nothing of their own
  induction h with
  | nil => simp only [tagsIn, List.nil_append]
  | append _ _ ih ih' =>
    obtain ⟨plain, plain'⟩ := arePlain_append.mp plain
    rw [ih plain, ih' plain', tagsIn_append, List.append_assoc]
  | leaf is_leaf reads => exact found_leaf is_leaf reads plain
  | @group r cs inner ds is_group _ _ ih =>
    rw [ih (arePlain_node.mp plain).2]
    simp [tagsIn, tagsOf_eq, is_group, Rule.isReferring_of_isGroup is_group]

mutual

theorem named_of_plain {t : Parse} {ref : Reference} (plain : ∀ u ∈ t.nodes, IsPlain u) (listed : ref ∈ tagsOf t) :
    ref.names ≠ [] := by
  obtain ⟨r, start, size, inner⟩ := t
  rw [Tree.nodes] at plain
  obtain ⟨here, inside⟩ := List.forall_mem_cons.mp plain
  rw [tagsOf] at listed
  split at listed
  · next referring =>
    rw [List.mem_singleton.mp listed]
    intro none
    exact here.named referring (List.map_eq_nil_iff.mp none)
  · split at listed
    · exact all_named_of_plain inside listed
    · cases listed

theorem all_named_of_plain {ts : List Parse} {ref : Reference} (plain : ArePlain ts) (listed : ref ∈ tagsIn ts) :
    ref.names ≠ [] := by
  cases ts with
  | nil => cases listed
  | cons t ts =>
    rw [tagsIn] at listed
    have plain := List.forall_mem_append.mp plain
    rcases List.mem_append.mp listed with listed | listed
    · exact named_of_plain plain.1 listed
    · exact all_named_of_plain plain.2 listed

end

/-- The scan of a plain template reports what the nodes of the read template refer to, in the order of the text. -/
theorem scan_eq_references {name source : String} {s : Source} (read : Source.read name source = .ok s)
    (plain : IsPlainSource source) : Reference.scan source = Node.referencesOf s.nodes := by
  obtain ⟨tree, parsed, refers⟩ := referencesOf_nodes (nodes_of_read read)
  have plain := plain tree parsed
  have are_plain : ArePlain [tree] := by
    intro u listed
    rw [Tree.nodesOf, Tree.nodesOf, List.append_nil] at listed
    exact plain u listed
  have covers := (Outlined.template _ _ _ _ (Nat.lt_succ_self _) (reads_of_read parsed)).1
  have seen := found_of_covers covers are_plain
  rw [tagsIn, tagsIn, List.append_nil, show found [] = [] from rfl, List.append_nil] at seen
  change (found source.toList).filter (fun r => !r.names.isEmpty) = _
  rw [seen, refers, List.filter_eq_self]
  intro ref listed
  simpa using named_of_plain plain listed

private theorem read_of_references (name source : String) (refs : List Reference)
    (h : ((Source.read name source).toOption.map fun s => Node.referencesOf s.nodes) = some refs) :
    ∃ s, Source.read name source = .ok s ∧ Node.referencesOf s.nodes = refs := by
  obtain ⟨s, read, refers⟩ := Option.map_eq_some_iff.mp h
  refine ⟨s, ?_, refers⟩
  cases known : Source.read name source with
  | error fault => rw [known] at read; cases read
  | ok s' => rw [known] at read; cases read; rfl

/-- All three tags, and two that stand in a comment and in a raw block. -/
def article : String :=
  "\x7b% extends \"base\" %\x7d\x7b% import 'f' as f %\x7d\x7b# \x7b% include \"old\" %\x7d #\x7d\x7b% block b %\x7d" ++
    "\x7b% raw %\x7d\x7b% include \"raw\" %\x7d\x7b% endraw %\x7d" ++
    "\x7b% for x in xs %\x7d\x7b%- include [\"a\", 'b'] ignore missing -%\x7d\x7b% endfor %\x7d\x7b\x7b x \x7d\x7d" ++
    "\x7b% endblock %\x7d"

theorem article_scan_eq_references : ∃ s, Source.read "article" article = .ok s ∧ IsPlainSource article ∧
    Reference.scan article = Node.referencesOf s.nodes ∧
    Node.referencesOf s.nodes = [⟨["base"], false⟩, ⟨["f"], false⟩, ⟨["a", "b"], true⟩] := by
  obtain ⟨s, read, refers⟩ := read_of_references "article" article
    [⟨["base"], false⟩, ⟨["f"], false⟩, ⟨["a", "b"], true⟩] (by decide +kernel)
  have plain : IsPlainSource article := by decide +kernel
  exact ⟨s, read, plain, scan_eq_references read plain, refers⟩

/-- A name in backquotes. -/
def backquoted : String := "\x7b% include `x` %\x7d"

/-- A tag in a string. -/
def cited : String := "\x7b\x7b \"\x7b% include 'x' %\x7d\" \x7d\x7d"

/-- What a tag names in backquotes is not seen, and a tag in a string is: neither source is plain. -/
theorem unplain_scan_ne_references :
    (∃ s, Source.read "page" backquoted = .ok s ∧ Node.referencesOf s.nodes = [⟨["x"], false⟩] ∧
      Reference.scan backquoted = []) ∧
    (∃ s, Source.read "page" cited = .ok s ∧ Node.referencesOf s.nodes = [] ∧
      Reference.scan cited = [⟨["x"], false⟩]) := by
  obtain ⟨s, read, refers⟩ := read_of_references "page" backquoted [⟨["x"], false⟩] (by decide +kernel)
  obtain ⟨s', read', refers'⟩ := read_of_references "page" cited [] (by decide +kernel)
  exact ⟨⟨s, read, refers, by decide +kernel⟩, s', read', refers', by decide +kernel⟩

end Pageweave.Template
