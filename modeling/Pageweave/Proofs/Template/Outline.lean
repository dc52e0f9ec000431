import Pageweave.Proofs.Template.Plain
import Pageweave.Proofs.Template.Tags
/-!
# The outline of a template

A template is a row of texts, comments, raw blocks, expressions and tags, each read where the one before it ends. Tags with
a body stand in groups with it: an opening tag, contents, perhaps further branches, and a closing tag.
-/
namespace Pageweave.Template

open Peg

namespace Rule

def isContent : Rule → Bool
  | content | blockContent | loopContent | macroContent | sectionContent => true
  | _ => false

/-- What has no contents inside. -/
def isLeaf (r : Rule) : Bool := r.isTag || r == text || r == commentTag || r == raw || r == eoi

/-- The opening and the closing tag of a group. -/
def frame? : Rule → Option (Rule × Rule)
  | block => some (blockTag, endblockTag)
  | macroDefinition => some (macroTag, endmacroTag)
  | sectionIn => some (filterTag, endfilterTag)
  | loopIn => some (forTag, endforTag)
  | contentIf | blockIf | loopIf | macroIf | sectionIf => some (ifTag, endifTag)
  | _ => none

/-- May a group have further conditions? -/
def hasElif : Rule → Bool
  | contentIf | blockIf | loopIf | macroIf | sectionIf => true
  | _ => false

/-- May a group have another body at its end? -/
def hasElse (r : Rule) : Bool := r.hasElif || r == loopIn

def isGroup (r : Rule) : Bool := r.isContent || r.frame?.isSome || r == template

variable {r : Rule}

theorem isGroup_of_isLeaf (leaf : r.isLeaf = true) : r.isGroup = false := by
  cases r <;> first | rfl | cases leaf

theorem isReferring_of_isGroup (group : r.isGroup = true) : r.isReferring = false := by
  cases r <;> first | rfl | cases group

end Rule

def AreContents (rules : List Rule) : Prop := ∀ r ∈ rules, r.isContent = true

/-- The nodes in a group with opening and closing tags. -/
def IsLaid (r : Rule) (rules : List Rule) : Prop :=
  ∀ first last, r.frame? = some (first, last) → ∃ body otherwise, rules = first :: (body ++ (otherwise ++ [last])) ∧
    (∀ x ∈ body, x.isContent = true ∨ (x = .elifTag ∧ r.hasElif = true)) ∧
    (otherwise = [] ∨ (r.hasElse = true ∧ ∃ more, otherwise = .elseTag :: more ∧ AreContents more))

inductive Covers : List Char → List Parse → List Char → Prop
  | nil {cs} : Covers cs [] cs
  | append {cs ts ms us ds} : Covers cs ts ms → Covers ms us ds → Covers cs (ts ++ us) ds
  | leaf {r cs ts ds} : r.isLeaf = true → Reads .tight (.rule r) cs ts ds → Covers cs ts ds
  | group {r : Rule} {cs inner ds} : r.isGroup = true → IsLaid r (inner.map Tree.rule) → Covers cs inner ds →
      Covers cs [.node r cs (cs.length - ds.length) inner] ds

/-- What the grammar reads as a tag's names and whether they may be missing. -/
def referenceOf (t : Parse) : Reference :=
  ⟨(Plain.names t).map fun s => Reading.unquoted s.text, t.inner.any fun u => u.rule == .ignoreMissing⟩

mutual
/-- The references of the tags in the outline of a node, in the order of the text. -/
def tagsOf : Parse → List Reference
  | .node r start size inner =>
    if r.isReferring then [referenceOf (.node r start size inner)] else if r.isGroup then tagsIn inner else []

def tagsIn : List Parse → List Reference
  | [] => []
  | t :: ts => tagsOf t ++ tagsIn ts
end

theorem tagsIn_append {ts us : List Parse} : tagsIn (ts ++ us) = tagsIn ts ++ tagsIn us := by
  induction ts with
  | nil => simp only [List.nil_append, tagsIn]
  | cons t ts ih => simp only [List.cons_append, tagsIn, ih, List.append_assoc]

/-- In texts shorter than `n` a pattern reads what is covered by nodes of such rules. -/
def Outlined (n : Nat) (p : Pattern Rule) (rules : List Rule → Prop) : Prop :=
  ∀ cs ts ds, cs.length < n → Reads .tight p cs ts ds → Covers cs ts ds ∧ rules (ts.map Tree.rule)

namespace Outlined

variable {n : Nat} {p front back : Pattern Rule} {L L' : List Rule → Prop} {r : Rule}

theorem mono (h : Outlined n p L) (weaker : ∀ l, L l → L' l) : Outlined n p L' := fun cs ts ds short reads =>
  ⟨(h cs ts ds short reads).1, weaker _ (h cs ts ds short reads).2⟩

theorem leaf (n : Nat) (h : r.isLeaf = true) : Outlined n (.rule r) (· = [r]) := by
  intro cs ts ds _ reads
  obtain ⟨inner, -, rfl⟩ := reads_rule rfl reads
  exact ⟨.leaf h reads, rfl⟩

theorem seq (first : Outlined n front L) (second : Outlined n back L') :
    Outlined n (.seq front back) fun l => ∃ l₁ l₂, l = l₁ ++ l₂ ∧ L l₁ ∧ L' l₂ := by
  intro cs ts ds short reads
  obtain ⟨us, ms, vs, reads₁, reads₂, rfl⟩ := reads.of_seq
  rw [skips_tight] at reads₂
  have le := reads₁.suffix.length_le
  obtain ⟨covers, rules⟩ := first cs us ms short reads₁
  obtain ⟨covers', rules'⟩ := second ms vs ds (by omega) reads₂
  exact ⟨covers.append covers', _, _, List.map_append, rules, rules'⟩

theorem behind (h : r.isLeaf = true) (some_char : r.mayBeEmpty = false) (rest : Outlined n back L) :
    Outlined (n + 1) (.seq (.rule r) back) fun l => ∃ l', l = r :: l' ∧ L l' := by
  intro cs ts ds short reads
  obtain ⟨us, ms, vs, reads₁, reads₂, rfl⟩ := reads.of_seq
  rw [skips_tight] at reads₂
  have less := reads₁.length_lt Rule.founded.covers some_char
  obtain ⟨covers, rules⟩ := leaf _ h cs us ms short reads₁
  obtain ⟨covers', rules'⟩ := rest ms vs ds (by omega) reads₂
  exact ⟨covers.append covers', _, by rw [List.map_append, rules]; rfl, rules'⟩

theorem alt (one : Outlined n front L) (other : Outlined n back L) : Outlined n (.alt front back) L := by
  intro cs ts ds short reads
  rcases reads.of_alt with reads | ⟨-, reads⟩
  · exact one cs ts ds short reads
  · exact other cs ts ds short reads

theorem opt (h : Outlined n p L) : Outlined n (.opt p) fun l => l = [] ∨ L l := by
  intro cs ts ds short reads
  rcases reads.of_opt with reads | ⟨-, rfl, rfl⟩
  · exact ⟨(h cs ts ds short reads).1, .inr (h cs ts ds short reads).2⟩
  · exact ⟨.nil, .inl rfl⟩

theorem star {P : Rule → Prop} (h : Outlined n p fun l => ∀ r ∈ l, P r) : Outlined n (.star p) fun l => ∀ r ∈ l, P r := by
  intro cs ts ds short reads
  refine Derives.of_star_tight (Q := fun cs ts ds => cs.length < n → Covers cs ts ds ∧ ∀ r ∈ ts.map Tree.rule, P r)
    (by decide) (fun _ _ _ => ⟨.nil, nofun⟩) (fun cs us ms vs ds reads rest short => ?_) reads short
  have le := reads.suffix.length_le
  obtain ⟨covers, rules⟩ := h cs us ms short reads
  obtain ⟨covers', rules'⟩ := rest (by omega)
  refine ⟨covers.append covers', ?_⟩
  rw [List.map_append]
  exact List.forall_mem_append.mpr ⟨rules, rules'⟩

theorem group (is_group : r.isGroup = true) (tight : r.kind = .tight) (h : Outlined n r.body (IsLaid r)) :
    Outlined n (.rule r) (· = [r]) := by
  intro cs ts ds short reads
  obtain ⟨inner, body, rfl⟩ := reads_rule rfl reads
  rw [show (Kind.inside r.kind .tight) = Setting.tight by rw [tight]; rfl] at body
  obtain ⟨covers, laid⟩ := h cs inner ds short body
  exact ⟨.group is_group laid covers, rfl⟩

section Groups

variable {first last y : Rule} (contents : ∀ y : Rule, y.isContent = true → Outlined n (.rule y) (· = [y]))

include contents

theorem contents_star (content : y.isContent = true) : Outlined n (.star (.rule y)) AreContents :=
  star ((contents y content).mono fun _ only x listed => by
    rw [only, List.mem_singleton] at listed
    rw [listed, content])

theorem branch {t : Rule} (tag : t.isLeaf = true) (content : y.isContent = true) :
    Outlined n (.seq (.rule t) (.star (.rule y))) fun l => ∃ more, l = t :: more ∧ AreContents more :=
  ((leaf n tag).seq (contents_star contents content)).mono fun _ ⟨_, more, same, only, are_contents⟩ =>
    ⟨more, by rw [same, only]; rfl, are_contents⟩

theorem simple_group (frame : r.frame? = some (first, last)) (tight : r.kind = .tight) (content : y.isContent = true)
    (opens : first.isLeaf = true ∧ first.mayBeEmpty = false) (closes : last.isLeaf = true)
    (body : r.body = .seq (.rule first) (.seq (.star (.rule y)) (.rule last))) :
    Outlined (n + 1) (.rule r) (· = [r]) := by
  refine group (by simp [Rule.isGroup, frame]) tight ?_
  rw [body]
  refine (behind opens.1 opens.2 ((contents_star contents content).seq (leaf n closes))).mono ?_
  rintro _ ⟨_, rfl, body, _, rfl, are_contents, rfl⟩ f l frame'
  rw [frame] at frame'
  cases frame'
  exact ⟨body, [], rfl, fun x listed => .inl (are_contents x listed), .inl rfl⟩

theorem loop_group : Outlined (n + 1) (.rule .loopIn) (· = [.loopIn]) := by
  have behind_opening := (contents_star contents (y := .loopContent) rfl).seq
    ((opt (branch contents (t := .elseTag) (y := .loopContent) rfl rfl)).seq (leaf n (r := .endforTag) rfl))
  refine group rfl rfl ((behind (r := .forTag) rfl rfl behind_opening).mono ?_)
  rintro _ ⟨_, rfl, body, _, rfl, are_contents, otherwise, _, rfl, more, rfl⟩ f l frame
  cases frame
  refine ⟨body, otherwise, rfl, fun x listed => .inl (are_contents x listed), ?_⟩
  rcases more with none | some
  · exact .inl none
  · exact .inr ⟨rfl, some⟩

theorem conditional_group (frame : r.frame? = some (.ifTag, .endifTag)) (elif : r.hasElif = true) (tight : r.kind = .tight)
    (content : y.isContent = true) (body : r.body = Rule.conditional y) : Outlined (n + 1) (.rule r) (· = [r]) := by
  have elifs : Outlined n (.star (.seq (.rule .elifTag) (.star (.rule y)))) fun l =>
      ∀ x ∈ l, x.isContent = true ∨ x = .elifTag := by
    refine star ((branch contents rfl content).mono ?_)
    rintro _ ⟨more, rfl, are_contents⟩ x listed
    rcases List.mem_cons.mp listed with rfl | listed
    · exact .inr rfl
    · exact .inl (are_contents x listed)
  refine group (by simp [Rule.isGroup, frame]) tight ?_
  rw [body]
  refine (behind rfl rfl ((contents_star contents content).seq
    (elifs.seq ((opt (branch contents rfl content)).seq (leaf n rfl))))).mono ?_
  rintro _ ⟨_, rfl, front, _, rfl, are_contents, conditions, _, rfl, either, otherwise, _, rfl, more, rfl⟩ f l frame'
  rw [frame] at frame'
  cases frame'
  refine ⟨front ++ conditions, otherwise, by simp, fun x listed => ?_, ?_⟩
  · rcases List.mem_append.mp listed with listed | listed
    · exact .inl (are_contents x listed)
    · exact (either x listed).imp_right fun same => ⟨same, elif⟩
  · rcases more with none | some
    · exact .inl none
    · exact .inr ⟨by simp [Rule.hasElse, elif], some⟩

theorem frame (framed : r.frame?.isSome = true) : Outlined (n + 1) (.rule r) (· = [r]) := by
  cases r <;> cases framed
  case block => exact simple_group contents rfl rfl rfl ⟨rfl, rfl⟩ rfl rfl
  case macroDefinition => exact simple_group contents rfl rfl rfl ⟨rfl, rfl⟩ rfl rfl
  case sectionIn => exact simple_group contents rfl rfl rfl ⟨rfl, rfl⟩ rfl rfl
  case loopIn => exact loop_group contents
  case contentIf => exact conditional_group contents rfl rfl rfl (y := .content) rfl rfl
  case blockIf => exact conditional_group contents rfl rfl rfl (y := .blockContent) rfl rfl
  case loopIf => exact conditional_group contents rfl rfl rfl (y := .loopContent) rfl rfl
  case macroIf => exact conditional_group contents rfl rfl rfl (y := .macroContent) rfl rfl
  case sectionIf => exact conditional_group contents rfl rfl rfl (y := .sectionContent) rfl rfl

end Groups

theorem oneOf {rules : List Rule} (each : ∀ x ∈ rules, Outlined n (.rule x) fun _ => True) (some_rule : rules ≠ []) :
    Outlined n (Pattern.oneOf (rules.map .rule)) fun _ => True := by
  induction rules with
  | nil => exact absurd rfl some_rule
  | cons x rules ih =>
    cases rules with
    | nil => exact each x List.mem_cons_self
    | cons y rules =>
      exact (each x List.mem_cons_self).alt (ih (fun z listed => each z (List.mem_cons_of_mem x listed)) (by simp))

/-- What contents consist of. -/
def members : Rule → List Rule
  | .content =>
    [.includeTag, .commentTag, .setTag, .setGlobalTag, .raw, .variableTag, .block, .loopIn, .contentIf, .sectionIn, .text]
  | .blockContent =>
    [.includeTag, .commentTag, .setTag, .setGlobalTag, .raw, .superTag, .variableTag, .block, .loopIn, .blockIf,
      .sectionIn, .text]
  | .loopContent =>
    [.includeTag, .commentTag, .setTag, .setGlobalTag, .raw, .variableTag, .loopIn, .loopIf, .breakTag, .continueTag,
      .sectionIn, .text]
  | .macroContent =>
    [.includeTag, .commentTag, .setTag, .setGlobalTag, .raw, .variableTag, .loopIn, .macroIf, .sectionIn, .text]
  | .sectionContent =>
    [.includeTag, .commentTag, .setTag, .setGlobalTag, .raw, .superTag, .variableTag, .block, .loopIn, .sectionIf,
      .sectionIn, .text]
  | _ => []

theorem content (n : Nat) (is_content : r.isContent = true) : Outlined n (.rule r) (· = [r]) := by
  -- the contents of a group stand behind its opening tag, in a shorter text
  induction n generalizing r with
  | zero => intro cs ts ds short; omega
  | succ n ih =>
    have body : r.body = Pattern.oneOf ((members r).map .rule) := by cases r <;> cases is_content <;> rfl
    have some_rule : members r ≠ [] := by cases r <;> cases is_content <;> exact List.cons_ne_nil _ _
    have kinds : ∀ x ∈ members r, x.isLeaf = true ∨ x.frame?.isSome = true := by
      cases r <;> cases is_content <;> decide
    have tight : r.kind = .tight := by cases r <;> cases is_content <;> rfl
    have no_frame : r.frame? = none := by cases r <;> cases is_content <;> rfl
    refine group (by simp [Rule.isGroup, is_content]) tight ?_
    rw [body]
    refine (oneOf (fun x listed => ?_) some_rule).mono fun _ _ first last framed => by rw [no_frame] at framed; cases framed
    rcases kinds x listed with is_leaf | framed
    · exact (leaf _ is_leaf).mono fun _ _ => trivial
    · exact (frame (fun y => ih) framed).mono fun _ _ => trivial

/-- A whole template is covered from its first character to its end. -/
theorem template (n : Nat) : Outlined n (.rule .template) (· = [.template]) := by
  have one {r : Rule} (h : Outlined n (.rule r) (· = [r])) : Outlined n (.rule r) fun l => ∀ x ∈ l, True :=
    h.mono fun _ _ _ _ => trivial
  have leaf {r : Rule} (h : r.isLeaf = true) : Outlined n (.rule r) fun l => ∀ x ∈ l, True := one (leaf n h)
  have join {a b : Pattern Rule} (h : Outlined n a fun l => ∀ x ∈ l, True) (h' : Outlined n b fun l => ∀ x ∈ l, True) :
      Outlined n (.seq a b) fun l => ∀ x ∈ l, True := (h.seq h').mono fun _ _ _ _ => trivial
  have perhaps {a : Pattern Rule} (h : Outlined n a fun l => ∀ x ∈ l, True) : Outlined n (.opt a) fun l => ∀ x ∈ l, True :=
    (opt h).mono fun _ _ _ _ => trivial
  have imports := star (leaf (r := .importTag) rfl)
  have macros : Outlined n (.rule .macroDefinition) (· = [.macroDefinition]) := by
    cases n with
    | zero => intro cs ts ds short; omega
    | succ n => exact frame (fun y => content n) rfl
  refine group rfl rfl ((join (star (leaf (r := .commentTag) rfl)) (join (perhaps ((join (leaf (r := .extendsTag) rfl)
    imports).alt (join (join (leaf (r := .importTag) rfl) imports) (perhaps (leaf (r := .extendsTag) rfl)))))
    (join (star ((one (content n (r := .content) rfl)).alt (one macros))) (leaf (r := .eoi) rfl)))).mono ?_)
  intro _ _ first last framed
  cases framed

end Outlined

end Pageweave.Template
