import Pageweave.Proofs.Template.Library
/-!
# Where reading a template stops

A text that does not match the grammar is faulted at the line of the furthest place that was reached. A text that matches
can only be faulted for a number, a block or a macro, and such a fault has no line.
-/
namespace Pageweave

namespace Template

theorem error_of_bind {ε α β : Type} {x : Except ε α} {next : α → Except ε β} {fault : ε}
    (h : x >>= next = .error fault) : x = .error fault ∨ ∃ a, x = .ok a ∧ next a = .error fault := by
  cases x with
  | error other =>
    cases h
    exact .inl rfl
  | ok a => exact .inr ⟨a, rfl, h⟩

theorem error_of_mapM {α β ε : Type} {f : α → Except ε β} {xs : List α} {fault : ε} (h : xs.mapM f = .error fault) :
    ∃ x ∈ xs, f x = .error fault := by
  induction xs with
  | nil => cases h
  | cons x xs ih =>
    rw [List.mapM_cons] at h
    rcases error_of_bind h with first | ⟨y, -, h⟩
    · exact ⟨x, List.mem_cons_self, first⟩
    · rcases error_of_bind h with later | ⟨ys, -, h⟩
      · obtain ⟨x', listed, fails⟩ := ih later
        exact ⟨x', List.mem_cons_of_mem x listed, fails⟩
      · cases h

theorem error_of_forM {α ε : Type} {f : α → Except ε Unit} {xs : List α} {fault : ε} (h : xs.forM f = .error fault) :
    ∃ x ∈ xs, f x = .error fault := by
  induction xs with
  | nil => cases h
  | cons x xs ih =>
    rcases error_of_bind h with first | ⟨-, -, later⟩
    · exact ⟨x, List.mem_cons_self, first⟩
    · obtain ⟨x', listed, fails⟩ := ih later
      exact ⟨x', List.mem_cons_of_mem x listed, fails⟩

end Template

namespace Peg.Tree

open Template (error_of_bind)

variable {R α ε : Type} {f : R → List Char → List α → Except ε α} {P : ε → Prop}

mutual
theorem fold_error (each : ∀ r text parts fault, f r text parts = .error fault → P fault) :
    ∀ (t : Tree R) (fault : ε), fold f t = .error fault → P fault
  | .node r start size inner, fault, h => by
    rw [fold] at h
    rcases error_of_bind h with inside | ⟨parts, -, own⟩
    · exact foldAll_error each inner fault inside
    · exact each r _ parts fault own

theorem foldAll_error (each : ∀ r text parts fault, f r text parts = .error fault → P fault) :
    ∀ (ts : List (Tree R)) (fault : ε), foldAll f ts = .error fault → P fault
  | [], fault, h => by
    rw [foldAll] at h
    cases h
  | t :: ts, fault, h => by
    rw [foldAll] at h
    rcases error_of_bind h with first | ⟨a, -, h⟩
    · exact fold_error each t fault first
    · rcases error_of_bind h with later | ⟨rest, -, h⟩
      · exact foldAll_error each ts fault later
      · cases h
end

end Peg.Tree

namespace Template

namespace Reading

variable {α β : Type} {r : Result α}

/-- If this fails then for a number that is out of bounds. -/
def OnlyOverflows (r : Result α) : Prop := ∀ fault, r = .error fault → ∃ digits, fault = .integerOutOfBounds digits

theorem OnlyOverflows.ok (a : α) : OnlyOverflows (.ok a) := nofun

theorem OnlyOverflows.bind {next : α → Result β} (h : OnlyOverflows r) (then_ : ∀ a, OnlyOverflows (next a)) :
    OnlyOverflows (r >>= next) := by
  intro fault fails
  rcases error_of_bind fails with first | ⟨a, -, later⟩
  · exact h fault first
  · exact then_ a fault later

theorem OnlyOverflows.map (h : OnlyOverflows r) (f : α → β) : OnlyOverflows (r >>= fun a => .ok (f a)) :=
  h.bind fun a => .ok (f a)

theorem OnlyOverflows.mapM {f : α → Result β} (each : ∀ a, OnlyOverflows (f a)) (xs : List α) :
    OnlyOverflows (xs.mapM f) := by
  intro fault fails
  obtain ⟨x, -, fails⟩ := error_of_mapM fails
  exact each x fault fails

theorem onlyOverflows_intValue (text : List Char) : OnlyOverflows (intValue text) := by
  obtain ⟨n, same⟩ : ∃ n, intValue text =
      if Number.signedMin ≤ n && n ≤ Number.signedMax then .ok n else .error (.integerOutOfBounds (String.ofList text)) :=
    ⟨_, rfl⟩
  intro fault fails
  rw [same] at fails
  split at fails
  · cases fails
  · exact ⟨_, (Except.error.inj fails).symm⟩

theorem onlyOverflows_exprOf (p : Part) : OnlyOverflows (exprOf p) := by
  unfold exprOf
  split
  case h_3 text => exact (onlyOverflows_intValue text).map _
  all_goals exact .ok _

theorem onlyOverflows_pairs {Op : Type} (op? : Part → Option Op) (parts : List Part) :
    OnlyOverflows (chain.pairs op? parts) := by
  induction parts using chain.pairs.induct with
  | case1 o p ps ih =>
    rw [chain.pairs]
    apply (onlyOverflows_exprOf p).bind
    intro e
    apply ih.bind
    intro rest
    cases op? o <;> exact .ok _
  | case2 parts other =>
    rw [chain.pairs]
    · exact .ok _
    · exact other

theorem onlyOverflows_chain {Op : Type} (op? : Part → Option Op) (parts : List Part) :
    OnlyOverflows (chain op? parts) := by
  cases parts with
  | nil => exact .ok _
  | cons p ps =>
    apply (onlyOverflows_exprOf p).bind
    intro first
    exact (onlyOverflows_pairs op? ps).map _

theorem onlyOverflows_math (parts : List Part) : OnlyOverflows (math parts) := (onlyOverflows_chain mathOp? parts).map _

theorem onlyOverflows_logic (parts : List Part) : OnlyOverflows (logic parts) :=
  (onlyOverflows_chain logicOp? parts).map _

theorem onlyOverflows_filtered (parts : List Part) : OnlyOverflows (filtered parts) := by
  cases parts with
  | nil => exact .ok _
  | cons p ps => exact (onlyOverflows_exprOf p).map _

theorem onlyOverflows_membership (parts : List Part) : OnlyOverflows (membership parts) := by
  unfold membership
  simp only
  split
  · rename_i item container _
    apply (onlyOverflows_exprOf item).bind
    intro e
    exact (onlyOverflows_exprOf container).map _
  · exact .ok _

theorem onlyOverflows_logicValue (parts : List Part) : OnlyOverflows (logicValue parts) := by
  unfold logicValue
  simp only
  split
  · exact (onlyOverflows_exprOf _).map _
  · exact .ok _

theorem onlyOverflows_param (parts : List Part) : OnlyOverflows (param parts) := by
  unfold param
  split
  · exact .ok _
  · exact (onlyOverflows_exprOf _).map _
  · exact .ok _

theorem onlyOverflows_setNode (everywhere : Bool) (parts : List Part) : OnlyOverflows (setNode everywhere parts) := by
  unfold setNode
  split
  · exact (onlyOverflows_exprOf _).map _
  · exact .ok _

theorem onlyOverflows_branches (gs : List Group) : OnlyOverflows (branches gs) := by
  induction gs using branches.induct with
  | case1 g next rest is_else =>
    rw [branches, if_pos is_else]
    exact .ok _
  | case2 g next rest not_else ih =>
    rw [branches, if_neg not_else]
    apply (onlyOverflows_exprOf _).bind
    intro e
    exact ih.map _
  | case3 gs other =>
    rw [branches]
    · exact .ok _
    · exact other

theorem onlyOverflows_conditional (parts : List Part) : OnlyOverflows (conditional parts) :=
  (onlyOverflows_branches (groups parts)).map _

theorem onlyOverflows_paired {make : List Part → List Node → Option (List Node) → Result Node}
    (makes : ∀ inner body otherwise, OnlyOverflows (make inner body otherwise)) (parts : List Part) :
    OnlyOverflows (paired parts make) :=
  (makes _ _ _).map _

theorem onlyOverflows_loopNode (inner : List Part) (body : List Node) (otherwise : Option (List Node)) :
    OnlyOverflows (loopNode inner body otherwise) := by
  unfold loopNode
  split
  · exact (onlyOverflows_exprOf _).map _
  · exact (onlyOverflows_exprOf _).map _
  · exact .ok _

/-- A node of the grammar can only be faulted for a number. -/
theorem onlyOverflows_part (rule : Rule) (text : List Char) (parts : List Part) :
    OnlyOverflows (part rule text parts) := by
  cases rule
  case kwarg =>
    unfold part
    simp only
    split
    · exact (onlyOverflows_exprOf _).map _
    · exact .ok _
  case macroCall =>
    unfold part
    simp only
    split <;> exact .ok _
  case importTag =>
    unfold part
    simp only
    split <;> exact .ok _
  case testArg => exact (onlyOverflows_exprOf _).map _
  case variableTag => exact (onlyOverflows_exprOf _).map _
  case testArgs => exact (OnlyOverflows.mapM onlyOverflows_exprOf parts).map _
  case array => exact (OnlyOverflows.mapM onlyOverflows_exprOf parts).map _
  case param => exact onlyOverflows_param parts
  case basic => exact onlyOverflows_math parts
  case comparisonValue => exact onlyOverflows_math parts
  case basicFilter => exact onlyOverflows_filtered parts
  case stringFilter => exact onlyOverflows_filtered parts
  case arrayFilter => exact onlyOverflows_filtered parts
  case comparison => exact onlyOverflows_logic parts
  case logic => exact onlyOverflows_logic parts
  case membership => exact onlyOverflows_membership parts
  case logicValue => exact onlyOverflows_logicValue parts
  case setTag => exact (onlyOverflows_setNode false _).map _
  case setGlobalTag => exact (onlyOverflows_setNode true _).map _
  case loopIn => exact onlyOverflows_paired onlyOverflows_loopNode parts
  case sectionIn => exact onlyOverflows_paired (fun _ _ _ => .ok _) parts
  case block => exact onlyOverflows_paired (fun _ _ _ => .ok _) parts
  case macroDefinition => exact onlyOverflows_paired (fun _ _ _ => .ok _) parts
  case contentIf => exact onlyOverflows_conditional parts
  case blockIf => exact onlyOverflows_conditional parts
  case loopIf => exact onlyOverflows_conditional parts
  case macroIf => exact onlyOverflows_conditional parts
  case sectionIf => exact onlyOverflows_conditional parts
  all_goals exact .ok _

/-- The fault of a text is where it stops matching the grammar, or a number in it. -/
theorem nodes_error {text : List Char} {fault : SourceFault} (fails : nodes text = .error fault) :
    (∃ furthest, Peg.read grammar .template text = .error furthest ∧
      fault = .malformed (place text furthest).1 (place text furthest).2) ∨
      ∃ digits, fault = .integerOutOfBounds digits := by
  unfold nodes at fails
  cases read : Peg.read grammar .template text with
  | error furthest =>
    rw [read] at fails
    exact .inl ⟨furthest, rfl, (Except.error.inj fails).symm⟩
  | ok tree =>
    rw [read] at fails
    right
    rcases error_of_bind fails with folding | ⟨p, -, whole⟩
    · exact Peg.Tree.fold_error (fun r text parts => onlyOverflows_part r text parts) tree fault folding
    · cases p <;> cases whole

end Reading

mutual
theorem blocksOf_error : ∀ (ns : List Node) (found : List Block) (fault : SourceFault),
    blocksOf found ns = .error fault → ∃ name, fault = .blockTwice name
  | [], found, fault, h => by
    rw [blocksOf] at h
    cases h
  | n :: ns, found, fault, h => by
    rw [blocksOf] at h
    rcases error_of_bind h with first | ⟨found', -, rest⟩
    · exact blocksOfNode_error n found fault first
    · exact blocksOf_error ns found' fault rest

theorem blocksOfNode_error : ∀ (n : Node) (found : List Block) (fault : SourceFault),
    blocksOfNode found n = .error fault → ∃ name, fault = .blockTwice name
  | .block name body, found, fault, h => by
    rw [blocksOfNode] at h
    split at h
    · exact ⟨name, (Except.error.inj h).symm⟩
    · exact blocksOf_error body _ fault h
  | .text _, _, _, h | .raw _, _, _, h | .output _, _, _, h | .super, _, _, h | .includes _ _, _, _, h
  | .extending _, _, _, h | .importing _ _, _, _, h | .set _ _ _, _, _, h | .macroDefinition _ _ _, _, _, h
  | .section _ _, _, _, h | .loop _ _ _ _ _, _, _, h | .cond _ _, _, _, h | .breakLoop, _, _, h
  | .continueLoop, _, _, h | .comment, _, _, h => by
    rw [blocksOfNode] at h
    · cases h
    · exact nofun
end

namespace Source

theorem note_error {s : Source} {n : Node} {fault : SourceFault} (fails : s.note n = .error fault) :
    ∃ name, fault = .macroTwice name := by
  unfold note at fails
  split at fails
  · cases fails
  · cases fails
  · split at fails
    · exact ⟨_, (Except.error.inj fails).symm⟩
    · cases fails
  · cases fails

theorem foldlM_note_error {s : Source} {ns : List Node} {fault : SourceFault}
    (fails : ns.foldlM note s = .error fault) : ∃ name, fault = .macroTwice name := by
  induction ns generalizing s with
  | nil => cases fails
  | cons n ns ih =>
    rw [List.foldlM_cons] at fails
    rcases error_of_bind fails with first | ⟨t, -, rest⟩
    · exact note_error first
    · exact ih rest

/-- A text has a line at fault just if it does not match the grammar. -/
theorem read_eq_malformed_iff {name text : String} {line column : Nat} :
    read name text = .error (.malformed line column) ↔
      ∃ furthest, Peg.read grammar .template text.toList = .error furthest ∧
        Reading.place text.toList furthest = (line, column) := by
  constructor
  · intro fails
    rcases error_of_bind fails with reading | ⟨nodes, -, fails⟩
    · rcases Reading.nodes_error reading with ⟨furthest, stops, same⟩ | ⟨digits, same⟩
      · obtain ⟨rfl, rfl⟩ := SourceFault.malformed.inj same
        exact ⟨furthest, stops, rfl⟩
      · cases same
    · rcases error_of_bind fails with inside | ⟨blocks, -, fails⟩
      · obtain ⟨twice, same⟩ := blocksOf_error nodes [] _ inside
        cases same
      · obtain ⟨twice, same⟩ := foldlM_note_error fails
        cases same
  · rintro ⟨furthest, stops, place⟩
    have reading : Reading.nodes text.toList = .error (.malformed line column) := by
      simp only [Reading.nodes, stops, place]
    unfold read
    rw [reading]
    rfl

end Source

/-- Reading a text as a template stops at this line. -/
def StopsAt (text : String) (line : Nat) : Prop :=
  ∃ furthest, Peg.read grammar .template text.toList = .error furthest ∧ (Reading.place text.toList furthest).1 = line

instance (text : String) (line : Nat) : Decidable (StopsAt text line) :=
  match stopped : Peg.read grammar .template text.toList with
  | .error furthest => decidable_of_iff ((Reading.place text.toList furthest).1 = line) (by simp [StopsAt, stopped])
  | .ok _ => isFalse (by simp [StopsAt, stopped])

theorem stopsAt_iff (name : String) {text : String} {line : Nat} :
    StopsAt text line ↔ ∃ column, Source.read name text = .error (.malformed line column) := by
  simp only [Source.read_eq_malformed_iff]
  constructor
  · rintro ⟨furthest, stops, rfl⟩
    exact ⟨_, furthest, stops, rfl⟩
  · rintro ⟨column, furthest, stops, place⟩
    exact ⟨furthest, stops, by rw [place]⟩

theorem StopsAt.bounds {text : String} {line : Nat} (stops : StopsAt text line) :
    0 < line ∧ line ≤ text.toList.count '\n' + 1 := by
  obtain ⟨furthest, -, rfl⟩ := stops
  have inside : (text.toList.take furthest).count '\n' ≤ text.toList.count '\n' :=
    (List.take_sublist furthest text.toList).count_le '\n'
  simp only [Reading.place]
  omega

namespace Library

variable {sources : List Source} {texts : List (String × String)} {fault : LibraryFault} {name : String}
  {why : SourceFault}

theorem error_of_readAll (fails : readAll sources texts = .error fault) :
    ∃ front name text back why, texts = front ++ (name, text) :: back ∧
      (∀ e ∈ front, ∃ s, Source.read e.1 e.2 = .ok s) ∧ Source.read name text = .error why ∧
      fault = .unread name why := by
  induction texts generalizing sources with
  | nil =>
    rw [readAll_nil] at fails
    cases fails
  | cons e texts ih =>
    obtain ⟨first, text⟩ := e
    rw [readAll_cons] at fails
    cases read : Source.read first text with
    | error why =>
      rw [read] at fails
      exact ⟨[], first, text, texts, why, rfl, nofun, read, (Except.error.inj fails).symm⟩
    | ok s =>
      rw [read] at fails
      obtain ⟨front, name, text', back, why, rfl, reads, stops, same⟩ := ih fails
      refine ⟨(first, text) :: front, name, text', back, why, rfl, ?_, stops, same⟩
      intro e listed
      rcases List.mem_cons.mp listed with rfl | later
      · exact ⟨s, read⟩
      · exact reads e later

theorem chain_ne_unread (start : String) (fuel : Nat) (found : List String) (s : Source) :
    chain sources start fuel found s ≠ .error (.unread name why) := by
  induction fuel generalizing found s with
  | zero => exact nofun
  | succ fuel ih =>
    unfold chain
    split
    · exact nofun
    · split
      · exact nofun
      · split
        · exact ih _ _
        · exact nofun

/-- Only a text that does not read is reported as unread. -/
theorem unread_of_build (fails : build texts = .error (.unread name why)) :
    readAll [] texts = .error (.unread name why) := by
  rcases error_of_bind fails with reading | ⟨sources, -, fails⟩
  · exact reading
  rcases error_of_bind fails with making | ⟨pages, -, fails⟩
  · obtain ⟨s, -, making⟩ := error_of_mapM making
    rcases error_of_bind making with above | ⟨parents, -, making⟩
    · exact absurd above (chain_ne_unread _ _ _ _)
    · cases making
  · rcases error_of_bind fails with checking | ⟨-, -, fails⟩
    · obtain ⟨s, -, checking⟩ := error_of_forM checking
      unfold checkImports at checking
      split at checking <;> cases checking
    · cases fails

end Library
end Template
end Pageweave
