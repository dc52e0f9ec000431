import Pageweave.Proofs.Peg.Derivation
/-!
# The nodes inside a node

Every node was left by a derivation of its rule, and a pattern without repeated rules leaves nodes of one of finitely many
rows of rules.
-/
namespace Pageweave.Peg

variable {R : Type}

namespace Tree

def rule : Tree R → R
  | .node r _ _ _ => r

/-- The text from a node's first character on. -/
def start : Tree R → List Char
  | .node _ start _ _ => start

def text : Tree R → List Char
  | .node _ start size _ => start.take size

def inner : Tree R → List (Tree R)
  | .node _ _ _ inner => inner

variable {r : R} {cs ds : List Char} {size : Nat} {ts us : List (Tree R)}

@[simp] theorem rule_node : (node r cs size ts).rule = r := rfl

@[simp] theorem start_node : (node r cs size ts).start = cs := rfl

@[simp] theorem inner_node : (node r cs size ts).inner = ts := rfl

theorem text_node {front : List Char} : (node r (front ++ ds) ((front ++ ds).length - ds.length) ts).text = front := by
  simp [text]

mutual
/-- A node and all nodes inside it. -/
def nodes : Tree R → List (Tree R)
  | .node r start size inner => .node r start size inner :: nodesOf inner

def nodesOf : List (Tree R) → List (Tree R)
  | [] => []
  | t :: ts => nodes t ++ nodesOf ts
end

theorem nodesOf_append : nodesOf (ts ++ us) = nodesOf ts ++ nodesOf us := by
  induction ts with
  | nil => rfl
  | cons t ts ih => simp only [List.cons_append, nodesOf, ih, List.append_assoc]

theorem nodesOf_node : nodesOf [node r cs size ts] = node r cs size ts :: nodesOf ts := by
  simp only [nodesOf, nodes, List.append_nil]

theorem nodesOf_of_mem {t u : Tree R} (listed : t ∈ ts) (inside : u ∈ t :: nodesOf t.inner) : u ∈ nodesOf ts := by
  obtain ⟨front, back, rfl⟩ := List.append_of_mem listed
  obtain ⟨r, start, size, inner⟩ := t
  rw [nodesOf_append]
  refine List.mem_append_right _ ?_
  rw [nodesOf, nodes]
  exact List.mem_append_left _ inside

end Tree

variable {g : Grammar R} {c : Setting} {p : Pattern R} {cs ds : List Char} {ts : List (Tree R)}

/-- A node is what a derivation of its rule left. -/
def Grown (g : Grammar R) (t : Tree R) : Prop :=
  ∃ (c : Setting) (ds : List Char), c.leaves = true ∧
    Derives g ((g.kind t.rule).inside c) (g.body t.rule) t.start (some (t.inner, ds))

theorem Kind.leaves_inside {k : Kind} (skips : k = .tight ∨ k = .loose) (leaves : c.leaves = true) :
    (k.inside c).leaves = true := by
  have outside := (Bool.and_eq_true_iff.mp leaves).2
  rcases skips with rfl | rfl <;> exact outside

theorem Derives.grown_of_eq {r : Option (List (Tree R) × List Char)} (h : Derives g c p cs r) :
    ∀ {ts ds}, r = some (ts, ds) → ∀ t ∈ Tree.nodesOf ts, Grown g t := by
  induction h with
  | chars h =>
    rintro ts ds rfl
    obtain ⟨_, -, ⟨⟩⟩ := Option.map_eq_some_iff.mp h
    exact nofun
  | range h =>
    rintro ts ds rfl
    obtain ⟨_, -, ⟨⟩⟩ := Option.map_eq_some_iff.mp h
    exact nofun
  | any h =>
    rintro ts ds rfl
    obtain ⟨_, -, ⟨⟩⟩ := Option.map_eq_some_iff.mp h
    exact nofun
  | finish_fits | opt_none | star_none | unless_fails =>
    rintro _ _ ⟨⟩
    exact nofun
  | seq_fits _ _ ih ih' =>
    rintro _ _ ⟨⟩
    rw [Tree.nodesOf_append]
    exact List.forall_mem_append.mpr ⟨ih rfl, ih' rfl⟩
  | star_next _ _ _ ih _ ih' =>
    rintro _ _ ⟨⟩
    rw [Tree.nodesOf_append]
    exact List.forall_mem_append.mpr ⟨ih rfl, ih' rfl⟩
  | alt_one _ ih | opt_some _ ih | star_last _ _ ih _ | rule_bare _ _ ih =>
    rintro _ _ ⟨⟩
    exact ih rfl
  | alt_other _ _ _ ih =>
    rintro _ _ rfl
    exact ih rfl
  | @rule_node c r cs inner ds _ leaves body ih =>
    rintro _ _ ⟨⟩
    rw [Tree.nodesOf_node]
    exact List.forall_mem_cons.mpr ⟨⟨c, ds, leaves, body⟩, ih rfl⟩
  | _ => nofun

theorem Derives.grown (h : Derives g c p cs (some (ts, ds))) : ∀ t ∈ Tree.nodesOf ts, Grown g t := h.grown_of_eq rfl

namespace Pattern

/-- The rows of rules whose nodes a pattern leaves, if nothing that leaves nodes is repeated. -/
def rows : Pattern R → List (List R)
  | .rule r => [[r]]
  | .seq front back => front.rows.flatMap fun l => back.rows.map (l ++ ·)
  | .alt one other => one.rows ++ other.rows
  | .opt inner => [] :: inner.rows
  | _ => [[]]

/-- Leaves nothing that is repeated nodes? -/
def single : Pattern R → Bool
  | .seq front back => front.single && back.single
  | .alt one other => one.single && other.single
  | .opt inner => inner.single
  | .star inner => inner.single && inner.rows.all List.isEmpty
  | _ => true

/-- The rules that a pattern names. -/
def rules : Pattern R → List R
  | .rule r => [r]
  | .seq front back => front.rules ++ back.rules
  | .alt one other => one.rules ++ other.rules
  | .opt inner => inner.rules
  | .star inner => inner.rules
  | _ => []

end Pattern

/-- Only nodes of the rules that a pattern names are left by it. -/
theorem Derives.rule_mem (loud : ∀ r, g.kind r ≠ .silent) (leaves : c.leaves = true)
    (h : Derives g c p cs (some (ts, ds))) : ∀ t ∈ ts, t.rule ∈ p.rules := by
  induction p generalizing cs ts ds with
  | chars text => rw [h.of_chars.1]; exact nofun
  | any => rw [h.of_any.1]; exact nofun
  | range first last => rw [h.of_range]; exact nofun
  | finish => cases h; exact nofun
  | rule r =>
    obtain ⟨inner, -, rfl⟩ := h.of_rule (loud r) leaves
    exact List.forall_mem_singleton.mpr List.mem_cons_self
  | seq front back ih ih' =>
    obtain ⟨first, ms, second, reads, reads', rfl⟩ := h.of_seq
    exact List.forall_mem_append.mpr ⟨fun t listed => List.mem_append_left _ (ih reads t listed),
      fun t listed => List.mem_append_right _ (ih' reads' t listed)⟩
  | alt one other ih ih' =>
    rcases h.of_alt with reads | ⟨-, reads⟩
    · exact fun t listed => List.mem_append_left _ (ih reads t listed)
    · exact fun t listed => List.mem_append_right _ (ih' reads t listed)
  | opt inner ih =>
    rcases h.of_opt with reads | ⟨-, rfl, -⟩
    · exact ih reads
    · exact nofun
  | star inner ih =>
    exact Derives.of_star (Q := fun _ ts _ => ∀ t ∈ ts, t.rule ∈ inner.rules) (fun _ _ => nofun)
      (fun _ _ _ reads _ => ih reads) (fun _ _ _ _ _ reads rest => List.forall_mem_append.mpr ⟨ih reads, rest⟩) h
  | _ inner ih => rw [h.of_unless.2.1]; exact nofun

theorem Derives.rules_mem_rows (loud : ∀ r, g.kind r ≠ .silent) (leaves : c.leaves = true) (single : p.single = true)
    (h : Derives g c p cs (some (ts, ds))) : ts.map Tree.rule ∈ p.rows := by
  induction p generalizing cs ts ds with
  | chars text => rw [h.of_chars.1]; exact List.mem_singleton_self _
  | any => rw [h.of_any.1]; exact List.mem_singleton_self _
  | range first last => rw [h.of_range]; exact List.mem_singleton_self _
  | finish => cases h; exact List.mem_singleton_self _
  | rule r =>
    obtain ⟨inner, -, rfl⟩ := h.of_rule (loud r) leaves
    exact List.mem_singleton_self _
  | seq front back ih ih' =>
    simp only [Pattern.single, Bool.and_eq_true] at single
    obtain ⟨first, ms, second, reads, reads', rfl⟩ := h.of_seq
    rw [List.map_append]
    exact List.mem_flatMap.mpr ⟨_, ih single.1 reads, List.mem_map.mpr ⟨_, ih' single.2 reads', rfl⟩⟩
  | alt one other ih ih' =>
    simp only [Pattern.single, Bool.and_eq_true] at single
    rcases h.of_alt with reads | ⟨-, reads⟩
    · exact List.mem_append_left _ (ih single.1 reads)
    · exact List.mem_append_right _ (ih' single.2 reads)
  | opt inner ih =>
    rcases h.of_opt with reads | ⟨-, rfl, -⟩
    · exact List.mem_cons_of_mem _ (ih single reads)
    · exact List.mem_cons_self
  | star inner ih =>
    simp only [Pattern.single, Bool.and_eq_true, List.all_eq_true] at single
    have none {cs ts ds} (reads : Derives g c inner cs (some (ts, ds))) : ts = [] := by
      have empty := single.2 _ (ih single.1 reads)
      rwa [List.isEmpty_iff, List.map_eq_nil_iff] at empty
    have nothing : ts = [] := Derives.of_star (Q := fun _ ts _ => ts = []) (fun _ _ => rfl) (fun _ _ _ reads _ => none reads)
      (fun _ _ _ _ _ reads rest => by rw [none reads, rest]; rfl) h
    rw [nothing]
    exact List.mem_singleton_self _
  | _ inner ih => rw [h.of_unless.2.1]; exact List.mem_singleton_self _

end Pageweave.Peg
