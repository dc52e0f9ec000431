import Pageweave.FileTree.Listing
import Pageweave.Proofs.FileTree.Walking
/-!
# What a listing finds

Without links a listing goes down as long as there are names, and each name on the way is an entry of its own, so it
comes to an end. It finds the files at the end of some names, and it finds the same in trees that hold the same.
-/
namespace Pageweave.FileTree

variable {t a b : FileTree} {p q : Place} {n : String} {ns : List String} {fuel : Nat}

theorem mem_children : n ∈ t.children q ↔ ∃ e ∈ t.nodes, e.1 = q ++ [n] := by
  unfold children
  rw [List.mem_mergeSort, List.mem_filterMap]
  constructor
  · rintro ⟨e, listed, named⟩
    refine ⟨e, listed, ?_⟩
    cases last : e.1.getLast? with
    | none => simp [last] at named
    | some m =>
      obtain ⟨inside, rfl⟩ : e.1.dropLast = q ∧ m = n := by simpa [last] using named
      rw [← inside, List.dropLast_append_getLast? m last]
  · rintro ⟨e, listed, place⟩
    exact ⟨e, listed, by simp [place]⟩

theorem mem_children_iff_get? : n ∈ t.children q ↔ t.get? (q ++ [n]) ≠ none := by
  rw [mem_children]
  have below : (q ++ [n]).isEmpty = false := by simp
  simp [get?, below]

/-- The entries below a place are as many at least as names can be followed from there. -/
def entriesBelow (t : FileTree) (q : Place) : Nat := (t.nodes.filter fun e => decide (q <+: e.1 ∧ e.1 ≠ q)).length

theorem entriesBelow_le (t : FileTree) (q : Place) : t.entriesBelow q ≤ t.nodes.length := List.length_filter_le _ _

theorem entriesBelow_lt (listed : n ∈ t.children q) : t.entriesBelow (q ++ [n]) < t.entriesBelow q := by
  obtain ⟨e, there, place⟩ := mem_children.mp listed
  have nested : t.nodes.filter (fun e => decide (q ++ [n] <+: e.1 ∧ e.1 ≠ q ++ [n])) =
      (t.nodes.filter fun e => decide (q <+: e.1 ∧ e.1 ≠ q)).filter
        fun e => decide (q ++ [n] <+: e.1 ∧ e.1 ≠ q ++ [n]) := by
    rw [List.filter_filter]
    apply List.filter_congr
    intro f _
    rw [Bool.eq_iff_iff]
    simp only [decide_eq_true_eq, Bool.and_eq_true]
    refine ⟨fun below => ⟨below, (List.prefix_append q [n]).trans below.1, ?_⟩, And.left⟩
    intro same
    have short := below.1.length_le
    rw [same, List.length_append, List.length_singleton] at short
    omega
  unfold entriesBelow
  rw [nested, List.length_filter_lt_length_iff_exists]
  refine ⟨e, ?_, by simp [place]⟩
  simp [there, place]

theorem mapM_congr {α β ε : Type} {f g : α → Except ε β} {l : List α} (all : ∀ x ∈ l, f x = g x) :
    l.mapM f = l.mapM g := by
  induction l with
  | nil => rfl
  | cons x l ih =>
    have rest := ih fun y listed => all y (List.mem_cons_of_mem x listed)
    rw [List.mapM_cons, List.mapM_cons, all x List.mem_cons_self, rest]

theorem not_hasFile_of_none (absent : t.get? q = none) : ¬t.HasFile q ns := by
  cases ns with
  | nil =>
    rintro ⟨bytes, there⟩
    rw [absent] at there
    cases there
  | cons n ns =>
    rintro ⟨directory, -⟩
    rw [absent] at directory
    cases directory

theorem listEntry_eq_ok (free : t.LinkFreeBelow q) (some_entry : t.get? q ≠ none) (enough : t.entriesBelow q < fuel)
    (around : List Opened) (path : String) (names : List String) :
    ∃ found, t.listEntry fuel around path names q = .ok found ∧
      ∀ x, x ∈ found ↔ ∃ ns, x = names ++ ns ∧ t.HasFile q ns := by
  induction fuel generalizing q around path names with
  | zero => omega
  | succ fuel ih =>
    cases there : t.get? q with
    | none => exact absurd there some_entry
    | some node =>
      cases node with
      | link target => exact absurd there (free q (List.prefix_refl q) target)
      | file bytes =>
        refine ⟨[names], by simp [listEntry, entered, there, bind, Except.bind], fun x => ?_⟩
        rw [List.mem_singleton]
        constructor
        · rintro rfl
          exact ⟨[], by simp, bytes, there⟩
        · rintro ⟨ns, rfl, file⟩
          cases ns with
          | nil => simp
          | cons n ns =>
            have directory := file.1
            rw [there] at directory
            cases directory
      | directory =>
        let child (n : String) := t.listEntry fuel (⟨path, q⟩ :: around) (Path.join path n) (names ++ [n]) (q ++ [n])
        let found (n : String) : List (List String) := (child n).toOption.getD []
        have each (n : String) (listed : n ∈ t.children q) :
            child n = .ok (found n) ∧ ∀ x, x ∈ found n ↔ ∃ ns, x = names ++ [n] ++ ns ∧ t.HasFile (q ++ [n]) ns := by
          have fewer := entriesBelow_lt listed
          obtain ⟨listing, ends, holds⟩ := ih (free.deeper n) (mem_children_iff_get?.mp listed) (by omega)
            (⟨path, q⟩ :: around) (Path.join path n) (names ++ [n])
          have same : found n = listing := by simp [found, child, ends, Except.toOption]
          rw [same]
          exact ⟨ends, holds⟩
        refine ⟨((t.children q).map found).flatten, ?_, fun x => ?_⟩
        · have all : (t.children q).mapM child = .ok ((t.children q).map found) :=
            (mapM_congr fun n listed => (each n listed).1).trans List.mapM_pure
          simp only [listEntry, entered, there, bind, Except.bind]
          rw [all]
        · simp only [List.mem_flatten, List.mem_map, exists_exists_and_eq_and]
          constructor
          · rintro ⟨n, listed, inside⟩
            obtain ⟨ns, rfl, file⟩ := ((each n listed).2 x).mp inside
            exact ⟨n :: ns, by simp, there, file⟩
          · rintro ⟨ns, rfl, file⟩
            cases ns with
            | nil =>
              obtain ⟨bytes, other⟩ := file
              rw [there] at other
              cases other
            | cons n ns =>
              have listed : n ∈ t.children q :=
                mem_children_iff_get?.mpr fun absent => not_hasFile_of_none absent file.2
              exact ⟨n, listed, ((each n listed).2 _).mpr ⟨ns, by simp, file.2⟩⟩

theorem listEntry_congr {fuel' : Nat} (same : a.SameBelow b q) (enough : a.entriesBelow q < fuel)
    (enough' : b.entriesBelow q < fuel') (around : List Opened) (path : String) (names : List String) :
    a.listEntry fuel around path names q = b.listEntry fuel' around path names q := by
  induction fuel generalizing fuel' q around path names with
  | zero => omega
  | succ fuel ih =>
    obtain ⟨fuel', rfl⟩ : ∃ m, fuel' = m + 1 := ⟨fuel' - 1, by omega⟩
    have get_eq := same.get?_eq q (List.prefix_refl q)
    have children_eq := same.children_eq q (List.prefix_refl q)
    cases there : a.get? q with
    | none => simp [listEntry, entered, there, ← get_eq, bind, Except.bind]
    | some node =>
      cases node with
      | link target => exact absurd there (same.linkFree q (List.prefix_refl q) target)
      | file bytes => simp [listEntry, entered, there, ← get_eq, bind, Except.bind]
      | directory =>
        have each : ∀ n ∈ a.children q,
            a.listEntry fuel (⟨path, q⟩ :: around) (Path.join path n) (names ++ [n]) (q ++ [n]) =
              b.listEntry fuel' (⟨path, q⟩ :: around) (Path.join path n) (names ++ [n]) (q ++ [n]) := by
          intro n listed
          have fewer := entriesBelow_lt listed
          have fewer' := entriesBelow_lt (children_eq ▸ listed)
          exact ih (same.deeper n) (by omega) (by omega) _ _ _
        simp only [listEntry, entered, there, ← get_eq, bind, Except.bind, ← children_eq]
        rw [mapM_congr each]

/-- Trees in which `root` leads to the same place, and which hold the same there and below. -/
def AgreeBelow (a b : FileTree) (root : String) : Prop :=
  a.place true (rootPath root) = b.place true (rootPath root) ∧
    ∀ p, a.place true (rootPath root) = .ok p → a.SameBelow b p

private theorem enough_fuel (t : FileTree) (p : Place) :
    t.entriesBelow p < (t.nodes.length + 2) * (t.nodes.length + 2) := by
  have few := t.entriesBelow_le p
  have square := Nat.le_mul_self (t.nodes.length + 2)
  omega

theorem filesBelow_congr {root : String} (agree : a.AgreeBelow b root) : a.filesBelow root = b.filesBelow root := by
  obtain ⟨place_eq, same⟩ := agree
  unfold filesBelow
  by_cases empty : root = ""
  · subst empty
    have refused (t : FileTree) : t.place true "" = .error .missing := by
      rw [FileTree.place_eq]
      rfl
    rw [refused a, refused b]
  · rw [rootPath, if_neg empty] at place_eq same
    rw [← place_eq]
    cases leads : a.place true root with
    | error e => rfl
    | ok p =>
      have below := same p leads
      simp only [← below.get?_eq p (List.prefix_refl p)]
      rw [listEntry_congr below (enough_fuel a p) (enough_fuel b p)]

/-- The files below a directory without links. -/
theorem mem_filesBelow_iff {root : String} (leads : t.place true root = .ok p) (directory : t.get? p = some .directory)
    (free : t.LinkFreeBelow p) :
    ∃ found, t.filesBelow root = .ok found ∧ ∀ ns, ns ∈ found ↔ t.HasFile p ns := by
  obtain ⟨found, ends, holds⟩ := listEntry_eq_ok free (by simp [directory]) (enough_fuel t p) [] root []
  refine ⟨found, ?_, fun ns => by simp [holds]⟩
  unfold filesBelow
  rw [leads]
  simp only [directory]
  exact ends

end Pageweave.FileTree
