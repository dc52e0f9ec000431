import Mathlib.Data.List.Nodup
import Pageweave.Proofs.Locator.Listing
import Pageweave.Proofs.Text.EditDistance
/-!
# What is suggested for a missing template

The keys that are listed come in ascending order, and sorting by distance keeps this order among those that are equally
far away. So those within the tolerance are ranked by distance and then by bytes, and the first three of them are named.
-/
namespace Pageweave

section Stability

variable {β : Type} {f : β → Nat} {R : β → β → Prop} {xs : List β}

private theorem pairwise_sorted (f : β → Nat) (xs : List β) :
    (xs.mergeSort fun a b => f a ≤ f b).Pairwise fun a b => f a ≤ f b := by
  have sorted : (xs.mergeSort fun a b => f a ≤ f b).Pairwise fun a b => decide (f a ≤ f b) = true :=
    List.pairwise_mergeSort (by simp; omega) (by simp; omega) xs
  simpa only [decide_eq_true_eq] using sorted

theorem filter_mergeSort (f : β → Nat) (xs : List β) (n : Nat) :
    (xs.mergeSort fun a b => f a ≤ f b).filter (fun a => f a = n) = xs.filter fun a => f a = n := by
  have equal : (xs.filter fun a => f a = n).Pairwise fun a b => decide (f a ≤ f b) = true := by
    rw [List.pairwise_filter]
    refine List.pairwise_of_forall fun a b => ?_
    intro here there
    simp_all
  have kept := List.sublist_mergeSort (by simp; omega) (by simp; omega) equal List.filter_sublist
  have same : ((xs.filter fun a => f a = n).filter fun a => f a = n) = xs.filter fun a => f a = n := by simp
  have inside := kept.filter fun a => f a = n
  rw [same] at inside
  exact (inside.eq_of_length ((List.mergeSort_perm xs _).filter _).length_eq.symm).symm

/-- A list in order that is sorted by value is in order of value, and in the old order among equal values. -/
theorem pairwise_mergeSort_of_pairwise (f : β → Nat) (ordered : xs.Pairwise R) :
    (xs.mergeSort fun a b => f a ≤ f b).Pairwise fun a b => f a < f b ∨ f a = f b ∧ R a b := by
  rw [List.pairwise_iff_forall_sublist]
  intro a b both
  have le : f a ≤ f b := List.pairwise_iff_forall_sublist.mp (pairwise_sorted f xs) both
  rcases Nat.lt_or_eq_of_le le with less | same
  · exact .inl less
  · have inside := both.filter fun x => f x = f b
    rw [filter_mergeSort] at inside
    have pair : ([a, b].filter fun x => f x = f b) = [a, b] := by simp [same]
    rw [pair] at inside
    exact .inr ⟨same, List.pairwise_iff_forall_sublist.mp ordered (inside.trans List.filter_sublist)⟩

end Stability

namespace Locator

variable {t q : Key} {keys : List Key}

/-- Does one key come before another among those suggested for a third? -/
def Nearer (t a b : Key) : Prop :=
  distance t a.name < distance t b.name ∨ distance t a.name = distance t b.name ∧ a.bytes < b.bytes

/-- The listed keys that are near enough, nearest first. -/
def ranked (t : Key) (keys : List Key) : List Key :=
  (keys.filter fun q => distance t q.name ≤ tolerance t).mergeSort fun a b => distance t a.name ≤ distance t b.name

theorem tolerance_eq (t : Key) : tolerance t = t.name.utf8ByteSize / 2 := by
  unfold tolerance
  omega

theorem nearest_eq (t : Key) (keys : List Key) : nearest t keys = ((ranked t keys).take 3).map Key.name := by
  have scored (xs : List Key) :
      (xs.map fun q => (q.name, distance t q.name)).mergeSort (fun a b => a.2 ≤ b.2) =
        (xs.mergeSort fun a b => distance t a.name ≤ distance t b.name).map fun q => (q.name, distance t q.name) :=
    (List.map_mergeSort (f := fun q : Key => (q.name, distance t q.name)) fun _ _ _ _ => rfl).symm
  unfold nearest ranked
  simp only [List.filter_map, scored, ← List.map_take, List.map_map]
  rfl

theorem mem_ranked : q ∈ ranked t keys ↔ q ∈ keys ∧ distance t q.name ≤ t.name.utf8ByteSize / 2 := by
  rw [ranked, (List.mergeSort_perm _ _).mem_iff, List.mem_filter, decide_eq_true_eq, tolerance_eq]

theorem pairwise_ranked (ascending : keys.Pairwise (· < ·)) : (ranked t keys).Pairwise (Nearer t) := by
  have bytes : (keys.filter fun q => distance t q.name ≤ tolerance t).Pairwise fun a b => a.bytes < b.bytes :=
    (ascending.imp Key.lt_iff_bytes_lt.mp).filter _
  have sorted := pairwise_mergeSort_of_pairwise (fun q : Key => distance t q.name) bytes
  exact sorted

theorem ne_of_nearer {a b : Key} (nearer : Nearer t a b) : a ≠ b := by
  rintro rfl
  rcases nearer with less | ⟨-, less⟩
  · exact Nat.lt_irrefl _ less
  · exact List.lt_irrefl _ less

/-- What is suggested for a key where these keys are listed. -/
structure Suggests (t : Key) (keys : List Key) (names : List String) : Prop where
  ranking : ∃ ranked : List Key, ranked.Pairwise (Nearer t) ∧
    (∀ q, q ∈ ranked ↔ q ∈ keys ∧ distance t q.name ≤ t.name.utf8ByteSize / 2) ∧
    names = (ranked.take 3).map Key.name
  listed : ∀ name ∈ names, ⟨name⟩ ∈ keys
  distinct : names.Nodup
  /-- No listed key that is left out is nearer than one that is named. -/
  nearest : ∀ q ∈ keys, q.name ∉ names → ∀ name ∈ names, distance t name ≤ distance t q.name

theorem suggests_of_ascending (t : Key) (ascending : keys.Pairwise (· < ·)) : Suggests t keys (nearest t keys) := by
  have ordered : (ranked t keys).Pairwise (Nearer t) := pairwise_ranked ascending
  rw [nearest_eq]
  refine ⟨⟨ranked t keys, ordered, fun q => mem_ranked, rfl⟩, ?_, ?_, ?_⟩
  · intro name named
    obtain ⟨q, chosen, rfl⟩ := List.mem_map.mp named
    exact (mem_ranked.mp (List.mem_of_mem_take chosen)).1
  · have once : (ranked t keys).Nodup := ordered.imp fun nearer => ne_of_nearer nearer
    exact (once.sublist (List.take_sublist 3 _)).map fun a b same => congrArg Key.mk same
  · intro q listed left_out name named
    obtain ⟨s, chosen, rfl⟩ := List.mem_map.mp named
    have near := (mem_ranked.mp (List.mem_of_mem_take chosen)).2
    by_cases within : distance t q.name ≤ t.name.utf8ByteSize / 2
    · have there : q ∈ (ranked t keys).take 3 ++ (ranked t keys).drop 3 := by
        rw [List.take_append_drop]
        exact mem_ranked.mpr ⟨listed, within⟩
      have behind : q ∈ (ranked t keys).drop 3 :=
        (List.mem_append.mp there).resolve_left fun chosen => left_out (List.mem_map_of_mem chosen)
      rw [← List.take_append_drop 3 (ranked t keys), List.pairwise_append] at ordered
      rcases ordered.2.2 s chosen q behind with less | ⟨same, -⟩
      · exact Nat.le_of_lt less
      · exact Nat.le_of_eq same
    · omega

/-- The error for a key that is not found names nothing if the keys cannot be listed. Otherwise it names the first three
of those listed keys that are at most half of the key's bytes away, in edits of single characters, by distance and then
by bytes. -/
theorem missing_suggests_nearest {l : Locator} (missing : l.find t = .ok none) :
    ∃ names, l.resolve t = .error (.notFound t names) ∧ (∀ e, l.list = .error e → names = []) ∧
      (∀ listed, l.list = .ok listed → Suggests t (listed.map Prod.fst) names) ∧
      ∀ name, IsLeast {n | Text.Edits n t.name.toList name.toList} (distance t name) := by
  have resolved : l.resolve t = .error (.notFound t (l.suggestions t)) := by rw [resolve, missing]
  refine ⟨l.suggestions t, resolved, ?_, ?_, fun name => Text.editDistance_isLeast _ _⟩
  · intro e fails
    rw [suggestions, fails]
  · intro listed lists
    rw [suggestions, lists]
    exact suggests_of_ascending t (List.pairwise_map.mpr (ascending_list lists))

/-- Pages whose names are near to each other. -/
def drawer : Locator where
  stores := [.memory "texts" [(⟨"hello"⟩, "1"), (⟨"helot"⟩, "2")],
    .memory "bundled" [(⟨"halo"⟩, "3"), (⟨"held"⟩, "4"), (⟨"hello"⟩, "5"), (⟨"zero"⟩, "6")]]
  extension := "html"

theorem drawer_suggests_nearest :
    drawer.find ⟨"helo"⟩ = .ok none ∧ drawer.resolve ⟨"helo"⟩ = .error (.notFound ⟨"helo"⟩ ["halo", "held", "hello"]) ∧
      Suggests ⟨"helo"⟩ [⟨"halo"⟩, ⟨"held"⟩, ⟨"hello"⟩, ⟨"helot"⟩, ⟨"zero"⟩] ["halo", "held", "hello"] := by
  have missing : drawer.find ⟨"helo"⟩ = .ok none := by decide +kernel
  obtain ⟨names, resolved, -, suggests, -⟩ := missing_suggests_nearest missing
  have lists : drawer.list = .ok [(⟨"halo"⟩, "bundled"), (⟨"held"⟩, "bundled"), (⟨"hello"⟩, "texts"),
      (⟨"helot"⟩, "texts"), (⟨"zero"⟩, "bundled")] := by decide +kernel
  -- all are within two edits, and the only one that needs both comes last already
  have in_order : ranked ⟨"helo"⟩ [⟨"halo"⟩, ⟨"held"⟩, ⟨"hello"⟩, ⟨"helot"⟩, ⟨"zero"⟩] =
      [⟨"halo"⟩, ⟨"held"⟩, ⟨"hello"⟩, ⟨"helot"⟩, ⟨"zero"⟩] := by
    rw [ranked, List.filter_eq_self.mpr (by decide +kernel)]
    exact List.mergeSort_of_pairwise (by decide +kernel)
  have answer : drawer.resolve ⟨"helo"⟩ = .error (.notFound ⟨"helo"⟩ ["halo", "held", "hello"]) := by
    rw [resolve, missing, suggestions, lists]
    simp [nearest_eq, in_order]
  obtain rfl : ["halo", "held", "hello"] = names := by
    rw [answer] at resolved
    simpa using resolved
  exact ⟨missing, answer, suggests _ lists⟩

end Locator
end Pageweave
