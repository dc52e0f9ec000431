import Pageweave.Proofs.Text.Pieces
/-!
# Texts of the same letters

ASCII letters in another case are the same letters. They are of the same size in bytes, and none of them is a mark that
cuts a name or a path.
-/
namespace Pageweave.Text

variable {a b : List Char}

theorem toNat_toLower (c : Char) :
    c.toLower.toNat = if 65 ≤ c.toNat ∧ c.toNat ≤ 90 then c.toNat + 32 else c.toNat := by
  by_cases upper : 65 ≤ c.toNat ∧ c.toNat ≤ 90
  · have inside : c.val ≥ 'A'.val ∧ c.val ≤ 'Z'.val := upper
    have small : c.val.toNat ≤ 90 := upper.2
    have shifted : c.toLower.val = c.val + ('a'.val - 'A'.val) := congrArg Char.val (dif_pos inside)
    rw [if_pos upper]
    change c.toLower.val.toNat = c.val.toNat + 32
    rw [shifted, UInt32.toNat_add]
    simp
    omega
  · have same : c.toLower = c := dif_neg upper
    rw [if_neg upper, same]

theorem map_toLower_of_sameLetters (same : sameLetters a b = true) : a.map Char.toLower = b.map Char.toLower := by
  simpa [sameLetters] using same

theorem sameLetters_refl (cs : List Char) : sameLetters cs cs = true := by
  simp [sameLetters]

theorem length_of_sameLetters (same : sameLetters a b = true) : a.length = b.length := by
  simpa using congrArg List.length (map_toLower_of_sameLetters same)

private theorem toLower_eq_mark_iff {mark : Char} (other : mark = '.' ∨ mark = '/' ∨ mark = '\\') (c : Char) :
    c.toLower = mark ↔ c = mark := by
  have low : mark.toNat < 65 ∨ mark.toNat = 92 := by
    rcases other with rfl | rfl | rfl <;> decide
  have moved := toNat_toLower c
  rw [← Char.toNat_inj, ← Char.toNat_inj, moved]
  split
  · omega
  · exact Iff.rfl

theorem mem_of_sameLetters {mark : Char} (other : mark = '.' ∨ mark = '/' ∨ mark = '\\')
    (same : sameLetters a b = true) : mark ∈ a ↔ mark ∈ b := by
  have kept (cs : List Char) : mark ∈ cs.map Char.toLower ↔ mark ∈ cs := by
    simp [toLower_eq_mark_iff other]
  rw [← kept a, map_toLower_of_sameLetters same, kept b]

theorem utf8Size_toLower (c : Char) : c.toLower.utf8Size = c.utf8Size := by
  have moved := toNat_toLower c
  by_cases upper : 65 ≤ c.toNat ∧ c.toNat ≤ 90
  · rw [if_pos upper] at moved
    have small : c.val ≤ 127 := UInt32.le_iff_toNat_le.mpr (by change c.toNat ≤ 127; omega)
    have small' : c.toLower.val ≤ 127 := UInt32.le_iff_toNat_le.mpr (by change c.toLower.toNat ≤ 127; omega)
    rw [Char.utf8Size_eq_one_iff.mpr small, Char.utf8Size_eq_one_iff.mpr small']
  · rw [if_neg upper] at moved
    rw [Char.toNat_inj.mp moved]

theorem byteSize_map_toLower (cs : List Char) : byteSize (cs.map Char.toLower) = byteSize cs := by
  induction cs with
  | nil => rfl
  | cons c cs ih => rw [List.map_cons, byteSize_cons, byteSize_cons, utf8Size_toLower, ih]

theorem byteSize_of_sameLetters (same : sameLetters a b = true) : byteSize a = byteSize b := by
  rw [← byteSize_map_toLower a, map_toLower_of_sameLetters same, byteSize_map_toLower]

end Pageweave.Text
