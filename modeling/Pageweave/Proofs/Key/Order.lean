import Mathlib.Data.List.Sort
import Mathlib.Data.String.Basic
import Pageweave.Key
import Pageweave.Proofs.Text.Pieces
/-!
# Keys in order

Keys are ordered by the characters of their names, which is the order of the bytes of their names: of two characters
the greater one has the greater UTF-8 form. Inserting keys one by one keeps them strictly ascending.
-/
namespace Pageweave

namespace Text

private theorem encode_lt {c d : Char} (less : c < d) (front back : List UInt8) :
    String.utf8EncodeChar c ++ front < String.utf8EncodeChar d ++ back := by
  have smaller : c.val.toNat < d.val.toNat := less
  have bound : d.val.toNat < 0x110000 := by
    have valid : d.val.toNat < 0xD800 ∨ 0xDFFF < d.val.toNat ∧ d.val.toNat < 0x110000 := d.valid
    omega
  have small {n : Nat} (fits : n < 256) : (UInt8.ofNat n).toNat = n := by
    rw [UInt8.toNat_ofNat', Nat.mod_eq_of_lt fits]
  have top (n : Nat) (fits : n < 0x110000) : n / 262144 % 8 = n / 262144 := by omega
  -- the first byte that differs decides: it is a lead byte of a longer form, or the first digit that differs
  unfold String.utf8EncodeChar
  simp only
  split_ifs <;>
    simp (disch := omega) only [List.cons_append, List.nil_append, List.cons_lt_cons_iff, UInt8.lt_iff_toNat_lt,
      ← UInt8.toNat_inj, small, top] <;> omega

private theorem flatMap_encode_lt {a b : List Char} (less : a < b) :
    a.flatMap String.utf8EncodeChar < b.flatMap String.utf8EncodeChar := by
  induction less with
  | @nil c cs =>
    rw [List.flatMap_nil, List.flatMap_cons]
    cases encoded : String.utf8EncodeChar c with
    | nil => exact absurd encoded String.utf8EncodeChar_ne_nil
    | cons byte more => exact List.nil_lt_cons byte _
  | rel h =>
    rw [List.flatMap_cons, List.flatMap_cons]
    exact encode_lt h _ _
  | cons _ ih =>
    rw [List.flatMap_cons, List.flatMap_cons]
    exact List.append_left_lt ih

/-- Texts are in the order of their bytes. -/
theorem lt_iff_toUTF8_lt (s t : String) : s < t ↔ s.toUTF8.data.toList < t.toUTF8.data.toList := by
  rw [String.lt_iff_toList_lt, toUTF8_eq, toUTF8_eq]
  refine ⟨flatMap_encode_lt, fun less => ?_⟩
  rcases lt_trichotomy s.toList t.toList with below | same | above
  · exact below
  · rw [same] at less
    exact absurd less (List.lt_irrefl _)
  · exact absurd less (List.lt_asymm (flatMap_encode_lt above))

end Text

namespace Key

variable {k q : Key} {ks : List Key}

def bytes (k : Key) : List UInt8 := k.name.toUTF8.data.toList

theorem lt_iff_bytes_lt : k < q ↔ k.bytes < q.bytes := Text.lt_iff_toUTF8_lt k.name q.name

instance : Std.Irrefl (fun a b : Key => a < b) := ⟨fun k => String.lt_irrefl k.name⟩

instance : Std.Antisymm (fun a b : Key => a < b) := ⟨fun _ _ less more => absurd less (String.lt_asymm more)⟩

theorem lt_trans {a b c : Key} (front : a < b) (back : b < c) : a < c := String.lt_trans front back

theorem pairwise_insertSorted (ascending : ks.Pairwise (· < ·)) : (insertSorted k ks).Pairwise (· < ·) := by
  induction ks with
  | nil => exact List.pairwise_singleton _ _
  | cons q qs ih =>
    obtain ⟨first, rest⟩ := List.pairwise_cons.mp ascending
    unfold insertSorted
    split_ifs with same below
    · exact ascending
    · refine List.pairwise_cons.mpr ⟨fun x listed => ?_, ascending⟩
      rcases List.mem_cons.mp listed with rfl | later
      · exact below
      · exact lt_trans below (first x later)
    · refine List.pairwise_cons.mpr ⟨fun x listed => ?_, ih rest⟩
      rcases (mem_insertSorted k x qs).mp listed with rfl | later
      · have apart : x.name ≠ q.name := fun h => same (congrArg Key.mk h)
        exact (lt_or_gt_of_ne apart).resolve_left below
      · exact first x later

/-- Puts keys among others that are in order, each once. -/
def insertAll (new ks : List Key) : List Key := new.foldl (fun acc k => insertSorted k acc) ks

theorem mem_insertAll (q : Key) (new ks : List Key) : q ∈ insertAll new ks ↔ q ∈ ks ∨ q ∈ new := by
  unfold insertAll
  induction new generalizing ks with
  | nil => simp
  | cons k new ih => rw [List.foldl_cons, ih, mem_insertSorted, List.mem_cons, or_assoc, or_left_comm]

theorem pairwise_insertAll (new : List Key) (ascending : ks.Pairwise (· < ·)) :
    (insertAll new ks).Pairwise (· < ·) := by
  unfold insertAll
  induction new generalizing ks with
  | nil => exact ascending
  | cons k new ih => exact ih (pairwise_insertSorted ascending)

end Key
end Pageweave
