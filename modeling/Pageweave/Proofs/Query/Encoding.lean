import Mathlib.Tactic.SplitIfs
import Pageweave.Proofs.Text.Pieces
import Pageweave.Template.Builtin
/-!
# Pairs that read back

A name and a value that are written behind an address are read back from it byte for byte, whatever they are. In what is
written of them no mark is left that ends a name, a pair, a query or an address.
-/
namespace Pageweave.Query

variable {b : UInt8} {c mark : Char} {cs front back : List Char} {key value key' value' : String}

/-- The bytes of a text. -/
def utf8 (s : String) : List UInt8 := s.toUTF8.data.toList

theorem bytes_toList (s : String) : bytes s.toList = utf8 s := (Text.toUTF8_eq s).symm

theorem utf8_inj : utf8 key = utf8 key' ↔ key = key' := by
  constructor
  · intro same
    apply String.toByteArray_inj.mp
    exact ByteArray.ext (Array.toList_inj.mp same)
  · exact congrArg utf8

/-- Characters that stand for themselves: ASCII letters, digits and four marks. -/
def IsPlain (c : Char) : Prop :=
  'A' ≤ c ∧ c ≤ 'Z' ∨ 'a' ≤ c ∧ c ≤ 'z' ∨ '0' ≤ c ∧ c ≤ '9' ∨ c ∈ ['*', '-', '.', '_']

instance : DecidablePred IsPlain := fun c => inferInstanceAs (Decidable ('A' ≤ c ∧ c ≤ 'Z' ∨ _))

/-- What a text stands for, if every percent sign in it has its two digits. -/
inductive Reads : List Char → List UInt8 → Prop where
  | nil : Reads [] []
  | plain {c : Char} {cs : List Char} {bs : List UInt8} (itself : IsPlain c) (rest : Reads cs bs) :
      Reads (c :: cs) (UInt8.ofNat c.toNat :: bs)
  | blank {cs : List Char} {bs : List UInt8} (rest : Reads cs bs) : Reads ('+' :: cs) (32 :: bs)
  | escape {high low : Char} {x y : Nat} {cs : List Char} {bs : List UInt8} (first : hexValue? high = some x)
      (second : hexValue? low = some y) (rest : Reads cs bs) :
      Reads ('%' :: high :: low :: cs) (UInt8.ofNat (16 * x + y) :: bs)

/-- Characters of encoded texts. -/
def IsFormChar (c : Char) : Prop := IsPlain c ∨ c = '+' ∨ c = '%'

instance : DecidablePred IsFormChar := fun c => inferInstanceAs (Decidable (IsPlain c ∨ _))

theorem IsPlain.isFormChar (plain : IsPlain c) : IsFormChar c := Or.inl plain

private theorem isPlain_iff : IsPlain c ↔
    65 ≤ c.toNat ∧ c.toNat ≤ 90 ∨ 97 ≤ c.toNat ∧ c.toNat ≤ 122 ∨ 48 ≤ c.toNat ∧ c.toNat ≤ 57 ∨
      c ∈ ['*', '-', '.', '_'] := Iff.rfl

theorem IsPlain.range (plain : IsPlain c) : c.toNat ≤ 122 ∧ c.toNat ≠ 37 ∧ c.toNat ≠ 43 := by
  simp only [isPlain_iff, List.mem_cons, List.not_mem_nil, or_false] at plain
  rcases plain with upper | lower | digit | rfl | rfl | rfl | rfl
  · omega
  · omega
  · omega
  all_goals decide

private theorem isPlain_of_hexValue? {x : Nat} (digit : hexValue? c = some x) : IsPlain c := by
  rw [isPlain_iff]
  unfold hexValue? at digit
  simp only [Bool.and_eq_true, decide_eq_true_eq] at digit
  split_ifs at digit <;> omega

theorem Reads.isFormChar {bs : List UInt8} (reads : Reads cs bs) : ∀ c ∈ cs, IsFormChar c := by
  induction reads with
  | nil => nofun
  | plain itself _ ih => exact List.forall_mem_cons.mpr ⟨itself.isFormChar, ih⟩
  | blank _ ih => exact List.forall_mem_cons.mpr ⟨by decide, ih⟩
  | escape first second _ ih =>
    have after_first := List.forall_mem_cons.mpr ⟨(isPlain_of_hexValue? second).isFormChar, ih⟩
    have after_percent := List.forall_mem_cons.mpr ⟨(isPlain_of_hexValue? first).isFormChar, after_first⟩
    exact List.forall_mem_cons.mpr ⟨by decide, after_percent⟩

private theorem decode_cons (no_plus : c ≠ '+') (no_percent : c ≠ '%') (cs : List Char) :
    decode (c :: cs) = String.utf8EncodeChar c ++ decode cs := by
  rw [decode]
  · exact no_plus
  · intro _ _ _ percent
    exact absurd percent no_percent

theorem Reads.decode_eq {bs : List UInt8} (reads : Reads cs bs) : decode cs = bs := by
  induction reads with
  | nil => rfl
  | @plain c cs _ itself _ ih =>
    obtain ⟨small, no_percent, no_plus⟩ := itself.range
    have apart (sign : Char) (differs : c.toNat ≠ sign.toNat) : c ≠ sign := fun same => differs (same ▸ rfl)
    have narrow : c.val.toNat ≤ 127 := by
      change c.toNat ≤ 127
      omega
    have one : String.utf8EncodeChar c = [UInt8.ofNat c.toNat] := by
      unfold String.utf8EncodeChar
      exact if_pos narrow
    rw [decode_cons (apart '+' no_plus) (apart '%' no_percent), one, ih]
    rfl
  | blank _ ih => rw [decode, ih]
  | escape first second _ ih =>
    rw [decode, first, second]
    simp only [ih]

private theorem hexValue?_hexDigit : ∀ n < 16, hexValue? (hexDigit n) = some n := by decide

private theorem isPlain_of_isKept (kept : isKept b = true) :
    IsPlain (Char.ofNat b.toNat) ∧ UInt8.ofNat (Char.ofNat b.toNat).toNat = b := by
  have table : ∀ n < 128, isKept (UInt8.ofNat n) = true →
      IsPlain (Char.ofNat n) ∧ UInt8.ofNat (Char.ofNat n).toNat = UInt8.ofNat n := by decide +kernel
  have small : b.toNat < 128 := by
    simp [isKept] at kept
    omega
  simpa using table b.toNat small (by simpa using kept)

theorem Reads.encodeByte {bs : List UInt8} (rest : Reads cs bs) (b : UInt8) :
    Reads (encodeByte b ++ cs) (b :: bs) := by
  unfold Query.encodeByte
  split
  · next kept =>
    obtain ⟨itself, same⟩ := isPlain_of_isKept kept
    rw [List.singleton_append]
    simpa [same] using Reads.plain itself rest
  · split
    · next blank =>
      have same : b = 32 := UInt8.toNat_inj.mp (by simpa using blank)
      rw [same]
      exact .blank rest
    · have small : b.toNat < 256 := b.toNat_lt
      have high := hexValue?_hexDigit (b.toNat / 16) (by omega)
      have low := hexValue?_hexDigit (b.toNat % 16) (by omega)
      have read := Reads.escape high low rest
      rwa [Nat.div_add_mod, UInt8.ofNat_toNat] at read

/-- An encoded text stands for the bytes of the text. -/
theorem reads_encode (cs : List Char) : Reads (encode cs) (bytes cs) := by
  unfold encode
  induction bytes cs with
  | nil => exact .nil
  | cons b bs ih => exact ih.encodeByte b

theorem not_mem_encode (other : ¬IsFormChar mark) (cs : List Char) : mark ∉ encode cs :=
  fun listed => other ((reads_encode cs).isFormChar mark listed)

/-- An encoded text and what it stands for. -/
structure Encodes (text : List Char) (s : String) : Prop where
  chars : ∀ c ∈ text, IsFormChar c
  reads : Reads text (utf8 s)
  decoded : decode text = utf8 s

theorem encodes_encode (s : String) : Encodes (encode s.toList) s := by
  have reads : Reads (encode s.toList) (utf8 s) := bytes_toList s ▸ reads_encode s.toList
  exact ⟨reads.isFormChar, reads, reads.decode_eq⟩

/-- Cuts a text at the first mark. Without a mark there is no second part. -/
def divide (mark : Char) (cs : List Char) : List Char × Option (List Char) :=
  match Text.cutAt? [mark] cs with
  | some (front, back) => (front, some back)
  | none => (cs, none)

theorem divide_of_not_mem (absent : mark ∉ cs) : divide mark cs = (cs, none) := by
  rw [divide, Text.cutAt?_of_not_mem absent]

theorem divide_append_mark (absent : mark ∉ front) (back : List Char) :
    divide mark (front ++ mark :: back) = (front, some back) := by
  rw [divide, Text.cutAt?_append_mark absent]

/-- Name and value around the first equals sign. Without one the value is empty. -/
def pair (piece : List Char) : List UInt8 × List UInt8 :=
  (decode (divide '=' piece).1, decode ((divide '=' piece).2.getD []))

/-- The pairs of a form, which stand between ampersands. Where nothing stands there is no pair. -/
def pairs (form : List Char) : List (List UInt8 × List UInt8) :=
  ((Text.pieces '&' form).filter (· ≠ [])).map pair

theorem pairs_append (front back : List Char) : pairs (front ++ '&' :: back) = pairs front ++ pairs back := by
  rw [pairs, Text.pieces_append, List.filter_append, List.map_append]
  rfl

/-- One pair as it is written. -/
def written (key value : String) : List Char := encode key.toList ++ '=' :: encode value.toList

theorem not_mem_written (other : ¬IsFormChar mark) (no_equals : mark ≠ '=') (key value : String) :
    mark ∉ written key value := by
  simp [written, not_mem_encode other, no_equals]

theorem pairs_written (key value : String) : pairs (written key value) = [(utf8 key, utf8 value)] := by
  have whole : Text.pieces '&' (written key value) = [written key value] :=
    Text.pieces_of_not_mem (not_mem_written (by decide) (by decide) key value)
  have cut : divide '=' (written key value) = (encode key.toList, some (encode value.toList)) :=
    divide_append_mark (not_mem_encode (by decide) _) _
  have filled : written key value ≠ [] := by simp [written]
  simp [pairs, whole, filled, pair, cut, (encodes_encode key).decoded, (encodes_encode value).decoded]

theorem toList_append (address key value : String) :
    (append address key value).toList = address.toList ++ separator address.toList :: written key value := by
  simp [append, written]

/-- On one address, different pairs give different addresses. -/
theorem append_inj {address : String} :
    append address key value = append address key' value' ↔ key = key' ∧ value = value' := by
  constructor
  · intro same
    have chars := congrArg String.toList same
    rw [toList_append, toList_append] at chars
    have texts : written key value = written key' value' := List.tail_eq_of_cons_eq (List.append_cancel_left chars)
    have read : [(utf8 key, utf8 value)] = [(utf8 key', utf8 value')] := by
      rw [← pairs_written, ← pairs_written, texts]
    simpa [utf8_inj] using read
  · intro same
    rw [same.1, same.2]

end Pageweave.Query

namespace Pageweave.Template.Builtin

open Query

variable {url key value : Value} {args : Args}

theorem appendQuery_eq (named : args.get? "key" = some key) (valued : args.get? "value" = some value) :
    appendQuery url args = .ok (.string (append url.shown key.shown value.shown)) := by
  rw [appendQuery, shownArg, shownArg, named, valued]
  rfl

end Pageweave.Template.Builtin
