import Mathlib.Data.List.Sort
import Mathlib.Data.String.Basic
import Pageweave.Value.Basic
/-!
# Maps as ordered fields

Fields that are in strictly ascending order are a map: they are what they give for each key. Setting keys one by one
keeps the order, and so does leaving keys out.
-/
namespace Pageweave.Fields

variable {key q : String} {value : Value} {x : String × Value} {fields earlier later a b : Fields}

/-- In strictly ascending order of their keys. -/
def Ordered (fields : Fields) : Prop := fields.Pairwise fun x y => x.1 < y.1

theorem ordered_nil : Ordered [] := List.Pairwise.nil

theorem Ordered.tail (h : Ordered (x :: fields)) : fields.Ordered := (List.pairwise_cons.mp h).2

theorem Ordered.filter (h : fields.Ordered) (p : String × Value → Bool) : Ordered (fields.filter p) :=
  List.Pairwise.filter p h

theorem Ordered.nodup (h : fields.Ordered) : fields.Nodup := by
  refine List.Pairwise.imp (fun below same => ?_) h
  exact ne_of_lt below (congrArg Prod.fst same)

theorem mem_insert (listed : x ∈ insert key value fields) : x = (key, value) ∨ x ∈ fields := by
  induction fields with
  | nil => exact .inl (List.mem_singleton.mp listed)
  | cons y rest ih =>
    unfold insert at listed
    split_ifs at listed
    · exact (List.mem_cons.mp listed).imp_right fun later => List.mem_cons_of_mem y later
    · exact List.mem_cons.mp listed
    · rcases List.mem_cons.mp listed with rfl | later
      · exact .inr List.mem_cons_self
      · exact (ih later).imp_right fun there => List.mem_cons_of_mem y there

theorem Ordered.insert (h : fields.Ordered) (key : String) (value : Value) :
    Ordered (Fields.insert key value fields) := by
  induction fields with
  | nil => exact List.pairwise_singleton _ _
  | cons y rest ih =>
    obtain ⟨first, ordered⟩ := List.pairwise_cons.mp h
    unfold Fields.insert
    split_ifs with same below
    · subst same
      exact List.pairwise_cons.mpr ⟨first, ordered⟩
    · refine List.pairwise_cons.mpr ⟨fun x listed => ?_, h⟩
      rcases List.mem_cons.mp listed with rfl | later
      · exact below
      · exact String.lt_trans below (first x later)
    · refine List.pairwise_cons.mpr ⟨fun x listed => ?_, ih ordered⟩
      rcases mem_insert listed with rfl | later
      · exact (lt_or_gt_of_ne same).resolve_right below
      · exact first x later

theorem merge_nil (fields : Fields) : merge fields [] = fields := rfl

theorem Ordered.merge (h : earlier.Ordered) (later : Fields) : Ordered (Fields.merge earlier later) := by
  unfold Fields.merge
  induction later generalizing earlier with
  | nil => exact h
  | cons x rest ih => exact ih (h.insert x.1 x.2)

theorem get?_eq_none_iff : get? key fields = none ↔ key ∉ fields.keys := by
  induction fields with
  | nil => simp [keys]
  | cons x rest ih =>
    rw [get?]
    by_cases same : x.1 = key
    · simp [keys, same]
    · simpa [keys, same, Ne.symm same] using ih

theorem mem_of_get? (gives : get? key fields = some value) : (key, value) ∈ fields := by
  induction fields with
  | nil => cases gives
  | cons x rest ih =>
    rw [get?] at gives
    split_ifs at gives with same
    · obtain rfl := Option.some.inj gives
      exact same ▸ List.mem_cons_self
    · exact List.mem_cons_of_mem x (ih gives)

theorem Ordered.get?_eq_some_iff (h : fields.Ordered) : get? key fields = some value ↔ (key, value) ∈ fields := by
  refine ⟨mem_of_get?, fun listed => ?_⟩
  induction fields with
  | nil => cases listed
  | cons x rest ih =>
    rw [get?]
    rcases List.mem_cons.mp listed with rfl | later
    · rw [if_pos rfl]
    · have above : x.1 < key := (List.pairwise_cons.mp h).1 _ later
      rw [if_neg (ne_of_lt above)]
      exact ih h.tail later

theorem Ordered.get?_merge (h : later.Ordered) (key : String) (earlier : Fields) :
    get? key (Fields.merge earlier later) = (get? key later).or (get? key earlier) := by
  unfold Fields.merge
  induction later generalizing earlier with
  | nil => rfl
  | cons x rest ih =>
    rw [List.foldl_cons, ih h.tail, get?_insert, get?]
    by_cases same : x.1 = key
    · subst same
      have once : get? x.1 rest = none := by
        refine get?_eq_none_iff.mpr fun listed => ?_
        obtain ⟨y, later, again⟩ := List.mem_map.mp listed
        exact absurd again (ne_of_gt ((List.pairwise_cons.mp h).1 y later))
      rw [once, if_pos rfl, if_pos rfl]
      rfl
    · rw [if_neg same, if_neg (Ne.symm same)]

theorem get?_filter (p : String → Bool) :
    get? key (fields.filter fun x => p x.1) = if p key = true then get? key fields else none := by
  induction fields with
  | nil => simp
  | cons x rest ih =>
    rw [List.filter_cons]
    by_cases same : x.1 = key
    · subst same
      cases kept : p x.1 with
      | true => simp [get?]
      | false => simpa [kept] using ih
    · cases kept : p x.1 with
      | true => simpa [get?, same] using ih
      | false => simpa [get?, same] using ih

/-- Ordered fields that give the same for each key are the same. -/
theorem Ordered.ext (ha : a.Ordered) (hb : b.Ordered) (same : ∀ key, get? key a = get? key b) : a = b := by
  have members (x : String × Value) : x ∈ a ↔ x ∈ b := by
    rw [← ha.get?_eq_some_iff, ← hb.get?_eq_some_iff, same]
  have alike : a.Perm b := (List.perm_ext_iff_of_nodup ha.nodup hb.nodup).mpr members
  refine alike.eq_of_pairwise (fun x y _ _ below above => ?_) ha hb
  exact absurd below (String.lt_asymm above)

end Pageweave.Fields
