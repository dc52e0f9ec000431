import Pageweave.Cache.Log
/-!
# What the log of invalidations knows

After any invalidations the log holds the latest of them with their places. From a place on it answers with exactly the
keys recorded since, unless these are more than it can hold.
-/
namespace Pageweave.Cache.Log

/-- Keys with consecutive places. -/
def placed (first : Nat) (ks : List Key) : List (Nat × Key) := (ks.zipIdx first).map Prod.swap

/-- The log after exactly these invalidations, in this order. -/
structure Records (l : Log) (ks : List Key) : Prop where
  next : l.next = ks.length
  recent : l.recent = placed (ks.length - capacity) (ks.drop (ks.length - capacity))

@[simp] theorem length_placed (first : Nat) (ks : List Key) : (placed first ks).length = ks.length := by
  simp only [placed, List.length_map, List.length_zipIdx]

theorem placed_cons (first : Nat) (k : Key) (ks : List Key) :
    placed first (k :: ks) = (first, k) :: placed (first + 1) ks := rfl

theorem placed_append (first : Nat) (ks : List Key) (k : Key) :
    placed first (ks ++ [k]) = placed first ks ++ [(first + ks.length, k)] := by
  simp [placed, List.zipIdx_append]

theorem drop_placed (first n : Nat) (ks : List Key) :
    (placed first ks).drop n = placed (first + n) (ks.drop n) := by
  induction n generalizing first ks with
  | zero => rfl
  | succ n ih =>
    cases ks with
    | nil => rfl
    | cons k ks =>
      rw [placed_cons, List.drop_succ_cons, List.drop_succ_cons, ih, show first + 1 + n = first + (n + 1) by omega]

theorem map_snd_placed (first : Nat) (ks : List Key) : (placed first ks).map Prod.snd = ks := by
  simp [placed, Function.comp_def]

theorem map_fst_placed (first : Nat) (ks : List Key) :
    (placed first ks).map Prod.fst = List.range' first ks.length := by
  simp [placed, Function.comp_def]

theorem filter_placed (first m : Nat) (ks : List Key) :
    (placed first ks).filter (fun e => m ≤ e.1) = (placed first ks).drop (m - first) := by
  induction ks generalizing first with
  | nil => simp [placed]
  | cons k ks ih =>
    rw [placed_cons]
    by_cases late : m ≤ first
    · have all : (placed (first + 1) ks).filter (fun e => m ≤ e.1) = placed (first + 1) ks := by
        rw [ih, Nat.sub_eq_zero_of_le (by omega), List.drop_zero]
      simp [late, all, Nat.sub_eq_zero_of_le late]
    · have shift : m - first = m - (first + 1) + 1 := by omega
      simp only [List.filter_cons, decide_eq_true_eq, if_neg late, ih, shift, List.drop_succ_cons]

theorem records_nil : Records {} [] := ⟨rfl, rfl⟩

theorem records_record {l : Log} {ks : List Key} (h : Records l ks) (k : Key) :
    Records (l.record k) (ks ++ [k]) := by
  have size : l.recent.length = ks.length - (ks.length - capacity) := by
    rw [h.recent, length_placed, List.length_drop]
  have room : 0 < capacity := by decide
  refine ⟨by simp [record, h.next], ?_⟩
  have kept : (if l.recent.length = capacity then l.recent.drop 1 else l.recent) =
      placed (ks.length + 1 - capacity) (ks.drop (ks.length + 1 - capacity)) := by
    split
    · rename_i full
      have more : ks.length + 1 - capacity = ks.length - capacity + 1 := by omega
      rw [h.recent, drop_placed, List.drop_drop, more]
    · rename_i notFull
      have same : ks.length + 1 - capacity = ks.length - capacity := by omega
      rw [h.recent, same]
  have fits : ks.length + 1 - capacity ≤ ks.length := by omega
  have place : ks.length + 1 - capacity + (ks.drop (ks.length + 1 - capacity)).length = ks.length := by
    rw [List.length_drop]
    omega
  simp only [record]
  rw [kept, h.next, List.length_append, List.length_singleton, List.drop_append_of_le_length fits,
    placed_append, place]

theorem records_foldl {l : Log} {old : List Key} (h : Records l old) (ks : List Key) :
    Records (ks.foldl record l) (old ++ ks) := by
  induction ks generalizing l old with
  | nil => simpa using h
  | cons k ks ih => simpa using ih (records_record h k)

private theorem oldest_of_records {l : Log} {ks : List Key} (h : Records l ks) :
    l.oldest = ks.length - capacity := by
  have room : 0 < capacity := by decide
  unfold oldest
  rw [h.recent, h.next]
  cases left : ks.drop (ks.length - capacity) with
  | nil =>
    have nothing := congrArg List.length left
    simp only [List.length_drop, List.length_nil] at nothing
    simp only [placed, List.zipIdx_nil, List.map_nil]
    omega
  | cons k rest => rw [placed_cons]

/-- The log never leaves out an invalidation silently. From a place that is not reached yet there are none. -/
theorem since?_of_records {l : Log} {ks : List Key} (h : Records l ks) (m : Nat) :
    l.since? m = if ks.length - m ≤ capacity then some (ks.drop m) else none := by
  unfold since?
  rw [oldest_of_records h]
  by_cases fits : ks.length - m ≤ capacity
  · have skip : ks.length - capacity + (m - (ks.length - capacity)) = m := by omega
    rw [if_neg (by omega), if_pos fits, h.recent, filter_placed, drop_placed, List.drop_drop, map_snd_placed, skip]
  · rw [if_pos (by omega), if_neg fits]

/-- Whatever is recorded in an empty log, it counts all of the keys and holds the last 1024 of them, or all if there are
no more, at consecutive places up to the latest. Asked for the keys from a place on, it answers with each of them in
their order, or with nothing at all if they are more than 1024. -/
theorem latest_are_known (ks : List Key) :
    let l := ks.foldl record {}
    let held := min ks.length 1024
    l.next = ks.length ∧
      l.recent.map Prod.snd = ks.drop (ks.length - held) ∧
      l.recent.map Prod.fst = List.range' (ks.length - held) held ∧
      ∀ m, l.since? m = if ks.length - m ≤ 1024 then some (ks.drop m) else none := by
  intro l held
  have recorded : Records l ks := records_foldl records_nil ks
  have first : ks.length - capacity = ks.length - held := by
    simp only [capacity, held]
    omega
  have kept : (ks.drop (ks.length - held)).length = held := by
    simp only [List.length_drop, held]
    omega
  refine ⟨recorded.next, ?_, ?_, since?_of_records recorded⟩
  · rw [recorded.recent, map_snd_placed, first]
  · rw [recorded.recent, map_fst_placed, first, kept]

end Pageweave.Cache.Log
