import Mathlib.Data.List.Induction
import Pageweave.Proofs.Text.Letters
import Pageweave.Request
/-!
# What the headers say

Headers are read one by one, and one of the eight names at most is that of a header. So a name is answered by its own
headers alone: three names by whether there is one, five by what the last one carries. Headers of other names, and the
order of headers of different names, do not matter.
-/
namespace Pageweave.Htmx

variable {name a b : String} {headers others front back : List (String × String)} {x y : String × String} {h : Htmx}

theorem sameWord_congr (same : Text.sameWord a b = true) (name : String) :
    Text.sameWord a name = Text.sameWord b name := by
  rw [Text.sameWord, Text.sameLetters, Text.map_toLower_of_sameLetters same]
  rfl

theorem sameWord_of_common (first : Text.sameWord a name = true) (second : Text.sameWord b name = true) :
    Text.sameWord a b = true := by
  have chars := Text.map_toLower_of_sameLetters first
  rw [← Text.map_toLower_of_sameLetters second] at chars
  simpa [Text.sameWord, Text.sameLetters] using chars

private theorem sole_name (listed : a ∈ requestHeaders) (same : Text.sameWord name a = true) :
    ∀ b ∈ requestHeaders, Text.sameWord name b = decide (a = b) := by
  have table : ∀ a ∈ requestHeaders, ∀ b ∈ requestHeaders, Text.sameWord a b = decide (a = b) := by decide +kernel
  intro b listed'
  rw [sameWord_congr same, table a listed b listed']

/-- So the eight questions are asked each on its own. -/
theorem read_eq (h : Htmx) (x : String × String) :
    h.read x = {
      request := h.request || Text.sameWord x.1 requestHeader
      boosted := h.boosted || Text.sameWord x.1 boostedHeader
      historyRestore := h.historyRestore || Text.sameWord x.1 historyRestoreHeader
      currentUrl := if Text.sameWord x.1 currentUrlHeader then filled? x.2 else h.currentUrl
      prompt := if Text.sameWord x.1 promptHeader then filled? x.2 else h.prompt
      target := if Text.sameWord x.1 targetHeader then filled? x.2 else h.target
      trigger := if Text.sameWord x.1 triggerHeader then filled? x.2 else h.trigger
      triggerName := if Text.sameWord x.1 triggerNameHeader then filled? x.2 else h.triggerName } := by
  by_cases known : ∃ a ∈ requestHeaders, Text.sameWord x.1 a = true
  · obtain ⟨a, listed, same⟩ := known
    have answers := sole_name listed same
    simp only [requestHeaders, List.forall_mem_cons] at answers
    obtain ⟨request, boosted, currentUrl, historyRestore, prompt, target, trigger, triggerName, -⟩ := answers
    simp only [read, request, boosted, currentUrl, historyRestore, prompt, target, trigger, triggerName]
    simp only [requestHeaders, List.mem_cons, List.not_mem_nil, or_false] at listed
    rcases listed with rfl | rfl | rfl | rfl | rfl | rfl | rfl | rfl <;>
      simp [requestHeader, boostedHeader, currentUrlHeader, historyRestoreHeader, promptHeader, targetHeader,
        triggerHeader, triggerNameHeader]
  · simp only [requestHeaders, List.mem_cons, List.not_mem_nil, or_false, exists_eq_or_imp, exists_eq_left, not_or,
      Bool.not_eq_true] at known
    simp [read, known]

/-- The headers of a name, in their order. -/
def named (name : String) (headers : List (String × String)) : List (String × String) :=
  headers.filter fun x => Text.sameWord x.1 name

/-- What the last header of a name carries, without the blanks around it, unless nothing is left of it. -/
def carried? (name : String) (headers : List (String × String)) : Option String :=
  ((named name headers).getLast?.map fun x => Text.trim x.2).filter (· ≠ "")

theorem named_concat (name : String) (headers : List (String × String)) (x : String × String) :
    named name (headers ++ [x]) = if Text.sameWord x.1 name then named name headers ++ [x] else named name headers := by
  unfold named
  rw [List.filter_append]
  split
  · next same => simp [same]
  · next other => simp [other]

theorem carried?_concat (name : String) (headers : List (String × String)) (x : String × String) :
    carried? name (headers ++ [x]) = if Text.sameWord x.1 name then filled? x.2 else carried? name headers := by
  unfold carried?
  rw [named_concat]
  split
  · by_cases blank : Text.trim x.2 = ""
    · simp [filled?, blank]
    · simp [filled?, blank]
  · rfl

theorem ofHeaders_eq (headers : List (String × String)) :
    ofHeaders headers = {
      request := !(named requestHeader headers).isEmpty
      boosted := !(named boostedHeader headers).isEmpty
      historyRestore := !(named historyRestoreHeader headers).isEmpty
      currentUrl := carried? currentUrlHeader headers
      prompt := carried? promptHeader headers
      target := carried? targetHeader headers
      trigger := carried? triggerHeader headers
      triggerName := carried? triggerNameHeader headers } := by
  -- from the right, because the last header of a name wins
  induction headers using List.reverseRecOn with
  | nil => rfl
  | append_singleton headers x ih =>
    have present (name : String) : (!(named name (headers ++ [x])).isEmpty) =
        (!(named name headers).isEmpty || Text.sameWord x.1 name) := by
      rw [named_concat]
      cases Text.sameWord x.1 name <;> simp
    have step : ofHeaders (headers ++ [x]) = (ofHeaders headers).read x := by simp [ofHeaders]
    rw [step, ih, read_eq]
    simp only [present, carried?_concat]

/-- What is read of headers, field by field. -/
structure Says (headers : List (String × String)) (h : Htmx) : Prop where
  request : h.request = true ↔ ∃ x ∈ headers, Text.sameWord x.1 requestHeader = true
  boosted : h.boosted = true ↔ ∃ x ∈ headers, Text.sameWord x.1 boostedHeader = true
  historyRestore : h.historyRestore = true ↔ ∃ x ∈ headers, Text.sameWord x.1 historyRestoreHeader = true
  currentUrl : h.currentUrl = carried? currentUrlHeader headers
  prompt : h.prompt = carried? promptHeader headers
  target : h.target = carried? targetHeader headers
  trigger : h.trigger = carried? triggerHeader headers
  triggerName : h.triggerName = carried? triggerNameHeader headers

theorem says_ofHeaders (headers : List (String × String)) : Says headers (ofHeaders headers) := by
  have present (name : String) : (!(named name headers).isEmpty) = true ↔
      ∃ x ∈ headers, Text.sameWord x.1 name = true := by
    simp [named, List.filter_eq_nil_iff]
  rw [ofHeaders_eq]
  exact ⟨present _, present _, present _, rfl, rfl, rfl, rfl, rfl⟩

/-- Only the headers of the eight names count, each name for itself. -/
theorem ofHeaders_congr (same : ∀ name ∈ requestHeaders, named name headers = named name others) :
    ofHeaders headers = ofHeaders others := by
  simp only [requestHeaders, List.forall_mem_cons] at same
  obtain ⟨request, boosted, currentUrl, historyRestore, prompt, target, trigger, triggerName, -⟩ := same
  rw [ofHeaders_eq, ofHeaders_eq]
  simp only [carried?, request, boosted, currentUrl, historyRestore, prompt, target, trigger, triggerName]

/-- Headers that differ by headers of other names, anywhere, and by the order of headers of different names. -/
inductive Rearranged : List (String × String) → List (String × String) → Prop where
  | refl (headers : List (String × String)) : Rearranged headers headers
  | without (front back : List (String × String)) {x : String × String}
      (other : ∀ name ∈ requestHeaders, Text.sameWord x.1 name = false) : Rearranged (front ++ x :: back) (front ++ back)
  | swapped (front back : List (String × String)) {x y : String × String} (differ : Text.sameWord x.1 y.1 = false) :
      Rearranged (front ++ x :: y :: back) (front ++ y :: x :: back)
  | symm {headers others : List (String × String)} (alike : Rearranged headers others) : Rearranged others headers
  | trans {headers middle others : List (String × String)} (first : Rearranged headers middle)
      (second : Rearranged middle others) : Rearranged headers others

theorem Rearranged.named_eq (alike : Rearranged headers others) :
    ∀ name ∈ requestHeaders, named name headers = named name others := by
  induction alike with
  | refl => intros; rfl
  | without front back other =>
    intro name listed
    simp [named, List.filter_append, other name listed]
  | @swapped front back x y differ =>
    intro name _
    have not_both : Text.sameWord x.1 name = true → Text.sameWord y.1 name = false := by
      intro first
      rw [← Bool.not_eq_true]
      intro second
      rw [sameWord_of_common first second] at differ
      cases differ
    simp only [named, List.filter_append, List.filter_cons]
    by_cases first : Text.sameWord x.1 name = true
    · simp [first, not_both first]
    · simp [first]
  | symm _ ih => exact fun name listed => (ih name listed).symm
  | trans _ _ first second => exact fun name listed => (first name listed).trans (second name listed)

/-- Each name is answered by its own headers, so all else about the headers may change. -/
theorem read_by_name (headers : List (String × String)) :
    Says headers (ofHeaders headers) ∧
    (∀ others, (∀ name ∈ requestHeaders, named name others = named name headers) →
      ofHeaders others = ofHeaders headers) ∧
    (∀ others, Rearranged headers others → ofHeaders others = ofHeaders headers) ∧
    ∀ path token values,
      ({ Request.ofHeaders path headers with token, values } : Request).wantsFragment = true ↔
        ∃ x ∈ headers, Text.sameWord x.1 requestHeader = true := by
  refine ⟨says_ofHeaders headers, fun others same => ofHeaders_congr same, ?_, ?_⟩
  · intro others alike
    exact ofHeaders_congr alike.symm.named_eq
  · intro path token values
    exact (says_ofHeaders headers).request

theorem blank_target_read_by_name :
    Rearranged [("hx-request", "false"), ("HX-Target", "list"), ("Accept", "text/html"), ("hx-target", " ")]
      [("HX-Target", "list"), ("hx-target", " "), ("hx-request", "false")] ∧
    ofHeaders [("HX-Target", "list"), ("hx-target", " "), ("hx-request", "false")] =
      ofHeaders [("hx-request", "false"), ("HX-Target", "list"), ("Accept", "text/html"), ("hx-target", " ")] ∧
    ofHeaders [("hx-request", "false"), ("HX-Target", "list"), ("Accept", "text/html"), ("hx-target", " ")] =
      fragment := by
  have alike : Rearranged
      [("hx-request", "false"), ("HX-Target", "list"), ("Accept", "text/html"), ("hx-target", " ")]
      [("HX-Target", "list"), ("hx-target", " "), ("hx-request", "false")] := by
    apply Rearranged.trans (.without [("hx-request", "false"), ("HX-Target", "list")] [("hx-target", " ")] ?_)
    · apply Rearranged.trans (.swapped [] [("hx-target", " ")] ?_)
      · exact .swapped [("HX-Target", "list")] [] (by decide +kernel)
      · decide +kernel
    · decide +kernel
  exact ⟨alike, (read_by_name _).2.2.1 _ alike, by decide +kernel⟩

end Pageweave.Htmx
