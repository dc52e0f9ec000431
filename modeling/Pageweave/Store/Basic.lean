import Pageweave.Error
/-!
# Stores

Where the texts of templates come from: a name, the text of a key if there is one, and the keys that can be had. A
store knows all the texts it may give, so that following references from text to text comes to an end.
-/
namespace Pageweave

structure Store where
  name : String
  read : Key → Except PageError (Option String)
  list : Except PageError (List Key)
  /-- Every text that can be read. -/
  texts : List String
  mem_texts : ∀ k text, read k = .ok (some text) → text ∈ texts

/-- Keys in ascending order, repetitions kept. -/
def Key.ordered (ks : List Key) : List Key := ks.mergeSort fun a b => a.name ≤ b.name

end Pageweave
