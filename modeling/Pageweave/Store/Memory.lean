import Pageweave.Bundled
import Pageweave.Names
import Pageweave.Store.Basic
/-!
# Texts in memory as a store

Keys with their texts, in ascending order of the keys; of several texts for one key the last is kept. The bundled
templates are such a store, the last one in the usual order.
-/
namespace Pageweave

/-- Texts by key. -/
abbrev Texts := List (Key × String)

namespace Texts

def insert (k : Key) (text : String) : Texts → Texts
  | [] => [(k, text)]
  | e :: rest =>
    if k = e.1 then (k, text) :: rest else if k < e.1 then (k, text) :: e :: rest else e :: insert k text rest

def get? (ts : Texts) (k : Key) : Option String := (ts.find? fun e => e.1 == k).map Prod.snd

/-- Texts under names with the usual extension or none. -/
def ofNames (pairs : List (String × String)) : Except PageError Texts :=
  pairs.foldlM (fun ts (name, text) => (Key.named Names.extension name).map fun k => insert k text ts) []

/-- The templates that come with the program. -/
def bundled : Texts := Bundled.templates.map fun (name, text) => (⟨name⟩, text)

end Texts

namespace Store

private theorem get?_mem {ts : Texts} (k : Key) (text : String)
    (h : (Except.ok (ts.get? k) : Except PageError (Option String)) = .ok (some text)) :
    text ∈ ts.map Prod.snd := by
  simp only [Except.ok.injEq, Texts.get?] at h
  obtain ⟨e, listed, same⟩ := Option.map_eq_some_iff.mp h
  exact List.mem_map.mpr ⟨e, List.mem_of_find?_eq_some listed, same⟩

/-- A store of texts in memory. -/
def memory (name : String) (ts : Texts) : Store where
  name := name
  read k := .ok (ts.get? k)
  list := .ok (ts.map Prod.fst)
  texts := ts.map Prod.snd
  mem_texts := get?_mem

end Store
end Pageweave
