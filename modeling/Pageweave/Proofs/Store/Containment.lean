import Pageweave.Proofs.FileTree.Listing
import Pageweave.Proofs.Key.Normal
import Pageweave.Proofs.Loading.Locality
/-!
# A directory store stays below its root

The key of any name at all leads along names below the root of a store, or is not looked for. So two trees that hold the
same below the roots, and no links there, cannot be told apart by finding, resolving or loading.
-/
namespace Pageweave

open Text

variable {e given name root : String} {k : Key} {front : List (List Char)} {last : List Char} {a b : FileTree}

namespace Key

/-- The names that a key's file is reached by. -/
def fileNames (front : List (List Char)) (last : List Char) (e : String) : List String :=
  (front ++ [last ++ '.' :: e.toList]).map String.ofList

theorem map_toList_fileNames (front : List (List Char)) (last : List Char) (e : String) :
    (fileNames front last e).map String.toList = front ++ [last ++ '.' :: e.toList] := by
  rw [fileNames, List.map_map]
  have same : String.toList ∘ String.ofList = id := by
    funext s
    simp
  rw [same, List.map_id]

theorem fileNames_ne_nil : fileNames front last e ≠ [] := by
  simp [fileNames]

namespace HasPieces

theorem isName_fileNames (h : k.HasPieces front last) (contained : k.isContained = true) (fits : FitsName e) :
    ∀ n ∈ fileNames front last e, Path.IsName n.toList := by
  intro n listed
  apply h.isName contained fits
  rw [← map_toList_fileNames front last e]
  exact List.mem_map_of_mem listed

theorem pathBelow_eq (h : k.HasPieces front last) (contained : k.isContained = true) (fits : FitsName e)
    (root : String) :
    Store.pathBelow root e k = Path.behind root (fileNames front last e) := by
  rw [Store.pathBelow, h.relativePath_eq contained fits, Path.behind, map_toList_fileNames]

end HasPieces
end Key

namespace FileTree

theorem node_eq (t : FileTree) (path : String) :
    t.node true path =
      match t.place true path with
      | .error f => .error f
      | .ok p => match t.get? p with
        | some n => .ok n
        | none => .error .missing := by
  unfold node
  cases t.place true path <;> rfl

theorem AgreeBelow.node_eq {ns : List String} (agree : a.AgreeBelow b root) (all : ∀ n ∈ ns, Path.IsName n.toList)
    (some_name : ns ≠ []) :
    a.node true (Path.behind root ns) = b.node true (Path.behind root ns) := by
  obtain ⟨place_eq, same⟩ := agree
  rw [FileTree.node_eq, FileTree.node_eq]
  cases refused : refusal? (Path.behind root ns) with
  | some f =>
    rw [FileTree.place_eq, FileTree.place_eq, refused]
  | none =>
    rcases a.place_join root all some_name refused with ⟨f, here, fails⟩ | ⟨p, links, here, goes⟩
    · rcases b.place_join root all some_name refused with ⟨f', here', fails'⟩ | ⟨p, links, here', goes⟩
      · rw [place_eq, here'] at here
        obtain rfl := Except.error.inj here
        rw [fails, fails']
      · rw [place_eq, here'] at here
        cases here
    · rcases b.place_join root all some_name refused with ⟨f', here', fails'⟩ | ⟨p', links', here', goes'⟩
      · rw [place_eq, here'] at here
        cases here
      · have below := same p here
        rw [place_eq, here'] at here
        have same_place : p' = p := Except.ok.inj here
        rw [same_place] at goes'
        have same_walk : a.walk true links p (ns.map .name) = b.walk true links' p (ns.map .name) :=
          walk_names_congr below ns
        rw [goes, goes', ← same_walk]
        cases ends : a.walk true links p (ns.map .name) with
        | error f => rfl
        | ok r =>
          obtain ⟨rfl, -⟩ := walk_names_eq_ok below.linkFree ends
          simp only [below.get?_eq _ (List.prefix_append p ns)]

theorem sameBelow_of_nodes {p : Place}
    (same : a.nodes.filter (fun e => decide (p <+: e.1)) = b.nodes.filter fun e => decide (p <+: e.1))
    (free : ∀ e ∈ a.nodes, ∀ target, e.2 ≠ .link target) : a.SameBelow b p where
  get?_eq q below := by
    have found (t : FileTree) : t.nodes.find? (fun e => e.1 == q) =
        (t.nodes.filter fun e => decide (p <+: e.1)).find? fun e => e.1 == q := by
      rw [List.find?_filter]
      congr 1
      funext e
      by_cases here : e.1 = q
      · simp [here, below]
      · simp [here]
    unfold get?
    rw [found a, found b, same]
  children_eq q below := by
    have found (t : FileTree) :
        t.children q = FileTree.children ⟨t.nodes.filter fun e => decide (p <+: e.1), t.base⟩ q := by
      unfold children
      simp only [List.filterMap_filter]
      congr 1
      apply List.filterMap_congr
      intro e _
      by_cases here : p <+: e.1
      · simp [here]
      · have elsewhere : e.1.dropLast ≠ q := fun inside =>
          here (below.trans (inside ▸ List.dropLast_prefix e.1))
        cases e.1.getLast? with
        | none => simp
        | some name => simp [elsewhere]
    rw [found a, found b, same]
    rfl
  linkFree := linkFreeBelow_of_nodes free p

end FileTree

namespace Store

/-- A key is looked for at its file alone. -/
theorem readBelow_congr (same : a.node true (pathBelow root e k) = b.node true (pathBelow root e k)) :
    readBelow a root e k = readBelow b root e k := by
  simp only [readBelow, same]

theorem readBelow_of_not_contained (outside : k.isContained = false) (t : FileTree) (root e : String) :
    readBelow t root e k = .ok none := by
  simp [readBelow, outside]

/-- What is read for the key of a name lies below the root. -/
theorem readBelow_agree (made : Key.ofName? given name = some k) (fits : Key.FitsName e) (agree : a.AgreeBelow b root) :
    readBelow a root e k = readBelow b root e k := by
  cases contained : k.isContained with
  | false => rw [readBelow_of_not_contained contained, readBelow_of_not_contained contained]
  | true =>
    obtain ⟨front, last, pieces⟩ := Key.hasPieces_of_ofName? made
    apply readBelow_congr
    rw [pieces.pathBelow_eq contained fits root]
    exact agree.node_eq (pieces.isName_fileNames contained fits) Key.fileNames_ne_nil

theorem listBelow_agree (agree : a.AgreeBelow b root) : listBelow a root e = listBelow b root e := by
  unfold listBelow
  rw [FileTree.filesBelow_congr agree]

end Store

namespace Stack

/-- Do two trees hold the same below the root of every directory? -/
def AgreeBelow (s : Stack) (a b : FileTree) : Prop :=
  ∀ origin ∈ s.origins, ∀ name root e, origin = .directory name root e → Key.FitsName e ∧ a.AgreeBelow b root

variable {s : Stack}

theorem AgreeBelow.read_eq (agree : s.AgreeBelow a b) (made : Key.ofName? given name = some k) {origin : Origin}
    (listed : origin ∈ s.origins) : (origin.store a).read k = (origin.store b).read k := by
  cases origin with
  | memory name texts => rfl
  | directory name root e =>
    obtain ⟨fits, below⟩ := agree _ listed name root e rfl
    change Store.readBelow a root e k = Store.readBelow b root e k
    exact Store.readBelow_agree made fits below

theorem AgreeBelow.list_eq (agree : s.AgreeBelow a b) {origin : Origin} (listed : origin ∈ s.origins) :
    (origin.store a).list = (origin.store b).list := by
  cases origin with
  | memory name texts => rfl
  | directory name root e =>
    obtain ⟨-, below⟩ := agree _ listed name root e rfl
    change Store.listBelow a root e = Store.listBelow b root e
    exact Store.listBelow_agree below

theorem name_store (t : FileTree) (origin : Origin) : (origin.store t).name = origin.name := by
  cases origin <;> rfl

theorem findIn_congr {origins : List Origin}
    (all : ∀ origin ∈ origins, (origin.store a).read k = (origin.store b).read k) :
    Locator.findIn (origins.map (Origin.store a)) k = Locator.findIn (origins.map (Origin.store b)) k := by
  induction origins with
  | nil => simp only [List.map_nil]
  | cons origin origins ih =>
    have first := all origin List.mem_cons_self
    have rest := ih fun o listed => all o (List.mem_cons_of_mem origin listed)
    simp only [List.map_cons, Locator.findIn, first, rest, name_store]

private theorem listInto_congr {origins : List Origin}
    (all : ∀ origin ∈ origins, (origin.store a).list = (origin.store b).list) (noted : List (Key × String)) :
    Locator.listInto (origins.map (Origin.store a)) noted = Locator.listInto (origins.map (Origin.store b)) noted := by
  induction origins generalizing noted with
  | nil => simp only [List.map_nil]
  | cons origin origins ih =>
    have first := all origin List.mem_cons_self
    have rest := ih fun o listed => all o (List.mem_cons_of_mem origin listed)
    simp only [List.map_cons, Locator.listInto, first, rest, name_store]

theorem AgreeBelow.find_eq (agree : s.AgreeBelow a b) (made : Key.ofName? given name = some k) :
    (s.locator a).find k = (s.locator b).find k :=
  findIn_congr fun _ listed => agree.read_eq made listed

theorem AgreeBelow.listing_eq (agree : s.AgreeBelow a b) : (s.locator a).list = (s.locator b).list :=
  listInto_congr (fun _ listed => agree.list_eq listed) []

theorem AgreeBelow.resolve_eq (agree : s.AgreeBelow a b) (made : Key.ofName? given name = some k) :
    (s.locator a).resolve k = (s.locator b).resolve k := by
  unfold Locator.resolve Locator.suggestions
  rw [agree.find_eq made, agree.listing_eq]

/-- No name leads out of a directory store: its key is never looked for, or at one file behind names below the root; and
what is found, resolved or loaded by it is decided by what lies below the roots, as long as no links lie there. -/
theorem contained_below (made : Key.ofName? given name = some k) :
    (∀ root e, Key.FitsName e →
      (∀ files, Store.readBelow files root e k = .ok none) ∨
      ∃ ns : List String, ns ≠ [] ∧ (∀ n ∈ ns, Path.IsName n.toList) ∧
        Store.pathBelow root e k = Path.join root (String.ofList (joined '/' (ns.map String.toList))) ∧
        Path.parts (Store.pathBelow root e k).toList =
          Path.parts root.toList ++ ns.map (fun n => .name n.toList) ∧
        ∀ files files', files.node true (Store.pathBelow root e k) = files'.node true (Store.pathBelow root e k) →
          Store.readBelow files root e k = Store.readBelow files' root e k) ∧
    ∀ (s : Stack) (a b : FileTree), s.AgreeBelow a b →
      (s.locator a).find k = (s.locator b).find k ∧ (s.locator a).resolve k = (s.locator b).resolve k ∧
        ∀ engine : Engine, s.extension = given → engine.load (s.locator a) k = engine.load (s.locator b) k := by
  constructor
  · intro root e fits
    cases contained : k.isContained with
    | false => exact .inl fun files => Store.readBelow_of_not_contained contained files root e
    | true =>
      right
      obtain ⟨front, last, pieces⟩ := Key.hasPieces_of_ofName? made
      have path := pieces.pathBelow_eq contained fits root
      have all := pieces.isName_fileNames contained fits
      have names : ∀ n ∈ (Key.fileNames front last e).map String.toList, Path.IsName n := by simpa using all
      refine ⟨Key.fileNames front last e, Key.fileNames_ne_nil, all, path, ?_, fun files files' => Store.readBelow_congr⟩
      rw [path, Path.behind_eq root all, String.toList_ofList,
        Path.parts_lead root.toList names (by simp [Key.fileNames]), List.map_map]
      rfl
  · intro s a b agree
    refine ⟨agree.find_eq made, agree.resolve_eq made, fun engine own => ?_⟩
    have same : (s.locator a).extension = (s.locator b).extension := rfl
    have named : Key.named (s.locator b).extension name = .ok k := by
      change Key.named s.extension name = .ok k
      rw [own, Key.named, made]
    refine Engine.load_congr same ?_ named engine
    intro other q found
    have of_name : Key.ofName? s.extension other = some q := by
      change Key.named s.extension other = .ok q at found
      unfold Key.named at found
      split at found
      · rename_i q' there
        rw [there, Except.ok.inj found]
      · cases found
    exact ⟨agree.find_eq of_name, agree.resolve_eq of_name⟩

/-- A page below `Templates`, and a secret beside it. -/
def guarded (secret : ByteArray) : FileTree where
  nodes := [(["Templates"], .directory), (["Templates", "page.html"], .file "page".toUTF8),
    (["secret.html"], .file secret)]

theorem agreeBelow_guarded (x y : ByteArray) : (standard "Templates" "html").AgreeBelow (guarded x) (guarded y) := by
  have leads (z : ByteArray) : (guarded z).place true (FileTree.rootPath "Templates") = .ok ["Templates"] := rfl
  intro origin listed name root e directory
  subst directory
  obtain ⟨rfl, rfl, rfl⟩ : name = Names.projectStore ∧ root = "Templates" ∧ e = "html" := by
    simpa [standard] using listed
  refine ⟨by decide, (leads x).trans (leads y).symm, fun p there => ?_⟩
  obtain rfl : ["Templates"] = p := by
    rw [leads x] at there
    exact Except.ok.inj there
  apply FileTree.sameBelow_of_nodes
  · rfl
  · simp [guarded]

theorem guarded_page_contained_below :
    Key.ofName? "html" ".\\page.html" = some ⟨"page"⟩ ∧ Key.FitsName "html" ∧
      (standard "Templates" "html").AgreeBelow (guarded "a".toUTF8) (guarded "b".toUTF8) ∧
      ((standard "Templates" "html").locator (guarded "a".toUTF8)).find ⟨"page"⟩ =
        ((standard "Templates" "html").locator (guarded "b".toUTF8)).find ⟨"page"⟩ ∧
      ((standard "Templates" "html").locator (guarded "a".toUTF8)).find ⟨"page"⟩ =
        .ok (some ⟨⟨"page"⟩, "page", Names.projectStore⟩) := by
  have made : Key.ofName? "html" ".\\page.html" = some ⟨"page"⟩ := by decide +kernel
  have agree := agreeBelow_guarded "a".toUTF8 "b".toUTF8
  exact ⟨made, by decide, agree, ((contained_below made).2 _ _ _ agree).1, by decide +kernel⟩

end Stack
end Pageweave
