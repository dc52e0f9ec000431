import Pageweave.FileTree.Basic
import Pageweave.Proofs.Path.Joining
/-!
# Following names below a directory

A path that names are joined to leads on from where it led before, and a fault on the way stays the same fault. Without
links the names behind it only lead further down, and what they lead to is decided by what lies there.
-/
namespace Pageweave.FileTree

open Text

variable {t : FileTree} {through : Bool} {links : Nat} {start p : Place} {ss rest : List Step} {ns : List String}

/-- How steps are followed behind a link, as long as links are left. -/
def jump (t : FileTree) (through : Bool) : Nat → Place → List Step → Except FileFault Place
  | 0 => fun _ _ => .error .tooManyLinks
  | links + 1 => t.walk through links

theorem walk_eq (links : Nat) : t.walk through links = t.walkBy through (t.jump through links) := by
  cases links <;> rfl

/-- A walk that fails fails with any steps behind; otherwise the steps behind are followed from where it ends. -/
def Leads (t : FileTree) (walk : Place → List Step → Except FileFault Place) (start : Place) (ss : List Step) : Prop :=
  (∃ e, walk start ss = .error e ∧ ∀ rest, rest ≠ [] → walk start (ss ++ rest) = .error e) ∨
    ∃ p links, walk start ss = .ok p ∧ ∀ rest, rest ≠ [] → walk start (ss ++ rest) = t.walk true links p rest

section Steps

variable {jump : Place → List Step → Except FileFault Place}

/-- Why no step can be made from a place. -/
def obstacle (t : FileTree) (p : Place) : FileFault :=
  match t.get? p with
  | none => .missing
  | some _ => .notDirectory

theorem walkBy_obstacle (other : t.get? start ≠ some .directory) (some_step : rest ≠ []) :
    t.walkBy through jump start rest = .error (t.obstacle start) := by
  obtain ⟨s, rest, rfl⟩ := List.exists_cons_of_ne_nil some_step
  unfold walkBy obstacle
  cases there : t.get? start with
  | none => rfl
  | some n =>
    cases n with
    | file bytes => rfl
    | link target => rfl
    | directory => exact absurd there other

theorem walkBy_here (directory : t.get? start = some .directory) :
    t.walkBy through jump start (.here :: rest) = t.walkBy through jump start rest := by
  rw [walkBy.eq_def]
  simp only [directory]

theorem walkBy_up (directory : t.get? start = some .directory) :
    t.walkBy through jump start (.up :: rest) = t.walkBy through jump start.dropLast rest := by
  rw [walkBy.eq_def]
  simp only [directory]

theorem walkBy_name (directory : t.get? start = some .directory) (n : String) :
    t.walkBy true jump start (.name n :: rest) =
      if longestName < n.utf8ByteSize then .error .nameTooLong
      else
        match t.get? (start ++ [n]) with
        | some (.link target) => jump (if Path.isAbsolute target.toList then [] else start) (steps target ++ rest)
        | some _ => t.walkBy true jump (start ++ [n]) rest
        | none => if rest.isEmpty then .ok (start ++ [n]) else .error .missing := by
  rw [walkBy.eq_def]
  simp only [directory]
  by_cases long : longestName < n.utf8ByteSize
  · rw [if_pos long, if_pos long]
  · rw [if_neg long, if_neg long]
    cases t.get? (start ++ [n]) with
    | none => rfl
    | some node => cases node <;> simp

theorem walkBy_leads (same : t.walk true links = t.walkBy true jump) (jumps : ∀ start ss, t.Leads jump start ss)
    (start : Place) (ss : List Step) : t.Leads (t.walkBy true jump) start ss := by
  induction ss generalizing start with
  | nil => exact .inr ⟨start, links, by rw [walkBy.eq_def], fun rest _ => by rw [same, List.nil_append]⟩
  | cons s ss ih =>
    by_cases directory : t.get? start = some .directory
    · cases s with
      | here => simpa only [Leads, List.cons_append, walkBy_here directory] using ih start
      | up => simpa only [Leads, List.cons_append, walkBy_up directory] using ih start.dropLast
      | name n =>
        simp only [Leads, List.cons_append, walkBy_name directory]
        by_cases long : longestName < n.utf8ByteSize
        · left
          refine ⟨.nameTooLong, by rw [if_pos long], fun rest _ => by rw [if_pos long]⟩
        simp only [if_neg long]
        cases there : t.get? (start ++ [n]) with
        | none =>
          -- Only the last name may be vacant, and then nothing can follow it.
          by_cases last : ss = []
          · subst last
            refine .inr ⟨start ++ [n], links, rfl, fun rest some_step => ?_⟩
            have vacant : t.get? (start ++ [n]) ≠ some .directory := by simp [there]
            rw [same, walkBy_obstacle vacant some_step]
            simp [some_step, obstacle, there]
          · left
            refine ⟨.missing, by simp [last], fun rest some_step => by simp [last]⟩
        | some node =>
          cases node with
          | file bytes => simpa only [Leads] using ih (start ++ [n])
          | directory => simpa only [Leads] using ih (start ++ [n])
          | link target =>
            simp only [← List.append_assoc]
            exact jumps _ (steps target ++ ss)
    · left
      refine ⟨t.obstacle start, walkBy_obstacle directory (by simp), fun rest _ => walkBy_obstacle directory (by simp)⟩

end Steps

theorem walk_leads (links : Nat) (start : Place) (ss : List Step) : t.Leads (t.walk true links) start ss := by
  induction links generalizing start ss with
  | zero =>
    rw [walk_eq]
    exact walkBy_leads (walk_eq 0) (fun _ _ => .inl ⟨.tooManyLinks, rfl, fun _ _ => rfl⟩) start ss
  | succ links ih =>
    rw [walk_eq]
    exact walkBy_leads (walk_eq (links + 1)) ih start ss

/-- A walk as it ends, and the same walk with steps behind it. -/
def GoesOn (t : FileTree) (links : Nat) (start : Place) (ss rest behind : List Step) : Prop :=
  (∃ e, t.walk true links start ss = .error e ∧ t.walk true links start (rest ++ behind) = .error e) ∨
    ∃ p links', t.walk true links start ss = .ok p ∧
      t.walk true links start (rest ++ behind) = t.walk true links' p behind

theorem goesOn (t : FileTree) (links : Nat) (start : Place) (ss : List Step) {behind : List Step}
    (some_step : behind ≠ []) : t.GoesOn links start ss ss behind := by
  rcases walk_leads links start ss with ⟨e, fails, always⟩ | ⟨p, links', ends, always⟩
  · exact .inl ⟨e, fails, always behind some_step⟩
  · exact .inr ⟨p, links', ends, always behind some_step⟩

theorem goesOn_here (t : FileTree) (links : Nat) (start : Place) (ss : List Step) {behind : List Step}
    (some_step : behind ≠ []) : t.GoesOn links start (ss ++ [.here]) ss behind := by
  rcases walk_leads links start ss with ⟨e, fails, always⟩ | ⟨p, links', ends, always⟩
  · exact .inl ⟨e, always [.here] (by simp), always behind some_step⟩
  · have stays := always [.here] (by simp)
    rw [walk_eq links'] at stays
    by_cases directory : t.get? p = some .directory
    · rw [walkBy_here directory, walkBy.eq_def] at stays
      exact .inr ⟨p, links', stays, always behind some_step⟩
    · rw [walkBy_obstacle directory (by simp)] at stays
      refine .inl ⟨t.obstacle p, stays, ?_⟩
      rw [always behind some_step, walk_eq, walkBy_obstacle directory some_step]

theorem steps_append (front back : List Char) :
    steps (String.ofList (front ++ '/' :: back)) = steps (String.ofList front) ++ steps (String.ofList back) := by
  simp only [steps, String.toList_ofList, pieces_append, List.map_append]

theorem steps_names (all : ∀ n ∈ ns, Path.IsName n.toList) (some_name : ns ≠ []) :
    steps (String.ofList (joined '/' (ns.map String.toList))) = ns.map .name := by
  have names : ∀ s ∈ ns.map String.toList, Path.IsName s := by simpa using all
  rw [steps, String.toList_ofList, Path.pieces_names names (by simpa using some_name), List.map_map]
  apply List.map_congr_left
  intro n listed
  obtain ⟨some_char, no_dot, no_dots, -⟩ := all n listed
  simp [some_char, no_dot, no_dots]

/-- What keeps a path from being followed at all. -/
def refusal? (path : String) : Option FileFault :=
  if path.toList.contains '\x00' then some .nulInName
  else if path = "" then some .missing
  else if longestPath ≤ path.utf8ByteSize then some .nameTooLong
  else none

theorem place_eq (t : FileTree) (through : Bool) (path : String) :
    t.place through path =
      match refusal? path with
      | some e => .error e
      | none => t.walk through mostLinks (if Path.isAbsolute path.toList then [] else t.base) (steps path) := by
  unfold place refusal?
  split_ifs <;> rfl

/-- The path that leads to where names joined to `root` begin. -/
def rootPath (root : String) : String := if root = "" then "." else root

theorem lead_eq_append (path : List Char) : ∃ slash, Path.lead path = path ++ slash := by
  rcases Path.lead_cases path with ⟨rfl, same⟩ | ⟨front, same, rfl | ⟨rfl, -⟩⟩
  · exact ⟨[], same⟩
  · exact ⟨[], by simp [same]⟩
  · exact ⟨['/'], same⟩

theorem refusal?_rootPath {root : String} {behind : List Char}
    (open_ : refusal? (String.ofList (Path.lead root.toList ++ behind)) = none) : refusal? (rootPath root) = none := by
  unfold rootPath
  by_cases empty : root = ""
  · rw [if_pos empty]
    decide
  rw [if_neg empty]
  obtain ⟨slash, leads⟩ := lead_eq_append root.toList
  have longer : String.ofList (Path.lead root.toList ++ behind) = root ++ String.ofList (slash ++ behind) := by
    rw [← String.toList_inj]
    simp [leads]
  rw [longer] at open_
  unfold refusal? at open_ ⊢
  split_ifs at open_ with nul _ long
  have clean : ¬root.toList.contains '\x00' = true := by
    intro there
    simp at nul there
    exact nul.1 there
  have short : ¬longestPath ≤ root.utf8ByteSize := by
    rw [String.utf8ByteSize_append] at long
    omega
  rw [if_neg clean, if_neg empty, if_neg short]

/-- Names joined to a path are followed from where it leads, or fail as it does. -/
theorem place_join (t : FileTree) (root : String) (all : ∀ n ∈ ns, Path.IsName n.toList) (some_name : ns ≠ [])
    (open_ : refusal? (Path.behind root ns) = none) :
    (∃ e, t.place true (rootPath root) = .error e ∧
      t.place true (Path.behind root ns) = .error e) ∨
    ∃ p links, t.place true (rootPath root) = .ok p ∧
      t.place true (Path.behind root ns) = t.walk true links p (ns.map .name) := by
  have names : ∀ s ∈ ns.map String.toList, Path.IsName s := by simpa using all
  have some_step : ns.map Step.name ≠ [] := by simpa using some_name
  have ends := steps_names all some_name
  rw [Path.behind_eq root all] at open_ ⊢
  rw [place_eq t true (rootPath root), refusal?_rootPath open_, place_eq, open_]
  simp only [String.toList_ofList]
  rcases Path.lead_cases root.toList with ⟨empty, leads⟩ | ⟨front, leads, slash | ⟨plain, some_char⟩⟩
  · have nothing : root = "" := by simpa using empty
    have dot : steps "." = [] ++ [.here] := by decide
    have relative : Path.isAbsolute (joined '/' (ns.map String.toList)) = false := Path.isAbsolute_joined names
    have relative_dot : Path.isAbsolute ".".toList = false := by decide
    rw [leads, List.nil_append, ends, rootPath, if_pos nothing, relative, relative_dot, dot]
    exact t.goesOn_here mostLinks t.base [] some_step
  · have some_root : root ≠ "" := by
      rintro rfl
      simp at slash
    have some_char : root.toList ≠ [] := by simpa using some_root
    have root_eq : root = String.ofList (front ++ '/' :: []) := by rw [← slash, String.ofList_toList]
    have stays : steps root = steps (String.ofList front) ++ [.here] := by
      rw [root_eq, steps_append]
      rfl
    have path_steps := steps_append front (joined '/' (ns.map String.toList))
    rw [Path.isAbsolute_lead some_char, leads, List.append_assoc, List.singleton_append, path_steps, ends, rootPath,
      if_neg some_root, stays]
    exact t.goesOn_here mostLinks _ (steps (String.ofList front)) some_step
  · have some_root : root ≠ "" := by simpa using some_char
    have path_steps := steps_append front (joined '/' (ns.map String.toList))
    rw [Path.isAbsolute_lead some_char, leads, List.append_assoc, List.singleton_append, path_steps, ends, rootPath,
      if_neg some_root, ← plain, String.ofList_toList]
    exact t.goesOn mostLinks _ (steps root) some_step

theorem mem_nodes_of_get? {q : Place} {n : Node} (there : t.get? q = some n) (other : n ≠ .directory) :
    (q, n) ∈ t.nodes := by
  unfold get? at there
  split at there
  · exact absurd (Option.some.inj there).symm other
  · obtain ⟨⟨place, node⟩, found, rfl⟩ := Option.map_eq_some_iff.mp there
    have same : place = q := by simpa using List.find?_some found
    exact same ▸ List.mem_of_find?_eq_some found

def LinkFreeBelow (t : FileTree) (p : Place) : Prop := ∀ q, p <+: q → ∀ target, t.get? q ≠ some (.link target)

theorem linkFreeBelow_of_nodes (free : ∀ e ∈ t.nodes, ∀ target, e.2 ≠ .link target) (p : Place) : t.LinkFreeBelow p := by
  intro q _ target there
  exact free _ (mem_nodes_of_get? there nofun) target rfl

theorem LinkFreeBelow.deeper (free : t.LinkFreeBelow p) (n : String) : t.LinkFreeBelow (p ++ [n]) :=
  fun q below => free q ((List.prefix_append p [n]).trans below)

/-- Two trees hold the same at a place and below it, and no link. -/
structure SameBelow (a b : FileTree) (p : Place) : Prop where
  get?_eq : ∀ q, p <+: q → a.get? q = b.get? q
  children_eq : ∀ q, p <+: q → a.children q = b.children q
  linkFree : a.LinkFreeBelow p

theorem SameBelow.deeper {a b : FileTree} (same : a.SameBelow b p) (n : String) : a.SameBelow b (p ++ [n]) where
  get?_eq q below := same.get?_eq q ((List.prefix_append p [n]).trans below)
  children_eq q below := same.children_eq q ((List.prefix_append p [n]).trans below)
  linkFree := same.linkFree.deeper n

/-- Without links names lead further down, alike in both trees. -/
theorem walk_names_congr {a b : FileTree} {links' : Nat} (same : a.SameBelow b p) (ns : List String) :
    a.walk true links p (ns.map .name) = b.walk true links' p (ns.map .name) := by
  rw [walk_eq, walk_eq]
  induction ns generalizing p with
  | nil => rfl
  | cons n ns ih =>
    have get_eq := same.get?_eq p (List.prefix_refl p)
    have next_eq := same.get?_eq (p ++ [n]) (List.prefix_append p [n])
    have rest := ih (same.deeper n)
    rw [List.map_cons]
    by_cases directory : a.get? p = some .directory
    · rw [walkBy_name directory, walkBy_name (get_eq ▸ directory), ← next_eq]
      cases there : a.get? (p ++ [n]) with
      | none => rfl
      | some node =>
        cases node with
        | file bytes => simp only [rest]
        | directory => simp only [rest]
        | link target => exact absurd there (same.linkFree _ (List.prefix_append p [n]) target)
    · have obstacle_eq : a.obstacle p = b.obstacle p := by
        unfold obstacle
        rw [get_eq]
      rw [walkBy_obstacle directory (by simp), walkBy_obstacle (get_eq ▸ directory) (by simp), obstacle_eq]

/-- A file at the end of some names, with directories on the way. -/
def HasFile (t : FileTree) (p : Place) : List String → Prop
  | [] => ∃ bytes, t.get? p = some (.file bytes)
  | n :: ns => t.get? p = some .directory ∧ HasFile t (p ++ [n]) ns

/-- What names lead to without links, and that only directories are passed. -/
theorem walk_names_eq_ok {r : Place} (free : t.LinkFreeBelow p)
    (ends : t.walk true links p (ns.map .name) = .ok r) :
    r = p ++ ns ∧ ((∃ bytes, t.get? r = some (.file bytes)) → t.HasFile p ns) := by
  rw [walk_eq] at ends
  induction ns generalizing p with
  | nil =>
    obtain rfl : p = r := by simpa [walkBy.eq_def] using ends
    exact ⟨by simp, fun file => file⟩
  | cons n ns ih =>
    rw [List.map_cons] at ends
    by_cases directory : t.get? p = some .directory
    · rw [walkBy_name directory] at ends
      split at ends
      · cases ends
      · cases there : t.get? (p ++ [n]) with
        | none =>
          rw [there] at ends
          cases ns with
          | nil =>
            obtain rfl : p ++ [n] = r := by simpa using ends
            exact ⟨rfl, fun ⟨bytes, file⟩ => by rw [there] at file; cases file⟩
          | cons m ns => simp at ends
        | some node =>
          rw [there] at ends
          have no_link := free (p ++ [n]) (List.prefix_append p [n])
          cases node with
          | link target => exact absurd there (no_link target)
          | file bytes =>
            obtain ⟨rfl, passed⟩ := ih (free.deeper n) ends
            exact ⟨by simp, fun file => ⟨directory, passed file⟩⟩
          | directory =>
            obtain ⟨rfl, passed⟩ := ih (free.deeper n) ends
            exact ⟨by simp, fun file => ⟨directory, passed file⟩⟩
    · rw [walkBy_obstacle directory (by simp)] at ends
      cases ends

/-- A file is reached by the names that lead to it, unless one of them is too long. -/
theorem HasFile.walk (file : t.HasFile p ns) (links : Nat) :
    t.walk true links p (ns.map .name) = .ok (p ++ ns) ∨ t.walk true links p (ns.map .name) = .error .nameTooLong := by
  rw [walk_eq]
  induction ns generalizing p with
  | nil => simp [walkBy.eq_def]
  | cons n ns ih =>
    obtain ⟨directory, rest⟩ := file
    rw [List.map_cons, walkBy_name directory]
    by_cases long : longestName < n.utf8ByteSize
    · exact .inr (if_pos long)
    · have deeper := ih rest
      rw [List.append_assoc, List.singleton_append] at deeper
      rw [if_neg long]
      cases ns with
      | nil =>
        obtain ⟨bytes, there⟩ := rest
        rw [there]
        exact deeper
      | cons m ns =>
        rw [rest.1]
        exact deeper

/-- Nothing but absence can end a walk along these names: they are short, and no file is passed. -/
structure PassableBelow (t : FileTree) (p : Place) (ns : List String) : Prop where
  short : ∀ n ∈ ns, n.utf8ByteSize ≤ longestName
  no_file : ∀ front, front <+: ns → front ≠ ns → ¬t.HasFile p front

theorem PassableBelow.deeper {n : String} (passable : t.PassableBelow p (n :: ns))
    (directory : t.get? p = some .directory) : t.PassableBelow (p ++ [n]) ns where
  short m listed := passable.short m (List.mem_cons_of_mem n listed)
  no_file front before other file := by
    apply passable.no_file (n :: front) ((List.prefix_cons_inj n).mpr before)
    · simpa using other
    · exact ⟨directory, file⟩

theorem PassableBelow.walk (passable : t.PassableBelow p ns) (free : t.LinkFreeBelow p) (links : Nat) :
    t.walk true links p (ns.map .name) = .ok (p ++ ns) ∨ t.walk true links p (ns.map .name) = .error .missing := by
  rw [walk_eq]
  induction ns generalizing p with
  | nil => simp [walkBy.eq_def]
  | cons n ns ih =>
    have no_file := passable.no_file [] List.nil_prefix (by simp)
    cases there : t.get? p with
    | none =>
      right
      rw [walkBy_obstacle (by simp [there]) (by simp), obstacle, there]
    | some node =>
      cases node with
      | file bytes => exact absurd ⟨bytes, there⟩ no_file
      | link target => exact absurd there (free p (List.prefix_refl p) target)
      | directory =>
        have long : ¬longestName < n.utf8ByteSize := not_lt_of_ge (passable.short n List.mem_cons_self)
        have deeper := ih (passable.deeper there) (free.deeper n)
        rw [List.append_assoc, List.singleton_append] at deeper
        rw [List.map_cons, walkBy_name there, if_neg long]
        cases next : t.get? (p ++ [n]) with
        | none => cases ns <;> simp
        | some below =>
          cases below with
          | link target => exact absurd next (free _ (List.prefix_append p [n]) target)
          | file bytes => exact deeper
          | directory => exact deeper

theorem HasFile.get? (file : t.HasFile p ns) : ∃ bytes, t.get? (p ++ ns) = some (.file bytes) := by
  induction ns generalizing p with
  | nil =>
    rw [List.append_nil]
    exact file
  | cons n ns ih => simpa using ih file.2

end Pageweave.FileTree
