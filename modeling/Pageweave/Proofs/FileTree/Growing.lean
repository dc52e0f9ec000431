import Mathlib.Data.List.Induction
import Mathlib.Logic.Relation
import Pageweave.FileTree.Change
import Pageweave.Proofs.FileTree.Moves
import Pageweave.Proofs.Sequence
import Pageweave.Proofs.Store.Containment
/-!
# Growing trees

A tree grows when files and directories come where nothing was. All that could be reached before is still there, at the
same path; what was missing may be there now. Creating directories only lets a tree grow, and a second time does nothing.
-/
namespace Pageweave.FileTree

variable {a b c t : FileTree} {through : Bool} {links : Nat} {start p q : Place} {ss : List Step} {path : String}
  {n : Node}

/-! ## What stays -/

/-- All that was there is still there, and no link is new. -/
structure Grows (a b : FileTree) : Prop where
  base_eq : b.base = a.base
  kept : ∀ p n, a.get? p = some n → b.get? p = some n
  no_link : ∀ p target, b.get? p = some (.link target) → a.get? p = some (.link target)

theorem Grows.refl (t : FileTree) : t.Grows t := ⟨rfl, fun _ _ there => there, fun _ _ there => there⟩

theorem Grows.trans (first : a.Grows b) (second : b.Grows c) : a.Grows c where
  base_eq := second.base_eq.trans first.base_eq
  kept p n there := second.kept p n (first.kept p n there)
  no_link p target there := first.no_link p target (second.no_link p target there)

theorem ne_nil_of_vacant (vacant : t.get? q = none) : q ≠ [] := by
  rintro rfl
  cases vacant

theorem get?_set (some_name : q ≠ []) (p : Place) (n : Node) :
    (t.set q n).get? p = if p = q then some n else t.get? p := by
  by_cases same : p = q
  · subst same
    have absent : (t.nodes.filter fun e => !(e.1 == p)).find? (fun e => e.1 == p) = none := by
      rw [List.find?_filter]
      simp
    simp [get?, set, erase, some_name, List.find?_append, absent]
  · have other : (q == p) = false := by simpa using Ne.symm same
    have kept : (t.nodes.filter fun e => !(e.1 == q)).find? (fun e => e.1 == p) = t.nodes.find? fun e => e.1 == p := by
      rw [List.find?_filter]
      congr 1
      funext e
      by_cases here : e.1 = p
      · simp [here, same]
      · simp [here]
    simp [get?, set, erase, same, List.find?_append, kept, other]

theorem grows_set (vacant : t.get? q = none) (no_link : ∀ target, n ≠ .link target) : t.Grows (t.set q n) where
  base_eq := rfl
  kept p m there := by
    rw [get?_set (ne_nil_of_vacant vacant), if_neg]
    · exact there
    · rintro rfl
      rw [vacant] at there
      cases there
  no_link p target there := by
    rw [get?_set (ne_nil_of_vacant vacant)] at there
    split at there
    · exact absurd (Option.some.inj there) (no_link target)
    · exact there

/-- A walk that comes to its end comes to the same end when the tree has grown. -/
theorem Grows.walk (grows : a.Grows b) (ends : a.walk through links start ss = .ok p) :
    b.walk through links start ss = .ok p := by
  have walks := walk_eq_ok_iff.mp ends
  apply walk_eq_ok_iff.mpr
  clear ends
  induction walks with
  | stop p => exact .stop p
  | here directory _ ih => exact .here (grows.kept _ _ directory) ih
  | up directory _ ih => exact .up (grows.kept _ _ directory) ih
  | @vacant _ start n directory short there =>
    -- What may be there now is no link.
    cases there' : b.get? (start ++ [n]) with
    | none => exact .vacant (grows.kept _ _ directory) short there'
    | some node =>
      refine .pass (grows.kept _ _ directory) short there' (fun target link => ?_) (.stop _)
      rw [grows.no_link _ target (link ▸ there')] at there
      cases there
  | pass directory short there no_link _ ih =>
    exact .pass (grows.kept _ _ directory) short (grows.kept _ _ there) no_link ih
  | keep directory short there kept => exact .keep (grows.kept _ _ directory) short (grows.kept _ _ there) kept
  | follow directory short there followed _ ih =>
    exact .follow (grows.kept _ _ directory) short (grows.kept _ _ there) followed ih

theorem Grows.beginning (grows : a.Grows b) (path : String) : b.beginning path = a.beginning path := by
  unfold FileTree.beginning
  rw [grows.base_eq]

theorem Grows.place (grows : a.Grows b) (leads : a.place through path = .ok p) : b.place through path = .ok p := by
  rw [place_eq] at leads ⊢
  cases refused : refusal? path with
  | some f => simp [refused] at leads
  | none =>
    rw [refused] at leads
    rw [grows.base_eq]
    exact grows.walk leads

theorem node_eq_ok_iff : t.node true path = .ok n ↔ ∃ p, t.place true path = .ok p ∧ t.get? p = some n := by
  rw [node_eq]
  cases leads : t.place true path with
  | error f => simp
  | ok p =>
    cases there : t.get? p with
    | none => simp [there]
    | some m => simp [there]

theorem Grows.node (grows : a.Grows b) (there : a.node true path = .ok n) : b.node true path = .ok n := by
  obtain ⟨p, leads, there⟩ := node_eq_ok_iff.mp there
  exact node_eq_ok_iff.mpr ⟨p, grows.place leads, grows.kept p n there⟩

theorem isDirectory_iff : t.isDirectory path = true ↔ t.node true path = .ok .directory := by
  unfold isDirectory
  cases t.node true path with
  | error f => simp
  | ok n => cases n <;> simp

theorem Grows.isDirectory (grows : a.Grows b) (there : a.isDirectory path = true) : b.isDirectory path = true :=
  isDirectory_iff.mpr (grows.node (isDirectory_iff.mp there))

theorem walk_of_vacant (ends : t.walk false links start ss = .ok p) (vacant : t.get? p = none) :
    t.walk true links start ss = .ok p := by
  have walks := walk_eq_ok_iff.mp ends
  apply walk_eq_ok_iff.mpr
  clear ends
  induction walks with
  | stop p => exact .stop p
  | here directory _ ih => exact .here directory (ih vacant)
  | up directory _ ih => exact .up directory (ih vacant)
  | vacant directory short there => exact .vacant directory short there
  | pass directory short there no_link _ ih => exact .pass directory short there no_link (ih vacant)
  | keep directory short there _ =>
    rw [vacant] at there
    cases there
  | follow directory short there _ _ ih => exact .follow directory short there (by simp) (ih vacant)

theorem exists_walk_of_there (ends : t.walk true links start ss = .ok p) (there : t.get? p ≠ none) :
    ∃ q, t.walk false links start ss = .ok q ∧ t.get? q ≠ none := by
  have walks := walk_eq_ok_iff.mp ends
  simp only [walk_eq_ok_iff]
  clear ends
  induction walks with
  | stop p => exact ⟨p, .stop p, there⟩
  | here directory _ ih =>
    obtain ⟨q, walks, there⟩ := ih there
    exact ⟨q, .here directory walks, there⟩
  | up directory _ ih =>
    obtain ⟨q, walks, there⟩ := ih there
    exact ⟨q, .up directory walks, there⟩
  | vacant _ _ nothing => exact absurd nothing there
  | pass directory short next no_link _ ih =>
    obtain ⟨q, walks, there⟩ := ih there
    exact ⟨q, .pass directory short next no_link walks, there⟩
  | keep _ _ _ kept => cases kept
  | @follow _ _ _ _ _ rest directory short link _ _ ih =>
    by_cases last : rest = []
    · subst last
      exact ⟨_, .keep directory short link rfl, by simp [link]⟩
    · obtain ⟨q, walks, there⟩ := ih there
      exact ⟨q, .follow directory short link (by simp [last]) walks, there⟩

theorem place_of_vacant (leads : t.place false path = .ok p) (vacant : t.get? p = none) :
    t.place true path = .ok p := by
  rw [place_eq] at leads ⊢
  cases refused : refusal? path with
  | some f => simp [refused] at leads
  | none =>
    rw [refused] at leads
    exact walk_of_vacant leads vacant

theorem exists_place_of_node (there : t.node true path = .ok n) :
    ∃ q, t.place false path = .ok q ∧ t.get? q ≠ none := by
  obtain ⟨p, leads, there⟩ := node_eq_ok_iff.mp there
  rw [place_eq] at leads ⊢
  cases refused : refusal? path with
  | some f => simp [refused] at leads
  | none =>
    rw [refused] at leads
    exact exists_walk_of_there leads (by simp [there])

/-! ## Creating -/

theorem create_eq_ok_iff : t.create path n = .ok c ↔
    ∃ q, t.place false path = .ok q ∧ t.get? q = none ∧ c = t.set q n := by
  unfold create
  cases leads : t.place false path with
  | error f => simp [bind, Except.bind]
  | ok q =>
    cases there : t.get? q with
    | none => simp [bind, Except.bind, there, eq_comm]
    | some m => simp [bind, Except.bind, there]

/-- Nothing is created where something is. -/
theorem create_of_there {q : Place} (leads : t.place false path = .ok q) (there : t.get? q ≠ none) :
    t.create path n = .error .exists := by
  obtain ⟨m, there⟩ := Option.ne_none_iff_exists'.mp there
  unfold create
  simp [leads, bind, Except.bind, there]

theorem walk_ne_exists (links : Nat) (start : Place) (ss : List Step) :
    t.walk through links start ss ≠ .error .exists := by
  have by_jump (jump : Place → List Step → Except FileFault Place) (others : ∀ start ss, jump start ss ≠ .error .exists)
      (start : Place) (ss : List Step) : t.walkBy through jump start ss ≠ .error .exists := by
    induction ss generalizing start with
    | nil => simp [walkBy_nil]
    | cons s rest ih =>
      by_cases directory : t.get? start = some .directory
      · cases s with
        | here =>
          rw [walkBy_here directory]
          exact ih start
        | up =>
          rw [walkBy_up directory]
          exact ih _
        | name n =>
          rw [walkBy_name_of directory]
          by_cases long : longestName < n.utf8ByteSize
          · simp [long]
          rw [if_neg long]
          cases t.get? (start ++ [n]) with
          | none => cases rest <;> simp
          | some node =>
            cases node with
            | file bytes => exact ih _
            | directory => exact ih _
            | link target =>
              by_cases kept : (rest.isEmpty && !through) = true
              · simp [kept]
              · simp only [if_neg kept]
                exact others _ _
      · rw [walkBy_obstacle directory (by simp), obstacle]
        split <;> simp
  induction links generalizing start ss with
  | zero =>
    rw [walk_eq]
    refine by_jump _ (fun _ _ fails => ?_) start ss
    cases fails
  | succ links ih =>
    rw [walk_eq]
    exact by_jump _ (fun start ss => ih start ss) start ss

theorem place_of_create_exists (fails : t.create path n = .error .exists) :
    ∃ q, t.place false path = .ok q ∧ t.get? q ≠ none := by
  unfold create at fails
  cases leads : t.place false path with
  | error f =>
    obtain rfl : f = .exists := by simpa [leads, bind, Except.bind] using fails
    rw [place_eq] at leads
    unfold refusal? at leads
    split_ifs at leads
    all_goals simp only at leads
    all_goals first | cases leads | exact absurd leads (walk_ne_exists _ _ _)
  | ok q =>
    refine ⟨q, rfl, fun vacant => ?_⟩
    simp [leads, bind, Except.bind, vacant] at fails

/-- A directory is created at the text of some of the first parts, where nothing was. -/
def Builds (ps : List Path.Part) (a b : FileTree) : Prop :=
  ∃ front q, front <+: ps ∧ front ≠ [] ∧ a.place false (Path.ofPartList front) = .ok q ∧ a.get? q = none ∧
    b = a.set q .directory

theorem Builds.grows {ps : List Path.Part} (builds : Builds ps a b) : a.Grows b := by
  obtain ⟨front, q, -, -, -, vacant, rfl⟩ := builds
  exact grows_set vacant nofun

theorem create_of_isDirectory (there : t.isDirectory path = true) : t.create path n = .error .exists := by
  obtain ⟨q, leads, there⟩ := exists_place_of_node (isDirectory_iff.mp there)
  exact create_of_there leads there

private theorem createDirectory_cases (path : String) (t : FileTree) :
    ((createDirectory path t).2 = t ∨ t.create path .directory = .ok (createDirectory path t).2) ∧
      ((createDirectory path t).1 = .ok () → (createDirectory path t).2.isDirectory path = true) := by
  unfold createDirectory
  cases created : t.create path .directory with
  | ok c =>
    obtain ⟨q, leads, vacant, rfl⟩ := create_eq_ok_iff.mp created
    refine ⟨.inr rfl, fun _ => ?_⟩
    have grows : t.Grows (t.set q .directory) := grows_set vacant nofun
    refine isDirectory_iff.mpr (node_eq_ok_iff.mpr ⟨q, grows.place (place_of_vacant leads vacant), ?_⟩)
    rw [get?_set (ne_nil_of_vacant vacant), if_pos rfl]
  | error e =>
    refine ⟨.inl rfl, fun done => ?_⟩
    by_cases there : t.isDirectory path = true
    · exact there
    · simp [there] at done

theorem createAbove_builds (above : List Path.Part) (t : FileTree) :
    Relation.ReflTransGen (Builds above.reverse) t (createAbove above t).2 ∧
      ((createAbove above t).1 = .ok () → above ≠ [] →
        (createAbove above t).2.isDirectory (Path.ofPartList above.reverse) = true) := by
  induction above generalizing t with
  | nil => exact ⟨.refl, fun _ some_part => absurd rfl some_part⟩
  | cons p above ih =>
    let path := Path.ofPartList (p :: above).reverse
    have builds (t : FileTree) : Relation.ReflTransGen (Builds (p :: above).reverse) t (createDirectory path t).2 := by
      rcases (createDirectory_cases path t).1 with same | created
      · rw [same]
      · obtain ⟨q, leads, vacant, set⟩ := create_eq_ok_iff.mp created
        exact .single ⟨_, q, List.prefix_refl _, by simp, leads, vacant, set⟩
    have wider {a b : FileTree} (built : Builds above.reverse a b) : Builds (p :: above).reverse a b := by
      obtain ⟨front, q, before, rest⟩ := built
      refine ⟨front, q, before.trans ?_, rest⟩
      rw [List.reverse_cons]
      exact List.prefix_append _ _
    have wider_all {a b : FileTree} (built : Relation.ReflTransGen (Builds above.reverse) a b) :
        Relation.ReflTransGen (Builds (p :: above).reverse) a b :=
      Relation.ReflTransGen.mono (fun _ _ => wider) _ _ built
    by_cases missing : t.create path .directory = .error .missing
    · have above_first : createAbove (p :: above) t =
          (do createAbove above; createDirectory path : Changes Unit) t := by
        rw [createAbove]
        simp only [path] at missing
        simp only [missing]
        rfl
      rw [bind_apply] at above_first
      obtain ⟨built, -⟩ := ih t
      rcases first : createAbove above t with ⟨_ | _, c⟩
      · rw [first] at built above_first
        rw [above_first]
        exact ⟨wider_all built, nofun⟩
      · rw [first] at built above_first
        rw [above_first]
        exact ⟨(wider_all built).trans (builds c), fun done _ => (createDirectory_cases path c).2 done⟩
    · have at_once : createAbove (p :: above) t = createDirectory path t := by
        rw [createAbove]
        dsimp only
        split
        · rename_i fails
          exact absurd fails missing
        · rfl
      rw [at_once]
      exact ⟨builds t, fun done _ => (createDirectory_cases path t).2 done⟩

/-- The directories above are created at the texts of the first parts; if that goes well, the directory is there. -/
theorem createDirectories_builds (path : String) (t : FileTree) :
    Relation.ReflTransGen (Builds (Path.parts path.toList)) t (createDirectories path t).2 ∧
      ((createDirectories path t).1 = .ok () → Path.parts path.toList ≠ [] →
        (createDirectories path t).2.isDirectory (Path.ofPartList (Path.parts path.toList)) = true) := by
  have built := createAbove_builds (Path.parts path.toList).reverse t
  rw [List.reverse_reverse] at built
  exact ⟨built.1, fun done some_part => built.2 done (by simpa using some_part)⟩

theorem createDirectories_of_isDirectory (some_part : Path.parts path.toList ≠ [])
    (there : t.isDirectory (Path.ofPartList (Path.parts path.toList)) = true) :
    createDirectories path t = (.ok (), t) := by
  obtain ⟨above, p, parts_eq⟩ := (List.eq_nil_or_concat' (Path.parts path.toList)).resolve_left some_part
  have fails : t.create (Path.ofPartList (Path.parts path.toList)) .directory = .error .exists :=
    create_of_isDirectory there
  have same : (p :: above.reverse).reverse = Path.parts path.toList := by simp [parts_eq]
  have reversed : (Path.parts path.toList).reverse = p :: above.reverse := by simp [parts_eq]
  rw [createDirectories, reversed, createAbove]
  simp only [same, fails, createDirectory, there, if_true]

/-! ## Trees in which all hangs together -/

/-- Whatever is there lies in a directory. -/
def HangsTogether (t : FileTree) : Prop := ∀ p n, t.get? (p ++ [n]) ≠ none → t.get? p = some .directory

theorem hangsTogether_of_nodes (all : ∀ e ∈ t.nodes, t.get? e.1.dropLast = some .directory) : t.HangsTogether := by
  intro p n there
  obtain ⟨m, there⟩ := Option.ne_none_iff_exists'.mp there
  unfold get? at there
  rw [if_neg (by simp)] at there
  obtain ⟨e, found, -⟩ := Option.map_eq_some_iff.mp there
  have same : e.1 = p ++ [n] := by simpa using List.find?_some found
  have parent := all e (List.mem_of_find?_eq_some found)
  rwa [same, List.dropLast_concat] at parent

/-- Below what is vacant nothing is there. -/
theorem HangsTogether.vacant_below (whole : t.HangsTogether) (vacant : t.get? q = none) (below : q <+: p) :
    t.get? p = none := by
  obtain ⟨ns, rfl⟩ := below
  induction ns using List.reverseRecOn with
  | nil => rwa [List.append_nil]
  | append_singleton ns n ih =>
    cases there : t.get? (q ++ (ns ++ [n])) with
    | none => rfl
    | some m =>
      have directory := whole (q ++ ns) n (by rw [List.append_assoc, there]; simp)
      rw [ih] at directory
      cases directory

theorem HangsTogether.dropLast (whole : t.HangsTogether) (directory : t.get? p = some .directory) :
    t.get? p.dropLast = some .directory := by
  rcases List.eq_nil_or_concat' p with rfl | ⟨front, n, rfl⟩
  · exact directory
  · rw [List.dropLast_concat]
    exact whole front n (by simp [directory])

theorem steps_ne_nil (path : String) : steps path ≠ [] := by
  unfold steps
  simpa using Text.pieces_ne_nil '/' path.toList

theorem HangsTogether.parent_of_walk (whole : t.HangsTogether) (ends : t.walk through links start ss = .ok q)
    (some_step : ss ≠ []) (vacant : t.get? q = none) : ∃ p n, q = p ++ [n] ∧ t.get? p = some .directory := by
  have walks := walk_eq_ok_iff.mp ends
  clear ends
  suffices (∃ p n, q = p ++ [n] ∧ t.get? p = some .directory) ∨ ss = [] ∧ q = start from
    this.resolve_right fun ⟨nothing, _⟩ => some_step nothing
  clear some_step
  induction walks with
  | stop p => exact .inr ⟨rfl, rfl⟩
  | here directory _ ih =>
    rcases ih vacant with found | ⟨-, rfl⟩
    · exact .inl found
    · rw [directory] at vacant
      cases vacant
  | up directory _ ih =>
    rcases ih vacant with found | ⟨-, rfl⟩
    · exact .inl found
    · rw [whole.dropLast directory] at vacant
      cases vacant
  | vacant directory _ _ => exact .inl ⟨_, _, rfl, directory⟩
  | pass _ _ there _ _ ih =>
    rcases ih vacant with found | ⟨-, rfl⟩
    · exact .inl found
    · rw [there] at vacant
      cases vacant
  | keep _ _ there _ =>
    rw [there] at vacant
    cases vacant
  | follow _ _ _ _ _ ih =>
    rcases ih vacant with found | ⟨nothing, -⟩
    · exact .inl found
    · exact absurd (List.append_eq_nil_iff.mp nothing).1 (steps_ne_nil _)

theorem HangsTogether.parent_of_place (whole : t.HangsTogether) (leads : t.place through path = .ok q)
    (vacant : t.get? q = none) : ∃ p n, q = p ++ [n] ∧ t.get? p = some .directory := by
  rw [place_eq] at leads
  cases refused : refusal? path with
  | some f => simp [refused] at leads
  | none =>
    rw [refused] at leads
    exact whole.parent_of_walk leads (steps_ne_nil path) vacant

theorem HangsTogether.set (whole : t.HangsTogether) (vacant : t.get? q = none)
    (parent : ∃ p n, q = p ++ [n] ∧ t.get? p = some .directory) (n : Node) : (t.set q n).HangsTogether := by
  intro p m there
  rw [get?_set (ne_nil_of_vacant vacant)] at there ⊢
  obtain ⟨p', m', rfl, directory⟩ := parent
  split at there
  · rename_i same
    obtain ⟨rfl, -⟩ := List.append_inj' same rfl
    rw [if_neg (by simp), directory]
  · have directory' := whole p m there
    rw [if_neg, directory']
    rintro rfl
    rw [vacant] at directory'
    cases directory'

theorem walk_append {rest : List Step} (ends : t.walk true links start ss = .ok p) (some_step : rest ≠ []) :
    ∃ links', t.walk true links start (ss ++ rest) = t.walk true links' p rest := by
  rcases t.goesOn links start ss some_step with ⟨e, fails, -⟩ | ⟨p', links', same, goes⟩
  · rw [ends] at fails
    cases fails
  · obtain rfl : p = p' := Except.ok.inj (ends.symm.trans same)
    exact ⟨links', goes⟩

theorem exists_walk_front {rest : List Step} (ends : t.walk true links start (ss ++ rest) = .ok q) :
    ∃ p, t.walk true links start ss = .ok p := by
  by_cases nothing : rest = []
  · subst nothing
    rw [List.append_nil] at ends
    exact ⟨q, ends⟩
  · rcases t.goesOn links start ss nothing with ⟨e, -, fails⟩ | ⟨p, -, same, -⟩
    · rw [ends] at fails
      cases fails
    · exact ⟨p, same⟩

/-- Names lead to the same where two trees agree on the way, as long as no link lies there. -/
theorem walk_names_agree {links' : Nat} {ns : List String} (free : a.LinkFreeBelow p)
    (agree : ∀ front, front <+: ns → b.get? (p ++ front) = a.get? (p ++ front)) :
    b.walk true links' p (ns.map .name) = a.walk true links p (ns.map .name) := by
  rw [walk_eq, walk_eq]
  induction ns generalizing p with
  | nil => rw [List.map_nil, walkBy_nil, walkBy_nil]
  | cons n ns ih =>
    have here : b.get? p = a.get? p := by simpa using agree [] List.nil_prefix
    have next : b.get? (p ++ [n]) = a.get? (p ++ [n]) := agree [n] (by simp)
    have rest := ih (free.deeper n) fun front before => by
      have same := agree (n :: front) ((List.prefix_cons_inj n).mpr before)
      simpa using same
    rw [List.map_cons]
    by_cases directory : a.get? p = some .directory
    · rw [walkBy_name directory, walkBy_name (here.trans directory), next]
      cases there : a.get? (p ++ [n]) with
      | none => rfl
      | some node =>
        cases node with
        | file bytes => simp only [rest]
        | directory => simp only [rest]
        | link target => exact absurd there (free _ (List.prefix_append p [n]) target)
    · have same : b.obstacle p = a.obstacle p := by
        unfold obstacle
        rw [here]
      rw [walkBy_obstacle directory (by simp), walkBy_obstacle (here ▸ directory) (by simp), same]

theorem walk_empty {n : String} {rest : List Step} (directory : t.get? q = some .directory)
    (nothing : t.get? (q ++ [n]) = none) (short : n.utf8ByteSize ≤ longestName) :
    t.walk true links q (.name n :: rest) = if rest.isEmpty then .ok (q ++ [n]) else .error .missing := by
  rw [walk_eq, walkBy_name directory, if_neg (Nat.not_lt.mpr short), nothing]

end Pageweave.FileTree
