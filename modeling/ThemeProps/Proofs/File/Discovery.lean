/-
  Finding files in pruned trees.

  * `sortPaths_filter`: it does not matter whether paths are left out before or
    after the rest is put in order, since the order of paths is a total one;
  * `Pruned`: some places are others without those whose paths pass what is gone.
    `pruned_enterAll`, `pruned_directories` and `pruned_select` say so of the
    places that each step of a glob leads to;
  * `discover_cut`: in a pruned tree the files of the whole tree are found, but
    for those whose paths pass what is gone;
  * `at_discover`: a file that is found is what the tree holds at its location.
-/
import ThemeProps.Proofs.File.Place
import ThemeProps.Proofs.Lists
import ThemeProps.Proofs.Text.Order

namespace ThemeProps

/-! ## The order of paths -/

namespace Path

theorem compareParts_eq (ps qs : List Text) : compareParts ps qs = Ord.compare ps qs := by
  show _ = List.compareLex Ord.compare ps qs
  induction ps generalizing qs with
  | nil => cases qs <;> rfl
  | cons p ps ih =>
    cases qs with
    | nil => rfl
    | cons q qs =>
      rw [compareParts, List.compareLex_cons_cons, ih, Text.compare_eq]
      cases Ord.compare p q <;> rfl

/-- Paths are compared by their roots and then by their components. -/
theorem compare_eq : compare = compareLex (compareOn Path.root) (compareOn Path.parts) := by
  funext p q
  rw [compare, Text.compare_eq, compareParts_eq]
  show _ = (Ord.compare p.root q.root).then _
  cases Ord.compare p.root q.root <;> rfl

instance : Std.TransCmp compare := by
  rw [compare_eq]
  infer_instance

instance : Std.LawfulEqCmp compare where
  compare_self := by
    rw [compare_eq]
    exact Std.ReflCmp.compare_self
  eq_of_compare {p q} h := by
    rw [compare_eq] at h
    obtain ⟨sameRoot, sameParts⟩ := Ordering.then_eq_eq.1 h
    obtain ⟨root, names⟩ := p
    obtain ⟨root', names'⟩ := q
    obtain rfl : root = root' := Std.LawfulEqCmp.eq_of_compare sameRoot
    obtain rfl : names = names' := Std.LawfulEqCmp.eq_of_compare sameParts
    rfl

theorem compare_trans (p q r : Path) (hp : (compare p q).isLE = true)
    (hq : (compare q r).isLE = true) : (compare p r).isLE = true :=
  Std.TransCmp.isLE_trans hp hq

theorem compare_antisymm {p q : Path} (hp : (compare p q).isLE = true)
    (hq : (compare q p).isLE = true) : p = q :=
  Std.LawfulEqCmp.eq_of_compare (Std.OrientedCmp.isLE_antisymm hp hq)

theorem compare_total (p q : Path) : ((compare p q).isLE || (compare q p).isLE) = true := by
  have swap : compare q p = (compare p q).swap := Std.OrientedCmp.eq_swap
  rw [swap]
  cases compare p q <;> rfl

end Path

/-- Paths can be left out before or after the rest is put in order. -/
theorem sortPaths_filter (p : Path → Bool) (paths : List Path) :
    sortPaths (paths.filter p) = (sortPaths paths).filter p := by
  have sorted (paths : List Path) : (paths.mergeSort fun p q => (p.compare q).isLE).Pairwise
      fun p q => (p.compare q).isLE = true :=
    List.pairwise_mergeSort Path.compare_trans Path.compare_total paths
  rw [sortPaths, sortPaths, ← eraseDups_filter]
  congr 1
  refine List.Perm.eq_of_pairwise (fun _ _ _ _ => Path.compare_antisymm) (sorted _)
    ((sorted paths).filter p) ?_
  exact (List.mergeSort_perm _ _).trans ((List.mergeSort_perm paths _).filter p).symm

theorem mem_sortPaths {paths : List Path} {path : Path} :
    path ∈ sortPaths paths ↔ path ∈ paths := by
  rw [sortPaths, List.mem_eraseDups, List.mem_mergeSort]

/-! ## Places below a place -/

namespace Glob.Place

/-- The directory at a place and all directories below it. -/
def directories (place : Place) : List Place :=
  directoriesAt place.parts place.ancestors place.node

theorem directoriesAmong_eq (parts : List Text) (ancestors : List Node)
    (children : List (Text × Node)) :
    directoriesAmong parts ancestors children = children.flatMap fun (name, child) =>
      directoriesAt (parts ++ [name]) ancestors child := by
  induction children with
  | nil => rfl
  | cons first rest ih =>
    rw [directoriesAmong, ih]
    rfl

theorem directories_of_file {place : Place} (h : place.node.isDirectory = false) :
    place.directories = [] := by
  obtain ⟨parts, ancestors, node⟩ := place
  cases node with
  | file bytes => rfl
  | directory children => cases h

theorem directories_of_directory {place : Place} (h : place.node.isDirectory = true) :
    place.directories = place :: place.enterAll.flatMap directories := by
  obtain ⟨parts, ancestors, node⟩ := place
  cases node with
  | file bytes => cases h
  | directory children =>
    rw [directories, directoriesAt, directoriesAmong_eq, enterAll, List.flatMap_map]
    rfl

section
variable {place next : Place}

/-- The place of a child. -/
def child (place : Place) (p : Text × Node) : Place :=
  ⟨place.parts ++ [p.1], place.node :: place.ancestors, p.2⟩

/-- A child is where its name leads. -/
theorem enter?_of_mem {name : Text} {node : Node} (sound : place.node.Sound)
    (h : (name, node) ∈ place.node.children) :
    place.enter? name = some (place.child (name, node)) := by
  have plain : name ≠ ['.', '.'] := by
    rintro rfl
    exact sound.noDots (List.mem_map.2 ⟨_, h, rfl⟩)
  rw [Place.enter?, if_neg plain, Node.lookup_of_mem sound.nodup h]
  rfl

theorem prefix_of_mem_enterAll (h : next ∈ place.enterAll) : place.parts <+: next.parts := by
  obtain ⟨⟨name, node⟩, -, rfl⟩ := List.mem_map.1 h
  exact List.prefix_append place.parts [name]

theorem node_of_mem_enterAll (h : next ∈ place.enterAll) :
    ∃ p ∈ place.node.children, p.2 = next.node := by
  obtain ⟨p, hm, rfl⟩ := List.mem_map.1 h
  exact ⟨p, hm, rfl⟩

/-- What holds of files, and of a directory if it holds of its children, holds of every place. -/
theorem induction {P : Place → Prop} (file : ∀ place, place.node.isDirectory = false → P place)
    (directory : ∀ place, place.node.isDirectory = true → (∀ next ∈ place.enterAll, P next) →
      P place) (place : Place) : P place := by
  obtain ⟨parts, ancestors, node⟩ := place
  induction node using Node.induction generalizing parts ancestors with
  | file bytes => exact file _ rfl
  | directory children ih =>
    refine directory _ rfl fun next hm => ?_
    obtain ⟨p, hp, same⟩ := node_of_mem_enterAll hm
    obtain ⟨parts, ancestors, node⟩ := next
    obtain rfl : p.2 = node := same
    exact ih p hp parts ancestors

theorem prefix_of_mem_directories (h : next ∈ place.directories) : place.parts <+: next.parts := by
  induction place using Place.induction with
  | file place hfile =>
    rw [directories_of_file hfile] at h
    cases h
  | directory place hdir ih =>
    rw [directories_of_directory hdir] at h
    rcases List.mem_cons.1 h with rfl | h
    · exact List.prefix_rfl
    · obtain ⟨child, hc, h⟩ := List.mem_flatMap.1 h
      exact (prefix_of_mem_enterAll hc).trans (ih child hc h)

end

end Glob.Place

namespace Glob

open Place

/-- A glob leads on from where it starts. -/
theorem prefix_of_mem_select {glob : List GlobPart} {place next : Place}
    (h : next ∈ select glob place) : place.parts <+: next.parts := by
  induction glob generalizing place with
  | nil =>
    rw [select, List.mem_singleton] at h
    rw [h]
  | cons part glob ih =>
    cases part with
    | slash =>
      rw [select, List.mem_singleton] at h
      rw [h]
    | name s =>
      rw [select] at h
      split at h
      · cases h
      · next between first =>
        split_ifs at h
        · refine List.IsPrefix.trans ?_ (ih h)
          rw [enter?_parts first]
          exact List.prefix_append place.parts [s]
        · cases h
    | wildcard ws =>
      obtain ⟨between, first, h⟩ := List.mem_flatMap.1 h
      exact (prefix_of_mem_enterAll (List.mem_of_mem_filter first)).trans (ih h)
    | directories =>
      obtain ⟨between, first, h⟩ := List.mem_flatMap.1 h
      exact (prefix_of_mem_directories first).trans (ih h)

/-! ## Globs in pruned trees -/

variable {gone : List Text → Prop} [DecidablePred gone] {tree' tree : Node} {base : List Text}
  {a b : Place} {as bs cs ds : List Place} {f : Place → List Place}

/-- The places are others without those whose paths, from the base on, pass what is gone. -/
inductive Pruned (gone : List Text → Prop) (tree' tree : Node) (base : List Text) :
    List Place → List Place → Prop
  | nil : Pruned gone tree' tree base [] []
  | keep {a b : Place} {as bs : List Place} (agree : Agree gone tree' tree base a b)
    (rest : Pruned gone tree' tree base as bs) : Pruned gone tree' tree base (a :: as) (b :: bs)
  | drop {b : Place} {as bs : List Place} (passes : Path.Passes gone (base ++ b.parts))
    (rest : Pruned gone tree' tree base as bs) : Pruned gone tree' tree base as (b :: bs)

namespace Pruned

omit [DecidablePred gone]

theorem of_passes (h : ∀ b ∈ bs, Path.Passes gone (base ++ b.parts)) :
    Pruned gone tree' tree base [] bs := by
  induction bs with
  | nil => exact .nil
  | cons b bs ih =>
    rw [List.forall_mem_cons] at h
    exact .drop h.1 (ih h.2)

theorem append (h : Pruned gone tree' tree base as bs) (h' : Pruned gone tree' tree base cs ds) :
    Pruned gone tree' tree base (as ++ cs) (bs ++ ds) := by
  induction h with
  | nil => exact h'
  | keep agree _ ih => exact .keep agree ih
  | drop passes _ ih => exact .drop passes ih

theorem filter {p : Place → Bool} (h : Pruned gone tree' tree base as bs)
    (hp : ∀ a b, Agree gone tree' tree base a b → p a = p b) :
    Pruned gone tree' tree base (as.filter p) (bs.filter p) := by
  induction h with
  | nil => exact .nil
  | keep agree _ ih =>
    rw [List.filter_cons, List.filter_cons, hp _ _ agree]
    split_ifs
    · exact .keep agree ih
    · exact ih
  | drop passes _ ih =>
    rw [List.filter_cons]
    split_ifs
    · exact .drop passes ih
    · exact ih

/-- What places that agree lead to is pruned, and what the others lead to is left out. -/
theorem flatMap (h : Pruned gone tree' tree base as bs)
    (onward : ∀ b, ∀ c ∈ f b, b.parts <+: c.parts)
    (hf : ∀ a, ∀ b ∈ bs, Agree gone tree' tree base a b →
      Pruned gone tree' tree base (f a) (f b)) :
    Pruned gone tree' tree base (as.flatMap f) (bs.flatMap f) := by
  induction h with
  | nil => exact .nil
  | keep agree _ ih =>
    rw [List.flatMap_cons, List.flatMap_cons]
    exact (hf _ _ List.mem_cons_self agree).append
      (ih fun a b hb => hf a b (List.mem_cons_of_mem _ hb))
  | drop passes _ ih =>
    rw [List.flatMap_cons]
    have dropped : Pruned gone tree' tree base [] _ := of_passes fun c hc =>
      passes.of_prefix ((List.prefix_append_right_inj base).2 (onward _ c hc))
    exact dropped.append (ih fun a b hb => hf a b (List.mem_cons_of_mem _ hb))

end Pruned

/-- Children that are left have the same names in both trees. -/
theorem pruned_children {cs' cs : List (Text × Node)} (h : Agree gone tree' tree base a b)
    (cut : Node.Cut gone tree' tree) (hcs' : cs' ⊆ a.node.children) (hcs : cs ⊆ b.node.children)
    (names : Node.namesOf cs' = (Node.namesOf cs).filter fun name =>
      decide (¬ Path.Passes gone (base ++ b.parts ++ [name]))) :
    Pruned gone tree' tree base (cs'.map a.child) (cs.map b.child) := by
  induction cs generalizing cs' with
  | nil =>
    obtain rfl := List.map_eq_nil_iff.1 names
    exact .nil
  | cons first cs ih =>
    obtain ⟨name, node⟩ := first
    obtain ⟨here, rest⟩ := List.cons_subset.1 hcs
    rw [Node.namesOf_cons] at names
    by_cases passes : Path.Passes gone (base ++ b.parts ++ [name])
    · rw [List.filter_cons_of_neg (by simpa using passes)] at names
      refine .drop ?_ (ih hcs' rest names)
      rwa [List.append_assoc] at passes
    · rw [List.filter_cons_of_pos (by simpa using passes)] at names
      obtain ⟨⟨name', node'⟩, cs', rfl, same, behind⟩ := List.map_eq_cons_iff.1 names
      obtain rfl : name = name' := same.symm
      obtain ⟨here', rest'⟩ := List.cons_subset.1 hcs'
      have ha := enter?_of_mem (h.at'.sound cut.sound') here'
      have hb := enter?_of_mem (h.at_.sound cut.sound) here
      exact .keep (h.next ha hb passes) (ih rest' rest behind)

theorem pruned_enterAll (h : Agree gone tree' tree base a b) (cut : Node.Cut gone tree' tree) :
    Pruned gone tree' tree base a.enterAll b.enterAll :=
  pruned_children h cut (List.Subset.refl _) (List.Subset.refl _) (h.alike cut).namesOf_eq

theorem pruned_directories (h : Agree gone tree' tree base a b) (cut : Node.Cut gone tree' tree) :
    Pruned gone tree' tree base a.directories b.directories := by
  have kind := (h.alike cut).isDirectory
  induction b using Place.induction generalizing a with
  | file b hb =>
    rw [directories_of_file hb, directories_of_file (kind.trans hb)]
    exact .nil
  | directory b hb ih =>
    rw [directories_of_directory hb, directories_of_directory (kind.trans hb)]
    refine .keep h ((pruned_enterAll h cut).flatMap (fun _ _ => prefix_of_mem_directories) ?_)
    exact fun a' b' hb' h' => ih b' hb' h' (h'.alike cut).isDirectory

theorem pruned_select (glob : List GlobPart) (h : Agree gone tree' tree base a b)
    (cut : Node.Cut gone tree' tree) :
    Pruned gone tree' tree base (select glob a) (select glob b) := by
  induction glob generalizing a b with
  | nil => exact .keep h .nil
  | cons part glob ih =>
    cases part with
    | slash => exact .keep h .nil
    | name s =>
      rw [select, select]
      rcases h.enter? cut s with ⟨a', b', ha, hb, h'⟩ | ⟨ha, hb | passes⟩
      · simp only [ha, hb, (h'.alike cut).isDirectory]
        split_ifs
        · exact ih h'
        · exact .nil
      · simp only [ha, hb]
        exact .nil
      · simp only [ha]
        refine .of_passes fun c hc => passes.of_prefix ?_
        cases hb : b.enter? s with
        | none =>
          rw [hb] at hc
          cases hc
        | some b' =>
          rw [hb] at hc
          dsimp only at hc
          split_ifs at hc
          · have onward := prefix_of_mem_select hc
            rw [enter?_parts hb] at onward
            rw [List.append_assoc]
            exact (List.prefix_append_right_inj base).2 onward
          · cases hc
    | wildcard ws =>
      refine Pruned.flatMap ?_ (fun _ _ => prefix_of_mem_select) fun a' b' _ h' => ih h'
      refine (pruned_enterAll h cut).filter fun a' b' h' => ?_
      rw [(h'.alike cut).isDirectory, Place.name, Place.name, h'.parts]
    | directories =>
      refine (pruned_directories h cut).flatMap (fun _ _ => prefix_of_mem_select) ?_
      exact fun a' b' _ h' => ih h'

/-! ## Files in pruned trees -/

/-- The files among the places, as components. -/
theorem Pruned.files (h : Pruned gone tree' tree base as bs) (cut : Node.Cut gone tree' tree) :
    (as.filter fun found => found.node.isFile).map (·.parts) =
      ((bs.filter fun found => found.node.isFile).map (·.parts)).filter fun parts =>
        decide (¬ Path.Passes gone (base ++ parts)) := by
  induction h with
  | nil => rfl
  | keep agree _ ih =>
    have kind := congrArg not (agree.alike cut).isDirectory
    rw [List.filter_cons, List.filter_cons, Node.isFile, kind, ← Node.isFile]
    split_ifs
    · rw [List.map_cons, List.map_cons, List.filter_cons_of_pos (by simpa using agree.left), ih,
        agree.parts]
    · exact ih
  | drop passes _ ih =>
    rw [List.filter_cons]
    split_ifs
    · rw [List.map_cons, List.filter_cons_of_neg (by simpa using passes), ih]
    · exact ih

end Glob

section
open Glob (Place)
open Glob.Place (Agree)

variable {gone : List Text → Prop} [DecidablePred gone] {tree' tree : Node} {base : List Text}
  {a b : Place} {root : Path}

theorem filesOf_cut (h : Agree gone tree' tree base a b) (cut : Node.Cut gone tree' tree)
    (glob : Text) :
    filesOf a glob = (filesOf b glob).map (·.filter fun parts =>
      decide (¬ Path.Passes gone (base ++ parts))) := by
  rw [filesOf, filesOf]
  cases Glob.parse glob with
  | error e => rfl
  | ok parts => exact congrArg Except.ok ((Glob.pruned_select parts h cut).files cut)

theorem includedFiles_cut (h : Agree gone tree' tree base a b) (cut : Node.Cut gone tree' tree)
    (globs : List Text) :
    includedFiles a globs = (includedFiles b globs).map (·.filter fun parts =>
      decide (¬ Path.Passes gone (base ++ parts))) := by
  rw [includedFiles, includedFiles, mapM_map (filesOf_cut h cut)]
  cases ((globs.flatMap expandBraces).filter (· ≠ [])).mapM (filesOf b) with
  | error e => rfl
  | ok files => exact congrArg Except.ok List.filter_flatten.symm

/-- A directory that is left is the same place in both trees, or missing in both. -/
theorem directoryAt?_cut (cut : Node.Cut gone tree' tree) (left : ¬ Path.Passes gone root.parts) :
    (tree'.directoryAt? root = none ∧ tree.directoryAt? root = none) ∨
      ∃ a b, tree'.directoryAt? root = some a ∧ tree.directoryAt? root = some b ∧
        Agree gone tree' tree root.parts a b := by
  rw [Node.directoryAt?, Node.directoryAt?]
  split_ifs
  · rcases (Glob.Place.agree_top cut).enterEach? cut root.parts with
      ⟨a, b, ha, hb, h⟩ | ⟨ha, hb | passes⟩
    · rw [Glob.Place.top] at ha hb
      rw [ha, hb, Option.bind_some, Option.bind_some, (h.alike cut).isDirectory]
      split_ifs
      · have parts : b.parts = root.parts := Glob.Place.enterEach?_parts hb
        refine .inr ⟨_, _, rfl, rfl, rfl, ?_, ?_, ?_⟩
        all_goals rw [List.append_nil]
        · exact left
        · rw [← parts]
          exact h.at'.withParts []
        · rw [← parts]
          exact h.at_.withParts []
      · exact .inl ⟨rfl, rfl⟩
    · rw [Glob.Place.top] at ha hb
      rw [ha, hb]
      exact .inl ⟨rfl, rfl⟩
    · exact absurd passes left
  · exact .inl ⟨rfl, rfl⟩

/-- In a pruned tree the files of the whole tree are found, but for those whose paths pass what is
gone. -/
theorem discover_cut (cut : Node.Cut gone tree' tree) (left : ¬ Path.Passes gone root.parts)
    (globs excluded : List Text) :
    discover tree' root globs excluded =
      (discover tree root globs excluded).map (·.filter fun path =>
        decide (¬ Path.Passes gone path.parts)) := by
  rw [discover, discover]
  rcases directoryAt?_cut cut left with ⟨ha, hb⟩ | ⟨a, b, ha, hb, h⟩
  · rw [ha, hb]
    rfl
  · simp only [ha, hb, includedFiles_cut h cut]
    cases includedFiles b globs with
    | error e => rfl
    | ok files =>
      refine congrArg Except.ok ?_
      beta_reduce
      rw [← sortPaths_filter, List.filter_comm, List.filter_map]
      rfl

/-! ## What is found -/

omit [DecidablePred gone] in
theorem Glob.Pruned.agree_of_mem {as bs : List Place} (h : Glob.Pruned gone tree' tree base as bs)
    (hb : b ∈ bs) (left : ¬ Path.Passes gone (base ++ b.parts)) :
    ∃ a ∈ as, Agree gone tree' tree base a b := by
  induction h with
  | nil => cases hb
  | @keep a _ _ _ agree _ ih =>
    rcases List.mem_cons.1 hb with rfl | hb
    · exact ⟨a, List.mem_cons_self, agree⟩
    · obtain ⟨a', ha, agree⟩ := ih hb
      exact ⟨a', List.mem_cons_of_mem _ ha, agree⟩
  | drop passes _ ih =>
    rcases List.mem_cons.1 hb with rfl | hb
    · exact absurd passes left
    · exact ih hb

/-- A file that a glob finds is what the tree holds at its location. -/
theorem at_filesOf (sound : tree.Sound) {glob : Text} {files : List (List Text)} {parts : List Text}
    (h : Agree (fun _ => False) tree tree base a a) (found : filesOf a glob = .ok files)
    (hp : parts ∈ files) : ∃ names bytes, Path.location? (base ++ parts) = some names.reverse ∧
      tree.below? names = some (.file bytes) := by
  rw [filesOf] at found
  cases hglob : Glob.parse glob with
  | error e =>
    rw [hglob] at found
    cases found
  | ok glob =>
    rw [hglob] at found
    obtain rfl := Except.ok.inj found
    obtain ⟨place, hm, rfl⟩ := List.mem_map.1 hp
    obtain ⟨hm, isFile⟩ := List.mem_filter.1 hm
    obtain ⟨_, -, agree⟩ :=
      (Glob.pruned_select glob h (Node.cut_self sound)).agree_of_mem hm Path.not_passes_false
    have here := agree.at_
    cases loc : Path.location? (base ++ place.parts) with
    | none =>
      rw [loc] at here
      rw [here.2] at isFile
      cases isFile
    | some up =>
      rw [loc] at here
      cases hnode : place.node with
      | directory children =>
        rw [hnode] at isFile
        cases isFile
      | file bytes =>
        refine ⟨up.reverse, bytes, by rw [List.reverse_reverse], ?_⟩
        rw [here.below?, hnode]

/-- A file that is found is what the tree holds at its location. -/
theorem at_discover (sound : tree.Sound) {globs excluded : List Text} {paths : List Path}
    {path : Path} (found : discover tree root globs excluded = .ok paths) (hp : path ∈ paths) :
    ∃ names bytes, Path.location? path.parts = some names.reverse ∧
      tree.below? names = some (.file bytes) := by
  rw [discover] at found
  rcases directoryAt?_cut (Node.cut_self sound) Path.not_passes_false with
    ⟨ha, -⟩ | ⟨a, b, ha, hb, h⟩
  · rw [ha] at found
    obtain rfl := Except.ok.inj found
    cases hp
  · obtain rfl : a = b := Option.some.inj (ha.symm.trans hb)
    simp only [ha, includedFiles] at found
    cases hfiles : ((globs.flatMap expandBraces).filter (· ≠ [])).mapM (filesOf a) with
    | error e =>
      rw [hfiles] at found
      cases found
    | ok files =>
      rw [hfiles] at found
      obtain rfl := Except.ok.inj found
      rw [mem_sortPaths] at hp
      obtain ⟨parts, hm, rfl⟩ := List.mem_map.1 hp
      obtain ⟨some, hsome, hm⟩ := List.mem_flatten.1 (List.mem_of_mem_filter hm)
      obtain ⟨glob, -, hglob⟩ := (mem_mapM_iff hfiles).1 hsome
      exact at_filesOf sound h hglob hm

end

end ThemeProps
