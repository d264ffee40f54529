/-
  The files that are found, as a set in order.

  * `pairwise_sortPaths`: paths that are put in order increase strictly;
  * `IsFound`: a path leads to a file whose names match a glob that is written
    out, and no pattern excludes it;
  * `mem_discover_iff`: the paths that discovery gives are those that are found,
    and `discover_congr`: only what the globs and the patterns are written out to
    counts;
  * `discover_set`: all that together.
-/
import ThemeProps.Proofs.File.Alternatives
import ThemeProps.Proofs.File.Match
import Mathlib

namespace ThemeProps

/-! ## Paths in order -/

/-- Paths that are put in order increase strictly. -/
theorem pairwise_sortPaths (paths : List Path) :
    (sortPaths paths).Pairwise fun p q => p.compare q = .lt := by
  have sorted := List.pairwise_mergeSort Path.compare_trans Path.compare_total paths
  refine (pairwise_eraseDups _ sorted).imp fun {p q} ⟨notGreater, differ⟩ => ?_
  cases h : p.compare q with
  | lt => rfl
  | eq => exact absurd (Std.LawfulEqCmp.eq_of_compare h) differ
  | gt =>
    rw [h] at notGreater
    cases notGreater

/-- Strictly increasing lists with the same members are equal. -/
theorem eq_of_increasing {ps qs : List Path} (hp : ps.Pairwise fun p q => p.compare q = .lt)
    (hq : qs.Pairwise fun p q => p.compare q = .lt) (same : ∀ p, p ∈ ps ↔ p ∈ qs) : ps = qs := by
  have nodup {ps : List Path} (h : ps.Pairwise fun p q => p.compare q = .lt) : ps.Nodup :=
    h.imp fun {p q} less he => by
      have self : Path.compare q q = .eq := Std.ReflCmp.compare_self
      rw [he, self] at less
      cases less
  refine List.Perm.eq_of_pairwise (fun p q _ _ less less' => ?_) hp hq
    ((List.perm_ext_iff_of_nodup (nodup hp) (nodup hq)).2 same)
  exact Path.compare_antisymm (by rw [less]; rfl) (by rw [less']; rfl)

/-! ## Files below a directory -/

section
open Glob (Place)

variable {tree : Node} {root : Path} {place : Place} {names globs excluded : List Text}
  {paths : List Path} {path : Path} {candidate : Text}

theorem Path.append_names (root : Path) (names : List Text) :
    root ++ (⟨[], names⟩ : Path) = ⟨root.root, root.parts ++ names⟩ := rfl

/-- A directory is a place of the tree, and the names of the way to it do not count. -/
theorem of_directoryAt? (h : tree.directoryAt? root = some place) :
    ∃ parts, (Place.top tree).enterEach? root.parts = some { place with parts := parts } ∧
      root.root = [] ∧ place.parts = [] ∧ place.node.isDirectory = true := by
  rw [Node.directoryAt?] at h
  split_ifs at h with relative
  obtain ⟨⟨parts, ancestors, node⟩, way, h⟩ := Option.bind_eq_some_iff.1 h
  dsimp only at h
  split_ifs at h with isDirectory
  obtain rfl := Option.some.inj h
  exact ⟨parts, way, relative, rfl, isDirectory⟩

theorem at_directoryAt? (h : tree.directoryAt? root = some place) :
    ∃ loc, Place.At tree loc place := by
  obtain ⟨parts, way, -⟩ := of_directoryAt? h
  have start : Place.At tree (some []) (Place.top tree) := rfl
  exact ⟨_, (start.enterEach? way).withParts place.parts⟩

/-- Names below a directory lead where they lead from there. -/
theorem find?_below (h : tree.directoryAt? root = some place) (names : List Text) :
    tree.find? (root ++ ⟨[], names⟩) = (place.enterEach? names).map (·.node) := by
  obtain ⟨parts, way, relative, -⟩ := of_directoryAt? h
  have below : (root ++ (⟨[], names⟩ : Path)).root = [] := relative
  rw [Node.find?_eq below, Path.append_names, Place.enterEach?_append, way, Option.bind_some,
    ← Place.walk_eq, ← Place.walk_eq]

/-- Without a directory nothing is found below it. -/
theorem find?_below_none (h : tree.directoryAt? root = none) (hne : names ≠ []) :
    tree.find? (root ++ ⟨[], names⟩) = none := by
  by_cases relative : root.root = []
  · have below : (root ++ (⟨[], names⟩ : Path)).root = [] := relative
    rw [Node.find?_eq below, Path.append_names, Place.enterEach?_append]
    rw [Node.directoryAt?, if_pos relative] at h
    cases way : (Place.top tree).enterEach? root.parts with
    | none => rfl
    | some place =>
      have start : Place.enterEach? ⟨[], [], tree⟩ root.parts = some place := way
      rw [start, Option.bind_some, ite_eq_right_iff] at h
      obtain ⟨name, names, rfl⟩ := List.exists_cons_of_ne_nil hne
      rw [Option.bind_some, Place.enterEach?_cons,
        if_neg fun isDirectory => Option.some_ne_none _ (h isDirectory)]
      rfl
  · have absolute : (root ++ (⟨[], names⟩ : Path)).root ≠ [] := relative
    rw [Node.find?, if_neg absolute]

/-- A glob finds the files whose names match it. -/
theorem mem_filesOf_iff (sound : tree.Sound) {files : List (List Text)}
    (h : tree.directoryAt? root = some place) (found : filesOf place candidate = .ok files) :
    names ∈ files ↔ (∃ glob, Glob.parse candidate = .ok glob ∧ Glob.Matches 0 glob names) ∧
      ∃ bytes, tree.find? (root ++ ⟨[], names⟩) = some (.file bytes) := by
  obtain ⟨-, -, -, noParts, isDirectory⟩ := of_directoryAt? h
  obtain ⟨loc, here⟩ := at_directoryAt? h
  rw [filesOf] at found
  cases hglob : Glob.parse candidate with
  | error e =>
    rw [hglob] at found
    cases found
  | ok glob =>
    rw [hglob] at found
    obtain rfl := Except.ok.inj found
    rw [find?_below h, List.mem_map]
    constructor
    · rintro ⟨next, hm, rfl⟩
      obtain ⟨hm, isFile⟩ := List.mem_filter.1 hm
      have isFile : next.node.isDirectory = false := by simpa [Node.isFile] using isFile
      obtain ⟨names, matched, way⟩ :=
        (Glob.mem_select_iff sound here (by simp [isDirectory]) isFile).1 hm
      have parts : next.parts = names := by
        rw [Place.enterEach?_parts way, noParts, List.nil_append]
      obtain ⟨bytes, node⟩ : ∃ bytes, next.node = .file bytes := by
        cases hn : next.node with
        | file bytes => exact ⟨bytes, rfl⟩
        | directory children =>
          rw [hn] at isFile
          cases isFile
      rw [parts]
      refine ⟨⟨glob, rfl, matched⟩, bytes, ?_⟩
      rw [way, Option.map_some, node]
    · rintro ⟨⟨glob', same, matched⟩, bytes, there⟩
      obtain rfl := Except.ok.inj same
      obtain ⟨next, way, node⟩ := Option.map_eq_some_iff.1 there
      have isFile : next.node.isDirectory = false := by rw [node]; rfl
      refine ⟨next, List.mem_filter.2 ⟨?_, by rw [Node.isFile, isFile]; rfl⟩, ?_⟩
      · exact (Glob.mem_select_iff sound here (by simp [isDirectory]) isFile).2
          ⟨names, matched, way⟩
      · rw [Place.enterEach?_parts way, noParts, List.nil_append]

/-! ## Discovery -/

/-- Only what the patterns are written out to counts. -/
theorem isExcluded_eq_false {patterns : List Text} {s : Text} : isExcluded patterns s = false ↔
    ∀ candidate ∈ patterns.flatMap expandBraces, matchesWhole s candidate = false := by
  have written : isExcluded patterns s = (patterns.flatMap expandBraces).any (matchesWhole s) :=
    List.any_flatMap.symm
  rw [written, List.any_eq_false]
  simp

/-- A path that is found: one of the globs, written out, stands for its names, a file is there, and
none of the patterns excludes it. -/
def IsFound (tree : Node) (root : Path) (globs excluded : List Text) (path : Path) : Prop :=
  ∃ names, path = root ++ ⟨[], names⟩ ∧
    (∃ bytes, tree.find? path = some (.file bytes)) ∧
    (∃ glob ∈ globs, ∃ candidate ∈ expandBraces glob, ∃ parts,
      Glob.parse candidate = .ok parts ∧ Glob.Matches 0 parts names) ∧
    ∀ pattern ∈ excluded, isExcluded [pattern] (Path.toText ⟨[], names⟩) = false

/-- None of the globs that are written out is refused. -/
def Accepted (globs : List Text) : Prop :=
  ∀ candidate ∈ globs.flatMap expandBraces, candidate ≠ [] →
    ∃ parts, Glob.parse candidate = .ok parts

/-- A path is found by what the globs are written out to, and excluded by what the patterns are
written out to. -/
theorem isFound_iff : IsFound tree root globs excluded path ↔
    ∃ names, path = root ++ ⟨[], names⟩ ∧ (∃ bytes, tree.find? path = some (.file bytes)) ∧
      (∃ candidate ∈ globs.flatMap expandBraces, ∃ parts,
        Glob.parse candidate = .ok parts ∧ Glob.Matches 0 parts names) ∧
      ∀ candidate ∈ excluded.flatMap expandBraces,
        matchesWhole (Path.toText ⟨[], names⟩) candidate = false := by
  refine exists_congr fun names => and_congr_right fun _ => and_congr_right fun _ => and_congr ?_ ?_
  · simp only [List.mem_flatMap]
    constructor
    · rintro ⟨glob, hg, candidate, hc, matched⟩
      exact ⟨candidate, ⟨glob, hg, hc⟩, matched⟩
    · rintro ⟨candidate, ⟨glob, hg, hc⟩, matched⟩
      exact ⟨glob, hg, candidate, hc, matched⟩
  · simp only [isExcluded_eq_false, List.flatMap_singleton]
    exact List.forall_mem_flatMap.symm

theorem exists_filesOf_iff (place : Place) : (∃ files, filesOf place candidate = .ok files) ↔
    ∃ parts, Glob.parse candidate = .ok parts := by
  rw [filesOf]
  cases Glob.parse candidate with
  | error e => constructor <;> rintro ⟨_, ⟨⟩⟩
  | ok parts => exact ⟨fun _ => ⟨parts, rfl⟩, fun _ => ⟨_, rfl⟩⟩

theorem exists_includedFiles_iff (place : Place) :
    (∃ files, includedFiles place globs = .ok files) ↔ Accepted globs := by
  have accepted : (∃ found, ((globs.flatMap expandBraces).filter (· ≠ [])).mapM (filesOf place) =
      .ok found) ↔ Accepted globs := by
    simp only [exists_mapM_iff, exists_filesOf_iff, List.mem_filter, decide_eq_true_iff, and_imp]
    rfl
  rw [← accepted, includedFiles]
  cases ((globs.flatMap expandBraces).filter (· ≠ [])).mapM (filesOf place) with
  | error e => constructor <;> rintro ⟨_, ⟨⟩⟩
  | ok found => exact ⟨fun _ => ⟨found, rfl⟩, fun _ => ⟨found.flatten, rfl⟩⟩

/-- The files of the globs that are written out. -/
theorem mem_includedFiles_iff {files : List (List Text)}
    (h : includedFiles place globs = .ok files) :
    names ∈ files ↔ ∃ candidate ∈ globs.flatMap expandBraces, candidate ≠ [] ∧
      ∃ found, filesOf place candidate = .ok found ∧ names ∈ found := by
  rw [includedFiles] at h
  cases hfiles : ((globs.flatMap expandBraces).filter (· ≠ [])).mapM (filesOf place) with
  | error e =>
    rw [hfiles] at h
    cases h
  | ok found =>
    rw [hfiles] at h
    obtain rfl := Except.ok.inj h
    simp only [List.mem_flatten, mem_mapM_iff hfiles, List.mem_filter, decide_eq_true_iff]
    constructor
    · rintro ⟨some, ⟨candidate, ⟨hc, hne⟩, hsome⟩, hm⟩
      exact ⟨candidate, hc, hne, some, hsome, hm⟩
    · rintro ⟨candidate, hc, hne, some, hsome, hm⟩
      exact ⟨some, ⟨candidate, ⟨hc, hne⟩, hsome⟩, hm⟩

/-- Discovery succeeds if there is no directory to look in or no glob is refused. -/
theorem exists_discover_iff (excluded : List Text) :
    (∃ paths, discover tree root globs excluded = .ok paths) ↔
      tree.directoryAt? root = none ∨ Accepted globs := by
  rw [discover]
  cases tree.directoryAt? root with
  | none => exact ⟨fun _ => .inl rfl, fun _ => ⟨[], rfl⟩⟩
  | some place =>
    rw [or_iff_right (Option.some_ne_none place), ← exists_includedFiles_iff place]
    dsimp only
    cases includedFiles place globs with
    | error e => constructor <;> rintro ⟨_, ⟨⟩⟩
    | ok files => exact ⟨fun _ => ⟨files, rfl⟩, fun _ => ⟨_, rfl⟩⟩

section
variable (h : discover tree root globs excluded = .ok paths)
include h

theorem pairwise_discover : paths.Pairwise fun p q => p.compare q = .lt := by
  rw [discover] at h
  cases hplace : tree.directoryAt? root with
  | none =>
    rw [hplace] at h
    obtain rfl := Except.ok.inj h
    exact .nil
  | some place =>
    simp only [hplace] at h
    cases hfiles : includedFiles place globs with
    | error e =>
      rw [hfiles] at h
      cases h
    | ok files =>
      rw [hfiles] at h
      obtain rfl := Except.ok.inj h
      exact pairwise_sortPaths _

/-- The paths that discovery gives are those that are found. -/
theorem mem_discover_iff (sound : tree.Sound) :
    path ∈ paths ↔ IsFound tree root globs excluded path := by
  rw [isFound_iff]
  rw [discover] at h
  cases hplace : tree.directoryAt? root with
  | none =>
    rw [hplace] at h
    obtain rfl := Except.ok.inj h
    refine ⟨fun hp => absurd hp List.not_mem_nil, ?_⟩
    rintro ⟨names, rfl, ⟨bytes, there⟩, ⟨candidate, -, parts, hparts, matched⟩, -⟩
    rw [find?_below_none hplace (matched.ne_nil (Glob.parse_ne_nil hparts))] at there
    cases there
  | some place =>
    simp only [hplace] at h
    cases hfiles : includedFiles place globs with
    | error e =>
      rw [hfiles] at h
      cases h
    | ok files =>
      rw [hfiles] at h
      obtain rfl := Except.ok.inj h
      have kept (names : List Text) : (!isExcluded excluded (Path.toText ⟨[], names⟩)) = true ↔
          ∀ candidate ∈ excluded.flatMap expandBraces,
            matchesWhole (Path.toText ⟨[], names⟩) candidate = false := by
        rw [Bool.not_eq_true', isExcluded_eq_false]
      rw [mem_sortPaths, List.mem_map]
      constructor
      · rintro ⟨names, hm, rfl⟩
        obtain ⟨hm, unmatched⟩ := List.mem_filter.1 hm
        obtain ⟨candidate, hc, -, found, hfound, hm⟩ := (mem_includedFiles_iff hfiles).1 hm
        obtain ⟨⟨parts, hparts, matched⟩, there⟩ := (mem_filesOf_iff sound hplace hfound).1 hm
        exact ⟨names, rfl, there, ⟨candidate, hc, parts, hparts, matched⟩,
          (kept names).1 unmatched⟩
      · rintro ⟨names, rfl, there, ⟨candidate, hc, parts, hparts, matched⟩, unmatched⟩
        have hne : candidate ≠ [] := by
          rintro rfl
          cases hparts
        obtain ⟨found, hfound⟩ := (exists_filesOf_iff place).2 ⟨parts, hparts⟩
        have hm := (mem_filesOf_iff sound hplace hfound).2 ⟨⟨parts, hparts, matched⟩, there⟩
        refine ⟨names, List.mem_filter.2 ⟨?_, (kept names).2 unmatched⟩, rfl⟩
        exact (mem_includedFiles_iff hfiles).2 ⟨candidate, hc, hne, found, hfound, hm⟩

/-- Only what the globs and the patterns are written out to counts, in any order. -/
theorem discover_congr (sound : tree.Sound) {globs' excluded' : List Text}
    (hg : ∀ c, c ∈ globs'.flatMap expandBraces ↔ c ∈ globs.flatMap expandBraces)
    (he : ∀ c, c ∈ excluded'.flatMap expandBraces ↔ c ∈ excluded.flatMap expandBraces) :
    discover tree root globs' excluded' = .ok paths := by
  have accepted : Accepted globs' ↔ Accepted globs := by simp only [Accepted, hg]
  obtain ⟨paths', h'⟩ := (exists_discover_iff excluded').2
    (((exists_discover_iff excluded).1 ⟨paths, h⟩).imp_right accepted.2)
  rw [h', eq_of_increasing (pairwise_discover h') (pairwise_discover h) fun path => ?_]
  simp only [mem_discover_iff h' sound, mem_discover_iff h sound, isFound_iff, hg, he]

end

/-- A pattern in a list can be replaced by what it is written out to. -/
theorem mem_flatMap_expandBraces {front behind : List Text} {pattern c : Text} :
    c ∈ (front ++ expandBraces pattern ++ behind).flatMap expandBraces ↔
      c ∈ (front ++ pattern :: behind).flatMap expandBraces := by
  have again : (expandBraces pattern).flatMap expandBraces = expandBraces pattern := by
    rw [List.flatMap_congr fun w hw => expandBraces_of_mem hw, List.flatMap_singleton']
  simp [List.flatMap_append, again]

/-- **Discovery is a set in order.** If no glob is refused, the paths that are found increase
strictly, and they are those of the files that one of the globs, written out, stands for and that
none of the patterns excludes. Order and repetition of globs and patterns do not count, nor does it
whether alternatives are written out; another glob takes no file away, and another pattern brings
none. -/
theorem discover_set (sound : tree.Sound) (h : discover tree root globs excluded = .ok paths) :
    (paths.Pairwise fun p q => p.compare q = .lt) ∧
    (∀ path, path ∈ paths ↔ IsFound tree root globs excluded path) ∧
    (∀ globs' excluded', (∀ g, g ∈ globs' ↔ g ∈ globs) → (∀ g, g ∈ excluded' ↔ g ∈ excluded) →
      discover tree root globs' excluded' = .ok paths) ∧
    (∀ front pattern behind, globs = front ++ pattern :: behind →
      discover tree root (front ++ expandBraces pattern ++ behind) excluded = .ok paths) ∧
    (∀ front pattern behind, excluded = front ++ pattern :: behind →
      discover tree root globs (front ++ expandBraces pattern ++ behind) = .ok paths) ∧
    (∀ globs', globs ⊆ globs' → ∀ paths', discover tree root globs' excluded = .ok paths' →
      paths ⊆ paths') ∧
    ∀ excluded', excluded ⊆ excluded' →
      ∃ paths', discover tree root globs excluded' = .ok paths' ∧ paths' ⊆ paths := by
  refine ⟨pairwise_discover h, fun path => mem_discover_iff h sound, ?_, ?_, ?_, ?_, ?_⟩
  · intro globs' excluded' hg he
    exact discover_congr h sound (fun c => by simp only [List.mem_flatMap, hg])
      fun c => by simp only [List.mem_flatMap, he]
  · rintro front pattern behind rfl
    exact discover_congr h sound (fun c => mem_flatMap_expandBraces) fun c => Iff.rfl
  · rintro front pattern behind rfl
    exact discover_congr h sound (fun c => Iff.rfl) fun c => mem_flatMap_expandBraces
  · intro globs' more paths' h' path hp
    rw [mem_discover_iff h sound] at hp
    obtain ⟨names, rfl, there, ⟨glob, hg, stands⟩, kept⟩ := hp
    exact (mem_discover_iff h' sound).2 ⟨names, rfl, there, ⟨glob, more hg, stands⟩, kept⟩
  · intro excluded' more
    obtain ⟨paths', h'⟩ :=
      (exists_discover_iff excluded').2 ((exists_discover_iff excluded).1 ⟨paths, h⟩)
    refine ⟨paths', h', fun path hp => ?_⟩
    obtain ⟨names, rfl, there, stands, kept⟩ := (mem_discover_iff h' sound).1 hp
    exact (mem_discover_iff h sound).2
      ⟨names, rfl, there, stands, fun pattern hm => kept pattern (more hm)⟩

/-- Stylesheets and a script. -/
def sampleAssets : Node :=
  .directory [("t", .directory [
    ("b", .directory [("c.css", .file []), ("a.js", .file [])]),
    ("a.css", .file [])])]

/-- What two globs find counts once, and a glob that is repeated counts once. -/
theorem discover_set_overlap :
    discover sampleAssets ⟨[], ["t"]⟩ ["*.css", "**/*.\x7bcss,js\x7d", "*.css"] ["**/c.*"] =
      .ok [⟨[], ["t", "a.css"]⟩, ⟨[], ["t", "b", "a.js"]⟩] := by
  have found : discover sampleAssets ⟨[], ["t"]⟩ ["**/*.\x7bcss,js\x7d", "*.css"] ["**/c.*"] =
      .ok [⟨[], ["t", "a.css"]⟩, ⟨[], ["t", "b", "a.js"]⟩] := by cbv
  obtain ⟨-, -, again, -⟩ := discover_set (by decide +kernel) found
  exact again _ _ (fun g => by simp [or_comm]) fun g => Iff.rfl

end

end ThemeProps
