/-
  What globs stand for.

  * `Glob.Matches least`: the components of a glob stand for the names on the way
    to a file, where each `**` passes at least `least` directories;
  * `mem_enterAll_iff` and `mem_directories_iff` say where one component leads,
    and `mem_select_iff`: the files that a glob finds are those on the way to
    which the names match it.
-/
import ThemeProps.Proofs.File.Discovery

namespace ThemeProps

namespace Glob

/-! ## Globs as they are written -/

/-- The components of a glob, which is a relative path, and the slash at its end. -/
theorem parse_eq_ok {s : Text} {glob : List GlobPart} (h : parse s = .ok glob) :
    (Path.parse s).root = [] ∧
      ∃ parts, List.Forall₂ (fun part p => parsePart part = .ok p) (Path.parse s).parts parts ∧
        parts ≠ [] ∧ glob = if s.getLast? = some '/' then parts ++ [.slash] else parts := by
  rw [parse] at h
  dsimp only at h
  split_ifs at h with absolute
  · cases h
  refine ⟨by simpa using absolute, ?_⟩
  cases hp : (Path.parse s).parts.mapM parsePart with
  | error e =>
    rw [hp] at h
    cases h
  | ok parts =>
    rw [hp] at h
    refine ⟨parts, mapM_eq_ok_iff.1 hp, ?_⟩
    cases parts with
    | nil =>
      simp only [bind, Except.bind] at h
      split at h <;> simp_all
    | cons first more =>
      refine ⟨List.cons_ne_nil _ _, ?_⟩
      simp only [bind, Except.bind] at h
      split at h
      · simp_all
      · simp_all
      · next slash _ => rw [if_pos slash, ← Except.ok.inj h]
      · next noSlash _ => rw [if_neg noSlash, ← Except.ok.inj h]

theorem parse_ne_nil {s : Text} {glob : List GlobPart} (h : parse s = .ok glob) : glob ≠ [] := by
  obtain ⟨-, parts, -, hne, rfl⟩ := parse_eq_ok h
  split_ifs
  · exact List.append_ne_nil_of_left_ne_nil hne _
  · exact hne

/-! ## Names that match a glob -/

/-- The components of a glob stand for the names on the way to a file, and each `**` passes at
least `least` directories. What is passed has a name behind it, and neither that nor the name that
a wildcard stands for is ever two dots. -/
def Matches (least : Nat) : List GlobPart → List Text → Prop
  | [], names => names = []
  | .slash :: _, _ => False
  | .name s :: rest, names => ∃ more, names = s :: more ∧ Matches least rest more
  | .wildcard ws :: rest, names =>
    ∃ name more, names = name :: more ∧ name ≠ ['.', '.'] ∧ Wildcard.accepts ws name = true ∧
      Matches least rest more
  | .directories :: rest, names =>
    ∃ passed more, names = passed ++ more ∧ ['.', '.'] ∉ passed ∧ least ≤ passed.length ∧
      more ≠ [] ∧ Matches least rest more

theorem Matches.ne_nil {least : Nat} {glob : List GlobPart} {names : List Text}
    (h : Matches least glob names) (hne : glob ≠ []) : names ≠ [] := by
  cases glob with
  | nil => exact absurd rfl hne
  | cons part rest =>
    cases part with
    | slash => exact h.elim
    | name s =>
      obtain ⟨more, rfl, -⟩ := h
      exact List.cons_ne_nil _ _
    | wildcard ws =>
      obtain ⟨name, more, rfl, -⟩ := h
      exact List.cons_ne_nil _ _
    | directories =>
      obtain ⟨passed, more, rfl, -, -, behind, -⟩ := h
      exact List.append_ne_nil_of_right_ne_nil _ behind

/-! ## Where components lead -/

namespace Place

variable {tree : Node} {loc : Option (List Text)} {place next found : Place} {name : Text}
  {names : List Text}

theorem enterEach?_file (h : place.node.isDirectory = false) :
    place.enterEach? names = some next ↔ names = [] ∧ place = next := by
  cases names with
  | nil => simp [enterEach?]
  | cons name names => simp [h]

theorem isDirectory_of_enterEach? (h : place.enterEach? names = some next) (hne : names ≠ []) :
    place.node.isDirectory = true := by
  by_contra hd
  exact hne ((enterEach?_file (Bool.eq_false_iff.2 hd)).1 h).1

theorem name_of_enter? (h : place.enter? name = some next) : next.name = name := by
  rw [Place.name, enter?_parts h, List.getLast?_concat, Option.getD_some]

/-- The children of a directory are where their names lead. -/
theorem mem_enterAll_iff (sound : place.node.Sound) :
    next ∈ place.enterAll ↔ ∃ name, name ≠ ['.', '.'] ∧ place.enter? name = some next := by
  constructor
  · intro h
    obtain ⟨⟨name, child⟩, hm, rfl⟩ := List.mem_map.1 h
    refine ⟨name, ?_, enter?_of_mem sound hm⟩
    rintro rfl
    exact sound.noDots (List.mem_map.2 ⟨_, hm, rfl⟩)
  · rintro ⟨name, plain, h⟩
    rw [enter?, if_neg plain] at h
    obtain ⟨child, hc, rfl⟩ := Option.map_eq_some_iff.1 h
    exact List.mem_map.2 ⟨(name, child), Node.mem_of_lookup hc, rfl⟩

/-- The directories below a place are those that names other than two dots lead to. -/
theorem mem_directories_iff (sound : tree.Sound) (h : At tree loc place) :
    next ∈ place.directories ↔ ∃ names, ['.', '.'] ∉ names ∧
      place.enterEach? names = some next ∧ next.node.isDirectory = true := by
  induction place using Place.induction generalizing loc with
  | file place isFile =>
    rw [directories_of_file isFile]
    constructor
    · exact fun hm => absurd hm List.not_mem_nil
    · rintro ⟨names, -, he, isDirectory⟩
      obtain ⟨-, rfl⟩ := (enterEach?_file isFile).1 he
      rw [isFile] at isDirectory
      cases isDirectory
  | directory place isDirectory ih =>
    rw [directories_of_directory isDirectory, List.mem_cons, List.mem_flatMap]
    constructor
    · rintro (rfl | ⟨child, hc, hm⟩)
      · exact ⟨[], List.not_mem_nil, rfl, isDirectory⟩
      · obtain ⟨name, plain, he⟩ := (mem_enterAll_iff (h.sound sound)).1 hc
        obtain ⟨names, dots, further, there⟩ := (ih child hc (h.enter? he)).1 hm
        refine ⟨name :: names, ?_, ?_, there⟩
        · rw [List.mem_cons, not_or]
          exact ⟨plain.symm, dots⟩
        · rw [enterEach?_cons, if_pos isDirectory, he]
          exact further
    · rintro ⟨names, dots, he, there⟩
      cases names with
      | nil => exact .inl (Option.some.inj he).symm
      | cons name names =>
        rw [List.mem_cons, not_or] at dots
        rw [enterEach?_cons, if_pos isDirectory] at he
        obtain ⟨child, first, further⟩ := Option.bind_eq_some_iff.1 he
        have hc := (mem_enterAll_iff (h.sound sound)).2 ⟨name, dots.1 ∘ Eq.symm, first⟩
        exact .inr ⟨child, hc, (ih child hc (h.enter? first)).2 ⟨names, dots.2, further, there⟩⟩

end Place

open Place

variable {tree : Node} {loc : Option (List Text)} {place found : Place} {glob rest : List GlobPart}

/-! ## Globs that lead from place to place -/

/-- The glob stands for the names on the way from one place to another. -/
def Reaches (glob : List GlobPart) (place found : Place) : Prop :=
  ∃ names, Matches 0 glob names ∧ place.enterEach? names = some found

theorem reaches_nil : Reaches [] place found ↔ found = place := by
  constructor
  · rintro ⟨names, rfl, he⟩
    exact (Option.some.inj he).symm
  · rintro rfl
    exact ⟨[], rfl, rfl⟩

theorem reaches_name {s : Text} (isDirectory : place.node.isDirectory = true) :
    Reaches (.name s :: rest) place found ↔
      ∃ next, place.enter? s = some next ∧ Reaches rest next found := by
  constructor
  · rintro ⟨names, ⟨more, rfl, hm⟩, he⟩
    rw [enterEach?_cons, if_pos isDirectory] at he
    obtain ⟨next, first, further⟩ := Option.bind_eq_some_iff.1 he
    exact ⟨next, first, more, hm, further⟩
  · rintro ⟨next, first, more, hm, further⟩
    refine ⟨s :: more, ⟨more, rfl, hm⟩, ?_⟩
    rw [enterEach?_cons, if_pos isDirectory, first]
    exact further

theorem reaches_wildcard {ws : List Wildcard} (isDirectory : place.node.isDirectory = true) :
    Reaches (.wildcard ws :: rest) place found ↔
      ∃ name next, name ≠ ['.', '.'] ∧ place.enter? name = some next ∧
        Wildcard.accepts ws name = true ∧ Reaches rest next found := by
  constructor
  · rintro ⟨names, ⟨name, more, rfl, plain, accepted, hm⟩, he⟩
    obtain ⟨next, first, there⟩ := (reaches_name isDirectory).1 ⟨_, ⟨more, rfl, hm⟩, he⟩
    exact ⟨name, next, plain, first, accepted, there⟩
  · rintro ⟨name, next, plain, first, accepted, there⟩
    obtain ⟨names, ⟨more, rfl, hm⟩, he⟩ := (reaches_name isDirectory).2 ⟨next, first, there⟩
    exact ⟨name :: more, ⟨name, more, rfl, plain, accepted, hm⟩, he⟩

theorem reaches_directories (isFile : found.node.isDirectory = false) :
    Reaches (.directories :: rest) place found ↔
      ∃ names next, ['.', '.'] ∉ names ∧ place.enterEach? names = some next ∧
        next.node.isDirectory = true ∧ Reaches rest next found := by
  constructor
  · rintro ⟨names, ⟨passed, more, rfl, dots, -, behind, hm⟩, he⟩
    rw [enterEach?_append] at he
    obtain ⟨next, way, further⟩ := Option.bind_eq_some_iff.1 he
    exact ⟨passed, next, dots, way, isDirectory_of_enterEach? further behind, more, hm, further⟩
  · rintro ⟨passed, next, dots, way, there, more, hm, further⟩
    have behind : more ≠ [] := by
      rintro rfl
      obtain rfl := Option.some.inj further
      rw [isFile] at there
      cases there
    refine ⟨passed ++ more, ⟨passed, more, rfl, dots, Nat.zero_le _, behind, hm⟩, ?_⟩
    rw [enterEach?_append, way]
    exact further

/-- A step on the way leads to a directory, or it is the last one. -/
theorem Reaches.further (h : Reaches glob place found) :
    (glob.isEmpty || place.node.isDirectory) = true := by
  obtain ⟨names, hm, he⟩ := h
  rw [Bool.or_eq_true, List.isEmpty_iff]
  exact or_iff_not_imp_left.2 fun hne => isDirectory_of_enterEach? he (hm.ne_nil hne)

/-! ## Selecting files -/

theorem mem_select_name {s : Text} : found ∈ select (.name s :: rest) place ↔
    ∃ next, place.enter? s = some next ∧ (rest.isEmpty || next.node.isDirectory) = true ∧
      found ∈ select rest next := by
  rw [select]
  cases place.enter? s with
  | none => simp
  | some next => simp [List.mem_ite_nil_right]

theorem mem_select_wildcard {ws : List Wildcard} : found ∈ select (.wildcard ws :: rest) place ↔
    ∃ next ∈ place.enterAll, Wildcard.accepts ws next.name = true ∧
      (rest.isEmpty || next.node.isDirectory) = true ∧ found ∈ select rest next := by
  simp only [select, List.mem_flatMap, List.mem_filter, Bool.and_eq_true]
  constructor
  · rintro ⟨next, ⟨hn, further, accepted⟩, hm⟩
    exact ⟨next, hn, accepted, further, hm⟩
  · rintro ⟨next, hn, accepted, further, hm⟩
    exact ⟨next, ⟨hn, further, accepted⟩, hm⟩

/-- **What a glob finds.** The files that the components of a glob lead to are those on the way to
which the names match them. -/
theorem mem_select_iff (sound : tree.Sound) (h : At tree loc place)
    (start : (glob.isEmpty || place.node.isDirectory) = true)
    (isFile : found.node.isDirectory = false) :
    found ∈ select glob place ↔ Reaches glob place found := by
  induction glob generalizing place loc with
  | nil => rw [select, List.mem_singleton, reaches_nil]
  | cons part rest ih =>
    have isDirectory : place.node.isDirectory = true := by simpa using start
    have onward {name : Text} {next : Place} (first : place.enter? name = some next) :
        ((rest.isEmpty || next.node.isDirectory) = true ∧ found ∈ select rest next) ↔
          Reaches rest next found := by
      constructor
      · rintro ⟨further, hm⟩
        exact (ih (h.enter? first) further).1 hm
      · intro there
        exact ⟨there.further, (ih (h.enter? first) there.further).2 there⟩
    cases part with
    | slash =>
      rw [select, List.mem_singleton]
      constructor
      · rintro rfl
        rw [isFile] at isDirectory
        cases isDirectory
      · rintro ⟨names, hm, -⟩
        exact hm.elim
    | name s =>
      rw [mem_select_name, reaches_name isDirectory]
      exact exists_congr fun next => and_congr_right fun first => onward first
    | wildcard ws =>
      rw [mem_select_wildcard, reaches_wildcard isDirectory]
      constructor
      · rintro ⟨next, hn, accepted, there⟩
        obtain ⟨name, plain, first⟩ := (mem_enterAll_iff (h.sound sound)).1 hn
        rw [name_of_enter? first] at accepted
        exact ⟨name, next, plain, first, accepted, (onward first).1 there⟩
      · rintro ⟨name, next, plain, first, accepted, there⟩
        rw [← name_of_enter? first] at accepted
        exact ⟨next, (mem_enterAll_iff (h.sound sound)).2 ⟨name, plain, first⟩, accepted,
          (onward first).2 there⟩
    | directories =>
      have below : found ∈ select (.directories :: rest) place ↔
          ∃ next ∈ place.directories, found ∈ select rest next := List.mem_flatMap
      rw [below, reaches_directories isFile]
      constructor
      · rintro ⟨next, hn, hm⟩
        obtain ⟨passed, dots, way, there⟩ := (mem_directories_iff sound h).1 hn
        exact ⟨passed, next, dots, way, there, (ih (h.enterEach? way) (by simp [there])).1 hm⟩
      · rintro ⟨passed, next, dots, way, there, hm⟩
        exact ⟨next, (mem_directories_iff sound h).2 ⟨passed, dots, way, there⟩,
          (ih (h.enterEach? way) (by simp [there])).2 hm⟩

end Glob

end ThemeProps
