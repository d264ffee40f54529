/-
  Files of a project that cannot be read.

  * `Project.result` is what a new scan gives, without the messages;
  * `SettingsDocument` is a settings document of a theme, and its `fields` are what
    it says; `Corrupt` says of a node that it holds no such document;
  * `Path.Through`: a path leads to a place or through it;
  * `Project.result_of_cut`: if nothing that is found at some places can be read
    there, the places may as well be empty;
  * `corrupt_as_missing`: a template file that does not hold text counts as a
    missing one, and so does a settings document that is none, unless globs lead
    to it or through it.
-/
import ThemeProps.Project
import ThemeProps.Proofs.File.Discovery
import ThemeProps.Proofs.Project.History

namespace ThemeProps

/-! ## What a scan gives -/

/-- The settings and the registry that a new scan gives, or why it fails. -/
def Project.result (p : Project) (tree : Node) : Except ScanError Scan :=
  (p.rescan tree).map fun (q, _) => q.scan

theorem Project.readSources_fst (tree : Node) (paths : List Path) :
    (readSources tree paths).1 = paths.filterMap fun path =>
      (tree.readText? path).map fun s => ⟨path.toText, s⟩ := by
  induction paths with
  | nil => rfl
  | cons path paths ih =>
    rw [readSources, List.filterMap_cons, ← ih]
    cases tree.readText? path <;> rfl

theorem Project.result_eq (p : Project) (tree : Node) :
    p.result tree = match (Store.load tree p.root).map (·.1) with
      | .error e => .error (.settings e)
      | .ok store =>
        match (p.sourceFiles tree).map fun paths => (readSources tree paths).1 with
        | .error e => .error (.glob e)
        | .ok sources =>
          match scanSources store p.config.onlyRoot sources with
          | .error e => .error (.evaluation e)
          | .ok registry => .ok ⟨registry, store⟩ := by
  rw [result, rescan_eq, sourceFiles]
  cases Store.load tree p.root with
  | error e => rfl
  | ok loaded =>
    simp only [Except.map]
    cases discover tree p.root p.config.included p.config.excluded with
    | error e => rfl
    | ok paths =>
      dsimp only
      cases scanSources loaded.1 p.config.onlyRoot (readSources tree paths).1 <;> rfl

/-- What a scan gives depends on the settings and the texts of the template files alone. -/
theorem Project.result_congr {p : Project} {tree tree' : Node}
    (store : (Store.load tree' p.root).map (·.1) = (Store.load tree p.root).map (·.1))
    (sources : (p.sourceFiles tree').map (fun paths => (readSources tree' paths).1) =
      (p.sourceFiles tree).map fun paths => (readSources tree paths).1) :
    p.result tree' = p.result tree := by
  rw [result_eq, result_eq, store, sources]

/-! ## Settings documents -/

/-- A settings document of a theme: where it is, what is done with its text before it is read, and
what it says. -/
structure SettingsDocument where
  file : Path
  prepare : Text → Text
  say : Value → Fields

namespace SettingsDocument

/-- The values in use. -/
def data : SettingsDocument := ⟨Settings.dataFile, Settings.stripComments, Settings.inUse⟩

/-- The defaults. -/
def schema : SettingsDocument := ⟨Settings.schemaFile, id, Settings.defaults⟩

/-- The settings documents of a theme. -/
def all : List SettingsDocument := [data, schema]

theorem data_mem : data ∈ all := List.mem_cons_self

theorem schema_mem : schema ∈ all := List.mem_cons_of_mem _ List.mem_cons_self

/-- What a text says as a document, if it is one. -/
def ofText (doc : SettingsDocument) (s : Text) : Evaluation (Option Fields) := do
  return (← Json.document? (doc.prepare s)).map doc.say

/-- What the document at a path says; without a document it is nothing. -/
def fieldsAt (doc : SettingsDocument) (tree : Node) (path : Path) : Evaluation Fields :=
  match tree.readText? path with
  | none => .ok []
  | some s => do return (← doc.ofText s).getD []

/-- What the document of a theme says. -/
def fields (doc : SettingsDocument) (tree : Node) (root : Path) : Evaluation Fields :=
  doc.fieldsAt tree (root ++ doc.file)

theorem loadFile_eq (doc : SettingsDocument) (tree : Node) (path : Path) :
    (Settings.loadFile tree path fun tree path =>
      do return (← Settings.readDocument tree path doc.prepare).map doc.say).map (·.1) =
      doc.fieldsAt tree path := by
  rw [fieldsAt, Settings.loadFile, Node.exists?, Settings.readDocument, Node.readText?]
  cases tree.find? path with
  | none => rfl
  | some node =>
    rw [Option.isSome_some, if_pos rfl, Option.bind_some]
    cases node.text? with
    | none => rfl
    | some s =>
      dsimp only [ofText]
      cases Json.document? (doc.prepare s) with
      | error e => rfl
      | ok found => cases found <;> rfl

theorem load_eq (tree : Node) (root : Path) :
    (Store.load tree root).map (·.1) =
      do return Store.ofFields (← data.fields tree root) (← schema.fields tree root) := by
  have current : data.fields tree root = Except.map (·.1)
      (Settings.loadFile tree (root ++ Settings.dataFile) Settings.readData) :=
    (data.loadFile_eq tree (root ++ data.file)).symm
  have defaults : schema.fields tree root = Except.map (·.1)
      (Settings.loadFile tree (root ++ Settings.schemaFile) Settings.readSchema) :=
    (schema.loadFile_eq tree (root ++ schema.file)).symm
  rw [current, defaults, Store.load]
  cases Settings.loadFile tree (root ++ Settings.dataFile) Settings.readData with
  | error e => rfl
  | ok loaded =>
    cases Settings.loadFile tree (root ++ Settings.schemaFile) Settings.readSchema <;> rfl

end SettingsDocument

/-! ## Places that may as well be empty -/

/-- If nothing that is found where a tree is pruned can be read there, the pruned tree gives the
same. -/
theorem Project.result_of_cut {gone : List Text → Prop} [DecidablePred gone] {p : Project}
    {tree' tree : Node} (cut : Node.Cut gone tree' tree) (left : ¬ Path.Passes gone p.root.parts)
    (settings : ∀ doc ∈ SettingsDocument.all, Path.Passes gone (p.root ++ doc.file).parts →
      doc.fields tree p.root = .ok [])
    (unread : ∀ paths, p.sourceFiles tree = .ok paths → ∀ path ∈ paths,
      Path.Passes gone path.parts → tree.readText? path = none) :
    p.result tree' = p.result tree := by
  have same (doc : SettingsDocument) (hdoc : doc ∈ SettingsDocument.all) :
      doc.fields tree' p.root = doc.fields tree p.root := by
    by_cases passes : Path.Passes gone (p.root ++ doc.file).parts
    · rw [settings doc hdoc passes, SettingsDocument.fields, SettingsDocument.fieldsAt,
        Node.readText?, Node.find?_of_passes cut passes]
      rfl
    · rw [SettingsDocument.fields, SettingsDocument.fields, SettingsDocument.fieldsAt,
        SettingsDocument.fieldsAt, Node.readText?_cut cut passes]
  refine Project.result_congr ?_ ?_
  · rw [SettingsDocument.load_eq, SettingsDocument.load_eq, same _ SettingsDocument.data_mem,
      same _ SettingsDocument.schema_mem]
  · rw [sourceFiles, discover_cut cut left, ← sourceFiles]
    cases h : p.sourceFiles tree with
    | error e => rfl
    | ok paths =>
      refine congrArg Except.ok ?_
      beta_reduce
      rw [readSources_fst, readSources_fst, List.filterMap_filter]
      refine List.filterMap_congr fun path hp => ?_
      by_cases passes : Path.Passes gone path.parts
      · rw [unread paths h path hp passes]
        simp [passes]
      · rw [Node.readText?_cut cut passes]
        simp [passes]

/-- The path leads to the place of the names, or through it. -/
abbrev Path.Through (names : List Text) (path : Path) : Prop :=
  Path.Passes (names.reverse <:+ ·) path.parts

section
open Glob (Place)

variable {tree x node : Node} {names parts more : List Text} {bytes bad : Bytes} {p : Project}
  {paths : List Path} {path root : Path} {place : Place} {doc other : SettingsDocument}

/-- The tree without a node is also the tree with another node there, pruned at its place. -/
theorem cut_replaceAt (sound : tree.Sound) (hx : x.Sound) (hn : names ≠ [])
    (there : (tree.below? names).isSome = true) :
    Node.Cut (names.reverse <:+ ·) (Node.removeAt names tree) (Node.replaceAt names x tree) := by
  have cut := Node.cut_removeAt (Node.Sound.replaceAt there sound hx) hn
    (by rw [Node.below?_replaceAt there]; rfl)
  rwa [Node.removeAt_replaceAt there hn] at cut

/-- A way that goes on has not passed a file. -/
theorem left_of_enterEach? (there : tree.below? names = some (.file bytes)) (hne : more ≠ [])
    (h : (Place.top tree).enterEach? (parts ++ more) = some place) :
    ¬ Path.Passes (names.reverse <:+ ·) parts := by
  intro passes
  rw [Place.enterEach?_append] at h
  obtain ⟨between, first, h⟩ := Option.bind_eq_some_iff.1 h
  obtain ⟨name, more, rfl⟩ := List.exists_cons_of_ne_nil hne
  rw [Place.enterEach?_cons, Place.file_of_passes there first passes] at h
  cases h

theorem ne_nil_of_left (h : ¬ Path.Passes (names.reverse <:+ ·) parts) : names ≠ [] := by
  rintro rfl
  exact h ⟨[], List.nil_prefix, [], rfl, List.suffix_rfl⟩

/-- Where a file is found, the way to the directory that is searched has not passed a file. -/
theorem left_of_discover (there : tree.below? names = some (.file bytes))
    (found : p.sourceFiles tree = .ok paths) (hp : path ∈ paths) :
    ¬ Path.Passes (names.reverse <:+ ·) p.root.parts := by
  intro passes
  rw [Project.sourceFiles, discover] at found
  cases h : tree.directoryAt? p.root with
  | none =>
    rw [h] at found
    obtain rfl := Except.ok.inj found
    cases hp
  | some place =>
    rw [Node.directoryAt?] at h
    split_ifs at h
    obtain ⟨place, first, h⟩ := Option.bind_eq_some_iff.1 h
    split_ifs at h with isDirectory
    rw [Place.file_of_passes there first passes] at isDirectory
    cases isDirectory

/-- Where a file holds no text, nothing is read on any path through its place. -/
theorem readText?_of_through (there : tree.below? names = some (.file bad))
    (undecodable : Text.decode? bad = none) (through : path.Through names) :
    tree.readText? path = none := by
  rw [Node.readText?]
  cases h : tree.find? path with
  | none => rfl
  | some node =>
    rw [Node.find?_eq (Node.root_of_find? h)] at h
    obtain ⟨place, first, rfl⟩ := Option.map_eq_some_iff.1 h
    rw [Option.bind_some, Place.file_of_passes there first through, Node.text?, undecodable]
    rfl

/-! ## Documents next to each other -/

theorem Path.location?_pair {base up : List Text} {dir name : Text} (hdir : dir ≠ ['.', '.'])
    (hname : name ≠ ['.', '.']) (h : location? (base ++ [dir, name]) = some up) :
    ∃ outer, location? base = some outer ∧ up = name :: dir :: outer := by
  rw [List.append_cons, location?_concat, location?_concat] at h
  cases hb : location? base with
  | none =>
    rw [hb] at h
    cases h
  | some outer =>
    rw [hb, climb, if_neg hdir, climb, if_neg hname] at h
    exact ⟨outer, rfl, (Option.some.inj h).symm⟩

/-- The way to a file does not lead through another file of the same directory. -/
theorem Path.left_of_sibling {base : List Text} {dir name sibling : Text} (hdir : dir ≠ ['.', '.'])
    (hname : name ≠ ['.', '.']) (hsibling : sibling ≠ ['.', '.']) (hne : sibling ≠ name)
    (left : ¬ Passes (names.reverse <:+ ·) base)
    (loc : location? (base ++ [dir, name]) = some names.reverse) :
    ¬ Passes (names.reverse <:+ ·) (base ++ [dir, sibling]) := by
  obtain ⟨outer, hbase, here⟩ := location?_pair hdir hname loc
  rw [List.append_cons, passes_concat, passes_concat, location?_concat, hbase, here, climb,
    if_neg hdir, climb, if_neg hsibling]
  rintro ((h | ⟨up, hup, behind⟩) | ⟨up, hup, behind⟩)
  · rw [here] at left
    exact left h
  · obtain rfl := Option.some.inj hup
    exact absurd behind.length_le (Nat.not_succ_le_self _)
  · obtain rfl := Option.some.inj hup
    have same := behind.eq_of_length rfl
    exact hne (List.cons.inj same).1.symm

namespace SettingsDocument

/-- The node holds no such document: it is a file that is no text, or whose text is no document, or
a directory. -/
inductive Corrupt (doc : SettingsDocument) : Node → Prop
  | bytes {bytes : Bytes} (undecodable : Text.decode? bytes = none) : doc.Corrupt (.file bytes)
  | text {bytes : Bytes} {s : Text} (holds : (Node.file bytes).text? = some s)
    (invalid : Json.document? (doc.prepare s) = .ok none) : doc.Corrupt (.file bytes)
  | directory {children : List (Text × Node)} (sound : (Node.directory children).Sound) :
    doc.Corrupt (.directory children)

theorem Corrupt.sound (h : doc.Corrupt x) : x.Sound := by
  cases h with
  | bytes undecodable => exact .file _
  | text holds invalid => exact .file _
  | directory sound => exact sound

theorem Corrupt.ofText_eq (h : doc.Corrupt x) {s : Text} (hs : x.text? = some s) :
    doc.ofText s = .ok none := by
  cases h with
  | bytes undecodable =>
    rw [Node.text?, undecodable] at hs
    cases hs
  | text holds invalid =>
    obtain rfl := Option.some.inj (holds.symm.trans hs)
    rw [ofText, invalid]
    rfl
  | directory sound => cases hs

/-- A document that is none says nothing. -/
theorem Corrupt.fields (h : doc.Corrupt x) (there : tree.below? names = some x)
    (loc : Path.location? (root ++ doc.file).parts = some names.reverse) :
    doc.fields tree root = .ok [] := by
  rw [SettingsDocument.fields, fieldsAt, Node.readText?]
  cases found : tree.find? (root ++ doc.file) with
  | none => rfl
  | some node =>
    rw [Node.eq_of_find? there loc found, Option.bind_some]
    cases hs : x.text? with
    | none => rfl
    | some s =>
      dsimp only
      rw [h.ofText_eq hs]
      rfl

theorem file_of_mem (h : doc ∈ all) :
    ∃ name, doc.file = ⟨[], ["config", name]⟩ ∧ name ≠ ['.', '.'] := by
  rcases List.mem_cons.1 h with rfl | h
  · exact ⟨"settings_data.json", rfl, by decide⟩
  · obtain rfl := List.mem_singleton.1 h
    exact ⟨"settings_schema.json", rfl, by decide⟩

theorem eq_of_file (hdoc : doc ∈ all) (hother : other ∈ all) (h : other.file = doc.file) :
    other = doc := by
  have differ : data.file ≠ schema.file := by decide
  rcases List.mem_cons.1 hdoc with rfl | hdoc <;> rcases List.mem_cons.1 hother with rfl | hother
  · rfl
  · obtain rfl := List.mem_singleton.1 hother
    exact absurd h.symm differ
  · obtain rfl := List.mem_singleton.1 hdoc
    exact absurd h differ
  · rw [List.mem_singleton.1 hother, List.mem_singleton.1 hdoc]

/-- The way to one document does not lead through the other one. -/
theorem left_of_other (hdoc : doc ∈ all) (hother : other ∈ all) (hne : other.file ≠ doc.file)
    (left : ¬ Path.Passes (names.reverse <:+ ·) root.parts)
    (loc : Path.location? (root ++ doc.file).parts = some names.reverse) :
    ¬ (root ++ other.file).Through names := by
  obtain ⟨name, hfile, plain⟩ := file_of_mem hdoc
  obtain ⟨name', hfile', plain'⟩ := file_of_mem hother
  have differ : name' ≠ name := by
    rintro rfl
    exact hne (hfile'.trans hfile.symm)
  rw [hfile] at loc
  rw [hfile']
  exact Path.left_of_sibling (by decide) plain plain' differ left loc

end SettingsDocument

/-! ## Corrupt files and missing files -/

/-- Outside the place of a document the trees are the same for the project: the other document says
the same, the same template files are found, and every file has the same text. -/
structure Project.SameElsewhere (p : Project) (names : List Text) (doc : SettingsDocument)
    (tree tree' : Node) : Prop where
  settings : ∀ other ∈ SettingsDocument.all, other.file ≠ doc.file →
    other.fields tree' p.root = other.fields tree p.root
  files : p.sourceFiles tree' =
    (p.sourceFiles tree).map (·.filter fun path => decide (¬ path.Through names))
  texts : ∀ path : Path, ¬ path.Through names → tree'.readText? path = tree.readText? path

/-- A file without text gives what no file gives. -/
theorem Project.result_undecodable (sound : tree.Sound)
    (there : tree.below? names = some (.file bytes)) (undecodable : Text.decode? bad = none)
    (left : ¬ Path.Passes (names.reverse <:+ ·) p.root.parts) :
    p.result (Node.replaceAt names (.file bad) tree) = p.result (Node.removeAt names tree) := by
  have known : (tree.below? names).isSome = true := by rw [there]; rfl
  have held := Node.below?_replaceAt known (.file bad)
  have cut := cut_replaceAt sound (.file bad) (ne_nil_of_left left) known
  refine (Project.result_of_cut cut left (fun doc _ through => ?_)
    fun _ _ path _ through => readText?_of_through held undecodable through).symm
  rw [SettingsDocument.fields, SettingsDocument.fieldsAt,
    readText?_of_through held undecodable through]

/-- A document that is none gives what no document gives, if no template file is found at its place
or through it. -/
theorem Project.result_corrupt (sound : tree.Sound) (hdoc : doc ∈ SettingsDocument.all)
    (loc : Path.location? (p.root ++ doc.file).parts = some names.reverse)
    (found : tree.find? (p.root ++ doc.file) = some (.file bytes)) (corrupt : doc.Corrupt x)
    (unselected : ∀ paths, p.sourceFiles (Node.replaceAt names x tree) = .ok paths →
      ∀ path ∈ paths, ¬ path.Through names) :
    p.result (Node.replaceAt names x tree) = p.result (Node.removeAt names tree) ∧
      p.SameElsewhere names doc tree (Node.replaceAt names x tree) := by
  have there : tree.below? names = some (.file bytes) := by
    obtain ⟨ancestors, here⟩ := Node.at_find? found
    rw [loc] at here
    rw [← here.below?, List.reverse_reverse]
  have known : (tree.below? names).isSome = true := by rw [there]; rfl
  have left : ¬ Path.Passes (names.reverse <:+ ·) p.root.parts := by
    obtain ⟨name, hfile, -⟩ := SettingsDocument.file_of_mem hdoc
    rw [Node.find?_eq (Node.root_of_find? found), hfile] at found
    obtain ⟨place, way, -⟩ := Option.map_eq_some_iff.1 found
    exact left_of_enterEach? there (List.cons_ne_nil _ _) way
  have hn := ne_nil_of_left left
  have held := Node.below?_replaceAt known x
  have cut := cut_replaceAt sound corrupt.sound hn known
  have before := Node.cut_removeAt sound hn known
  refine ⟨(Project.result_of_cut cut left (fun other hother through => ?_)
    fun paths hp path hm through => absurd through (unselected paths hp path hm)).symm,
    fun other hother hne => ?_, ?_, fun path through => ?_⟩
  · by_cases same : other.file = doc.file
    · obtain rfl := SettingsDocument.eq_of_file hdoc hother same
      exact corrupt.fields held loc
    · exact absurd through (SettingsDocument.left_of_other hdoc hother same left loc)
  · have through := SettingsDocument.left_of_other hdoc hother hne left loc
    rw [SettingsDocument.fields, SettingsDocument.fields, SettingsDocument.fieldsAt,
      SettingsDocument.fieldsAt, ← Node.readText?_cut cut through,
      Node.readText?_cut before through]
  · rw [sourceFiles, sourceFiles, ← discover_cut before left, discover_cut cut left]
    cases h : discover (Node.replaceAt names x tree) p.root p.config.included p.config.excluded with
    | error e => rfl
    | ok paths =>
      refine congrArg Except.ok (List.filter_eq_self.2 fun path hm => ?_).symm
      exact decide_eq_true (unselected paths h path hm)
  · rw [← Node.readText?_cut cut through, Node.readText?_cut before through]

end

/-- **What cannot be read counts as missing.** In every theme and for every configuration:

* a template file that is found sits at some place of the tree, and with bytes that encode no text
  in its place a new scan gives the same settings and the same registry, or fails in the same way,
  as without the file;
* the same holds of a settings document with something in its place that is none, which may be a
  directory, unless a template file is then found there or through it; and the other document, the
  template files found and the texts of all other files are as before. -/
theorem corrupt_as_missing (p : Project) {tree : Node} (sound : tree.Sound) :
    (∀ paths path, p.sourceFiles tree = .ok paths → path ∈ paths →
      ∃ names bytes, Path.location? path.parts = some names.reverse ∧
        tree.below? names = some (.file bytes) ∧ ∀ bad, Text.decode? bad = none →
          p.result (Node.replaceAt names (.file bad) tree) =
            p.result (Node.removeAt names tree)) ∧
    ∀ doc ∈ SettingsDocument.all, ∀ names bytes x,
      Path.location? (p.root ++ doc.file).parts = some names.reverse →
      tree.find? (p.root ++ doc.file) = some (.file bytes) → doc.Corrupt x →
      (∀ paths, p.sourceFiles (Node.replaceAt names x tree) = .ok paths →
        ∀ path ∈ paths, ¬ path.Through names) →
      p.result (Node.replaceAt names x tree) = p.result (Node.removeAt names tree) ∧
        p.SameElsewhere names doc tree (Node.replaceAt names x tree) := by
  refine ⟨fun paths path found hp => ?_, fun doc hdoc names bytes x loc found corrupt unselected =>
    Project.result_corrupt sound hdoc loc found corrupt unselected⟩
  obtain ⟨names, bytes, loc, there⟩ := at_discover sound found hp
  refine ⟨names, bytes, loc, there, fun bad undecodable => ?_⟩
  exact Project.result_undecodable sound there undecodable (left_of_discover there found hp)

/-- A theme with settings and a template. -/
def sampleTheme : Node :=
  let file (s : Text) : Node := .file (s.map fun c => UInt8.ofNat c.toNat)
  .directory [("t", .directory [
    ("config", .directory [("settings_data.json", file "\x7b\x7d")]),
    ("a.liquid", file "<style>:root \x7b --a: 1px; \x7d</style>")])]

/-- A project over a theme in the directory `t`, with one glob. -/
def sampleProject (glob : Text) : Project :=
  { root := ⟨[], ["t"]⟩, config := { Config.default with included := [glob] } }

/-- The properties that a project has after a new scan. -/
def Project.namesAfter (p : Project) (tree : Node) : Option (List Text) :=
  (p.result tree).toOption.map fun scan => scan.registry.entries.map (·.name)

theorem Project.exists_of_namesAfter {p : Project} {tree : Node} {ss : List Text}
    (h : p.namesAfter tree = some ss) : ∃ scan, p.result tree = .ok scan := by
  rw [namesAfter] at h
  cases hr : p.result tree with
  | error e =>
    rw [hr] at h
    cases h
  | ok scan => exact ⟨scan, rfl⟩

/-- A template that is no text, and a directory in the place of the values in use. -/
theorem corrupt_as_missing_sample :
    let p := sampleProject "*.liquid"
    let source : List Text := ["t", "a.liquid"]
    let document : List Text := ["t", "config", "settings_data.json"]
    p.result (Node.replaceAt source (.file [0xFF]) sampleTheme) =
      p.result (Node.removeAt source sampleTheme) ∧
    p.namesAfter (Node.removeAt source sampleTheme) = some [] ∧
    p.result (Node.replaceAt document Node.empty sampleTheme) =
      p.result (Node.removeAt document sampleTheme) ∧
    p.namesAfter (Node.removeAt document sampleTheme) = some [("--a" : Text)] := by
  intro p source document
  have sound : sampleTheme.Sound := by decide +kernel
  obtain ⟨sources, documents⟩ := corrupt_as_missing p sound
  refine ⟨?_, by decide +kernel, ?_, by decide +kernel⟩
  · have found : (p.sourceFiles sampleTheme).toOption =
        some [⟨[], ["t", "a.liquid"]⟩] := by decide +kernel
    cases hp : p.sourceFiles sampleTheme with
    | error e =>
      rw [hp] at found
      cases found
    | ok paths =>
      rw [hp] at found
      obtain rfl := Option.some.inj found
      obtain ⟨names, bytes, loc, -, same⟩ := sources _ _ hp List.mem_cons_self
      obtain rfl : source = names := by
        rw [← List.reverse_inj]
        exact Option.some.inj loc
      exact same [0xFF] (by decide +kernel)
  · refine (documents .data SettingsDocument.data_mem document [123, 125] Node.empty (by decide)
      rfl (.directory (by decide)) fun paths hp path hm => ?_).1
    have found : (p.sourceFiles (Node.replaceAt document Node.empty sampleTheme)).toOption =
        some [⟨[], ["t", "a.liquid"]⟩] := by decide +kernel
    rw [hp] at found
    obtain rfl := Option.some.inj found
    obtain rfl := List.mem_singleton.1 hm
    decide

/-- Not every directory counts as missing: here a glob leads through the directory in the place of
the values in use, which it does not find itself, to a template. -/
theorem not_directory_as_missing :
    ¬ ∀ (p : Project) (tree : Node) (names : List Text) (bytes : Bytes)
      (children : List (Text × Node)), tree.Sound → (Node.directory children).Sound →
      Path.location? (p.root ++ Settings.dataFile).parts = some names.reverse →
      tree.find? (p.root ++ Settings.dataFile) = some (.file bytes) →
      (∀ paths, p.sourceFiles (Node.replaceAt names (.directory children) tree) = .ok paths →
        p.root ++ Settings.dataFile ∉ paths) →
      (∃ scan, p.result (Node.replaceAt names (.directory children) tree) = .ok scan) →
      (∃ scan, p.result (Node.removeAt names tree) = .ok scan) →
      p.result (Node.replaceAt names (.directory children) tree) =
        p.result (Node.removeAt names tree) := by
  intro h
  let p := sampleProject "config/settings_data.json/../../a.liquid"
  let names : List Text := ["t", "config", "settings_data.json"]
  let replaced := Node.replaceAt names (.directory []) sampleTheme
  let removed := Node.removeAt names sampleTheme
  have found : p.namesAfter replaced = some [("--a" : Text)] := by decide +kernel
  have missing : p.namesAfter removed = some [] := by decide +kernel
  have unselected : (p.sourceFiles replaced).toOption =
      some [⟨[], ["t", "config", "settings_data.json", "..", "..", "a.liquid"]⟩] := by
    decide +kernel
  have same : p.result replaced = p.result removed := by
    refine h p sampleTheme names [123, 125] [] (by decide +kernel) (by decide) (by decide) rfl
      (fun paths hp => ?_) (Project.exists_of_namesAfter found)
      (Project.exists_of_namesAfter missing)
    change p.sourceFiles replaced = .ok paths at hp
    rw [hp] at unselected
    obtain rfl := Option.some.inj unselected
    decide
  have equal : p.namesAfter replaced = p.namesAfter removed :=
    congrArg (fun result => result.toOption.map fun scan => scan.registry.entries.map (·.name)) same
  rw [found, missing] at equal
  exact absurd equal (by decide)

end ThemeProps
