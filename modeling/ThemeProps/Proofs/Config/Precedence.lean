/-
  Which value an option of a configuration has.

  * `Config.Field.spellings` are the two keys of an option, and `Config.Patterns`,
    `Config.Flag` and `Config.Positive` tell which values are valid for it;
  * `Config.Chosen`: the value of an option is the one that is given, or else the
    last valid one of the mapping, or else the default;
  * `Config.Governs`: one option and the reader for its values. What a mapping says
    about it is shown in `Governs.assignFields`, once for all options;
  * `Config.Precedence` says of a configuration that all its options are chosen like
    this, and `config_precedence` that it holds of the one that a scan uses.
-/
import ThemeProps.CommandLine.Outcome
import ThemeProps.Proofs.Decimal.Conversion
import ThemeProps.Proofs.Lists

namespace ThemeProps.Config

/-! ## Keys and valid values -/

/-- The keys that an option can be written with. -/
def Field.spellings : Field → List Text
  | included => ["includePatterns", "include_patterns"]
  | excluded => ["excludePatterns", "exclude_patterns"]
  | converts => ["remToPxConversion", "rem_to_px_conversion"]
  | base => ["baseFontSize", "base_font_size"]
  | onlyRoot => ["onlyRoot", "only_root"]

theorem Field.ofKey?_eq_some {key : Text} {field : Field} :
    ofKey? key = some field ↔ key ∈ field.spellings := by
  constructor
  · intro h
    rw [ofKey?] at h
    split_ifs at h with h₁ h₂ h₃ h₄ h₅
    all_goals
      obtain rfl := Option.some.inj h
      simpa [spellings]
  · intro h
    cases field <;> simp only [spellings, List.mem_cons, List.not_mem_nil, or_false] at h <;>
      rcases h with rfl | rfl <;> decide

/-- A text is one pattern, and a list of texts is a list of patterns. -/
inductive Patterns : Value → List Text → Prop
  | one (pattern : Text) : Patterns (.str pattern) [pattern]
  | list (i : Identity) (patterns : List Text) : Patterns (.list i (patterns.map .str)) patterns

/-- A truth value. -/
inductive Flag : Value → Bool → Prop
  | bool (b : Bool) : Flag (.bool b) b

/-- The number is above zero. -/
def Above : Number → Prop
  | .int n => 0 < n
  | .float x => 0 < x

/-- A number above zero, and the double that it is converted to. -/
inductive Positive : Value → Number → Prop
  | number {n : Number} {x : Float} (above : Above n) (double : n.toFloat = .ok x) :
      Positive (.number n) (.float x)

theorem mapM_text?_eq_some {items : List Value} {patterns : List Text} :
    items.mapM text? = some patterns ↔ items = patterns.map .str := by
  induction items generalizing patterns with
  | nil => cases patterns <;> simp
  | cons v items ih =>
    have first {s : Text} : text? v = some s ↔ v = .str s := by cases v <;> simp [text?]
    rw [List.mapM_cons, Option.bind_eq_bind, Option.bind_eq_some_iff]
    simp only [first, Option.bind_eq_bind, Option.bind_eq_some_iff, ih, Option.pure_def,
      Option.some.injEq]
    constructor
    · rintro ⟨s, rfl, rest, rfl, rfl⟩
      rfl
    · intro h
      cases patterns with
      | nil => cases h
      | cons s patterns =>
        obtain ⟨rfl, rfl⟩ := List.cons.inj h
        exact ⟨s, rfl, patterns, rfl, rfl⟩

theorem patterns?_eq_some {v : Value} {patterns : List Text} :
    patterns? v = some patterns ↔ Patterns v patterns := by
  constructor
  · intro h
    cases v with
    | str s =>
      cases h
      exact .one s
    | list i items =>
      obtain rfl := mapM_text?_eq_some.1 h
      exact .list i patterns
    | _ => cases h
  · rintro (s | ⟨i, patterns⟩)
    · rfl
    · exact mapM_text?_eq_some.2 rfl

theorem flag?_eq_some {v : Value} {b : Bool} : flag? v = some b ↔ Flag v b := by
  constructor
  · intro h
    cases v <;> cases h
    exact .bool b
  · rintro ⟨⟩
    rfl

/-- The double that a number above zero is converted to. -/
def double? (v : Value) : Option Number :=
  (positive? v).bind fun n => n.toFloat.toOption.map .float

theorem positive?_eq_some {v : Value} {n : Number} :
    positive? v = some n ↔ v = .number n ∧ Above n := by
  constructor
  · intro h
    rw [positive?.eq_def] at h
    split at h
    · split_ifs at h with above
      cases h
      exact ⟨rfl, above⟩
    · split_ifs at h with above
      cases h
      exact ⟨rfl, above⟩
    · cases h
  · rintro ⟨rfl, above⟩
    cases n with
    | int n => exact if_pos above
    | float x => exact if_pos above

theorem double?_eq_some {v : Value} {n : Number} : double? v = some n ↔ Positive v n := by
  constructor
  · intro h
    obtain ⟨m, positive, converted⟩ := Option.bind_eq_some_iff.1 h
    obtain ⟨x, double, rfl⟩ := Option.map_eq_some_iff.1 converted
    obtain ⟨rfl, above⟩ := positive?_eq_some.1 positive
    exact .number above (toOption_eq_some.1 double)
  · rintro ⟨above, double⟩
    rw [double?, positive?_eq_some.2 ⟨rfl, above⟩, Option.bind_some, double]
    rfl

/-- The double that a number above zero is converted to is above zero. -/
theorem Positive.pos {v : Value} {n : Number} (h : Positive v n) : ∃ x, n = .float x ∧ 0 < x := by
  obtain @⟨n, x, above, double⟩ := h
  refine ⟨x, rfl, ?_⟩
  cases n with
  | int n =>
    rw [Number.toFloat, roundInt?] at double
    split_ifs at double
    cases double
    exact Double.ofInt_pos above
  | float y =>
    cases double
    exact above

/-! ## Reading a mapping -/

/-- A number is not too large for a double. -/
def InRange (v : Value) : Prop := ∀ n, v = .number n → ∃ x, n.toFloat = .ok x

/-- The options with one of them set, if the value is valid for it. -/
def assign (c : Config) (field : Field) (v : Value) : Config :=
  match field with
  | .included => { c with included := (patterns? v).getD c.included }
  | .excluded => { c with excluded := (patterns? v).getD c.excluded }
  | .converts => { c with converts := (flag? v).getD c.converts }
  | .base => { c with base := (double? v).getD c.base }
  | .onlyRoot => { c with onlyRoot := (flag? v).getD c.onlyRoot }

/-- The options after a field of a mapping. -/
def assignField (c : Config) (entry : Text × Value) : Config :=
  match Field.ofKey? entry.1 with
  | none => c
  | some field => c.assign field entry.2

theorem set?_eq (c : Config) (field : Field) {v : Value} (inRange : InRange v) :
    (c.set? field v = none ∧ c.assign field v = c) ∨
      c.set? field v = some (.ok (c.assign field v)) := by
  cases field with
  | included | excluded =>
    rw [set?, assign]
    cases patterns? v with
    | none => exact .inl ⟨rfl, rfl⟩
    | some ps => exact .inr rfl
  | converts | onlyRoot =>
    rw [set?, assign]
    cases flag? v with
    | none => exact .inl ⟨rfl, rfl⟩
    | some b => exact .inr rfl
  | base =>
    rw [set?, assign, double?]
    cases h : positive? v with
    | none => exact .inl ⟨rfl, rfl⟩
    | some n =>
      obtain ⟨x, double⟩ := inRange n (positive?_eq_some.1 h).1
      refine .inr ?_
      rw [Option.map_some, Option.bind_some, double]
      rfl

theorem readField_eq (c : Config) (key : Text) {v : Value} (inRange : InRange v) :
    ∃ ms, c.readField key v = .ok (c.assignField (key, v), ms) := by
  rw [readField, assignField]
  cases Field.ofKey? key with
  | none => exact ⟨_, rfl⟩
  | some field =>
    dsimp only
    rcases c.set?_eq field inRange with ⟨invalid, same⟩ | valid
    · rw [invalid, same]
      exact ⟨_, rfl⟩
    · rw [valid]
      exact ⟨_, rfl⟩

theorem readFields_eq (c : Config) {fields : Fields} (inRange : ∀ entry ∈ fields, InRange entry.2) :
    ∃ ms, c.readFields fields = .ok (fields.foldl assignField c, ms) := by
  induction fields generalizing c with
  | nil => exact ⟨[], rfl⟩
  | cons entry fields ih =>
    obtain ⟨key, v⟩ := entry
    rw [List.forall_mem_cons] at inRange
    obtain ⟨ms, first⟩ := c.readField_eq key inRange.1
    obtain ⟨more, rest⟩ := ih (c.assignField (key, v)) inRange.2
    rw [readFields, first]
    refine ⟨ms ++ more, ?_⟩
    show (do let read ← readFields _ fields; return (read.1, ms ++ read.2)) = _
    rw [rest]
    rfl

/-- One option of a configuration and the reader for its values. -/
structure Governs {α : Type} (field : Field) (read : Value → Option α) (get : Config → α) :
    Prop where
  same : ∀ c v, get (c.assign field v) = (read v).getD (get c)
  other : ∀ c v other, other ≠ field → get (c.assign other v) = get c

theorem governs_included : Governs .included patterns? Config.included where
  same _ _ := rfl
  other _ _ other h := by cases other <;> first | rfl | exact absurd rfl h

theorem governs_excluded : Governs .excluded patterns? Config.excluded where
  same _ _ := rfl
  other _ _ other h := by cases other <;> first | rfl | exact absurd rfl h

theorem governs_converts : Governs .converts flag? Config.converts where
  same _ _ := rfl
  other _ _ other h := by cases other <;> first | rfl | exact absurd rfl h

theorem governs_base : Governs .base double? Config.base where
  same _ _ := rfl
  other _ _ other h := by cases other <;> first | rfl | exact absurd rfl h

theorem governs_onlyRoot : Governs .onlyRoot flag? Config.onlyRoot where
  same _ _ := rfl
  other _ _ other h := by cases other <;> first | rfl | exact absurd rfl h

section
variable {α : Type} {field : Field} {read : Value → Option α} {get : Config → α}

/-- The last value that is read for an option. -/
def lastValue? (field : Field) (read : Value → Option α) (fields : Fields) : Option α :=
  fields.reverse.findSome? fun entry =>
    if Field.ofKey? entry.1 = some field then read entry.2 else none

theorem Governs.assignField (h : Governs field read get) (c : Config) (entry : Text × Value) :
    get (c.assignField entry) =
      (if Field.ofKey? entry.1 = some field then read entry.2 else none).getD (get c) := by
  rw [Config.assignField]
  cases known : Field.ofKey? entry.1 with
  | none => rfl
  | some other =>
    by_cases same : other = field
    · subst same
      rw [if_pos rfl]
      exact h.same c entry.2
    · rw [if_neg fun he => same (Option.some.inj he)]
      exact h.other c entry.2 other same

/-- The value of an option is the last one that is read for it. -/
theorem Governs.assignFields (h : Governs field read get) (c : Config) (fields : Fields) :
    get (fields.foldl Config.assignField c) =
      (lastValue? field read fields).getD (get c) := by
  induction fields generalizing c with
  | nil => rfl
  | cons entry fields ih =>
    rw [List.foldl_cons, ih, h.assignField, lastValue?, lastValue?, List.reverse_cons,
      List.findSome?_append, List.findSome?_singleton]
    cases fields.reverse.findSome? _ with
    | none => rfl
    | some a => rfl

end

/-! ## Which value counts -/

section
variable {α : Type}

/-- The value that an option has: the one that is given, or else the last of the mapping that is
valid for it, or else the default. -/
inductive Chosen (given : Option α) (field : Field) (Valid : Value → α → Prop) (fields : Fields)
    (default : α) : α → Prop
  | given {a : α} (isGiven : given = some a) : Chosen given field Valid fields default a
  | configured {a : α} {key : Text} {v : Value} {before after : Fields} (notGiven : given = none)
      (written : fields = before ++ (key, v) :: after) (spelled : key ∈ field.spellings)
      (valid : Valid v a)
      (last : ∀ entry ∈ after, entry.1 ∈ field.spellings → ∀ a, ¬ Valid entry.2 a) :
      Chosen given field Valid fields default a
  | default (notGiven : given = none)
      (none : ∀ entry ∈ fields, entry.1 ∈ field.spellings → ∀ a, ¬ Valid entry.2 a) :
      Chosen given field Valid fields default default

theorem chosen_lastValue? {field : Field} {read : Value → Option α} {Valid : Value → α → Prop}
    (valid : ∀ v a, read v = some a ↔ Valid v a) (given : Option α) (fields : Fields)
    (default : α) : Chosen given field Valid fields default
      (given.getD ((lastValue? field read fields).getD default)) := by
  have invalid {entry : Text × Value}
      (h : (if Field.ofKey? entry.1 = some field then read entry.2 else none) = none)
      (spelled : entry.1 ∈ field.spellings) (a : α) : ¬ Valid entry.2 a := by
    rw [if_pos (Field.ofKey?_eq_some.2 spelled)] at h
    rw [← valid, h]
    exact nofun
  cases isGiven : given with
  | some a => exact .given rfl
  | none =>
    rw [Option.getD_none]
    cases found : lastValue? field read fields with
    | none =>
      refine .default rfl fun entry mem => invalid ?_
      exact List.findSome?_eq_none_iff.1 found entry (List.mem_reverse.2 mem)
    | some a =>
      obtain ⟨after, ⟨key, v⟩, before, written, here, later⟩ := List.findSome?_eq_some_iff.1 found
      split_ifs at here with known
      have written : fields = before.reverse ++ (key, v) :: after.reverse := by
        rw [List.reverse_eq_iff] at written
        simpa using written
      refine .configured rfl written (Field.ofKey?_eq_some.1 known) ((valid v a).1 here)
        fun entry mem => invalid ?_
      exact later entry (List.mem_reverse.1 mem)

end

/-- The patterns of an option of the command line, if there are any. -/
def given? (patterns : List Text) : Option (List Text) :=
  if patterns = [] then none else some patterns

/-- The options are chosen one by one from a command line, a mapping and the defaults. -/
structure Precedence (arguments : Arguments) (fields : Fields) (c : Config) : Prop where
  included : Chosen (given? (arguments.values "--include")) .included Patterns fields
    default.included c.included
  excluded : Chosen (given? (arguments.values "--exclude")) .excluded Patterns fields
    default.excluded c.excluded
  converts : Chosen none .converts Flag fields default.converts c.converts
  base : Chosen none .base Positive fields default.base c.base
  onlyRoot : Chosen (if arguments.has "--all-selectors" then some false else none) .onlyRoot Flag
    fields default.onlyRoot c.onlyRoot

theorem overrideAll_scanOverrides (c : Config) (arguments : Arguments) :
    c.overrideAll (Command.scanOverrides arguments) = { c with
      included := (given? (arguments.values "--include")).getD c.included
      excluded := (given? (arguments.values "--exclude")).getD c.excluded
      onlyRoot := (if arguments.has "--all-selectors" then some false else none).getD
        c.onlyRoot } := by
  rw [Command.scanOverrides, given?, given?]
  generalize arguments.values "--include" = included
  generalize arguments.values "--exclude" = excluded
  cases included <;> cases excluded <;> cases arguments.has "--all-selectors" <;> rfl

/-- What is read from a mapping, under the options of a command line. -/
theorem precedence_overrideAll (source : Option Path) (arguments : Arguments) (fields : Fields) :
    Precedence arguments fields ((fields.foldl assignField { default with source }).overrideAll
      (Command.scanOverrides arguments)) := by
  rw [overrideAll_scanOverrides]
  constructor
  · dsimp only
    rw [governs_included.assignFields]
    exact chosen_lastValue? (fun _ _ => patterns?_eq_some) _ _ _
  · dsimp only
    rw [governs_excluded.assignFields]
    exact chosen_lastValue? (fun _ _ => patterns?_eq_some) _ _ _
  · dsimp only
    rw [governs_converts.assignFields]
    exact chosen_lastValue? (fun _ _ => flag?_eq_some) none _ _
  · dsimp only
    rw [governs_base.assignFields]
    exact chosen_lastValue? (fun _ _ => double?_eq_some) none _ _
  · dsimp only
    rw [governs_onlyRoot.assignFields]
    exact chosen_lastValue? (fun _ _ => flag?_eq_some) _ _ _

theorem Precedence.base_pos {arguments : Arguments} {fields : Fields} {c : Config}
    (h : Precedence arguments fields c) : ∃ x, c.base = .float x ∧ 0 < x := by
  have chosen := h.base
  generalize c.base = n at chosen ⊢
  cases chosen with
  | given isGiven => cases isGiven
  | configured _ _ _ valid => exact valid.pos
  | default => exact ⟨Units.defaultBase, rfl, by decide⟩

/-! ## What does not count -/

/-- The value is valid for an option. -/
def Field.Valid (v : Value) : Field → Prop
  | included => ∃ patterns, Patterns v patterns
  | excluded => ∃ patterns, Patterns v patterns
  | converts => ∃ b, Flag v b
  | base => ∃ n, Positive v n
  | onlyRoot => ∃ b, Flag v b

/-- The key is not known, or the value is not valid for the option that it stands for. -/
def Ignored (entry : Text × Value) : Prop :=
  ∀ field : Field, entry.1 ∈ field.spellings → ¬ field.Valid entry.2

theorem assign_of_not_valid {field : Field} {v : Value} (h : ¬ field.Valid v) (c : Config) :
    c.assign field v = c := by
  have unread {α : Type} {read : Option α} {Valid : α → Prop} (valid : ∀ a, read = some a ↔ Valid a)
      (h : ¬ ∃ a, Valid a) : read = none :=
    Option.eq_none_iff_forall_ne_some.2 fun a ha => h ⟨a, (valid a).1 ha⟩
  cases field with
  | included | excluded => rw [assign, unread (fun _ => patterns?_eq_some) h, Option.getD_none]
  | converts | onlyRoot => rw [assign, unread (fun _ => flag?_eq_some) h, Option.getD_none]
  | base => rw [assign, unread (fun _ => double?_eq_some) h, Option.getD_none]

theorem Ignored.assignField {entry : Text × Value} (h : Ignored entry) (c : Config) :
    c.assignField entry = c := by
  rw [Config.assignField]
  cases known : Field.ofKey? entry.1 with
  | none => rfl
  | some field => exact assign_of_not_valid (h field (Field.ofKey?_eq_some.1 known)) c

/-! ## The configuration of a scan -/

/-- The configuration of a theme is read from the mapping that its file holds. -/
theorem load_eq {tree : Node} {root : Path} {given : Option Path} {fields : Fields}
    (h : fieldsOfFile tree (given.getD (root ++ fileName)) = .ok fields) :
    load tree root given =
      (ofFields (some (given.getD (root ++ fileName))) fields).mapError .evaluation := by
  have there : tree.exists? (given.getD (root ++ fileName)) = true := by
    rw [fieldsOfFile] at h
    rw [Node.exists?]
    cases found : tree.find? (given.getD (root ++ fileName)) with
    | none =>
      rw [found] at h
      cases h
    | some node => rfl
  have loaded : load tree root given = loadFrom tree (given.getD (root ++ fileName)) := by
    cases given with
    | none => exact if_pos there
    | some path => exact if_pos there
  rw [loaded, loadFrom, h]

/-- **Precedence of options.** If no number of a mapping is too large for a double, the mapping can
be read. Each option is what the command line gives for it, or else the last valid value of the
mapping, or else the default, and the root font size is above zero. A field that is not known or not
valid may be left out wherever it stands. A scan uses the options that are chosen like this from the
mapping in the configuration file. -/
theorem config_precedence (fields : Fields) (inRange : ∀ entry ∈ fields, InRange entry.2)
    (arguments : Arguments) (source : Option Path) :
    ∃ c ms, ofFields source fields = .ok (c, ms) ∧
      let used := c.overrideAll (Command.scanOverrides arguments)
      Precedence arguments fields used ∧ (∃ x, used.base = .float x ∧ 0 < x) ∧
      (∀ before entry after, fields = before ++ entry :: after → Ignored entry →
        ∃ ms', ofFields source (before ++ after) = .ok (c, ms')) ∧
      ∀ tree root given, source = some (given.getD (root ++ fileName)) →
        fieldsOfFile tree (given.getD (root ++ fileName)) = .ok fields →
        scanTheme tree root given (Command.scanOverrides arguments) = do
          let (project, more) ← (Project.rescan { root, config := used } tree).mapError .scan
          return (project, ms ++ more) := by
  obtain ⟨ms, read⟩ := readFields_eq { default with source } inRange
  have precedence := precedence_overrideAll source arguments fields
  refine ⟨_, ms, read, precedence, precedence.base_pos, ?_, ?_⟩
  · rintro before entry after rfl ignored
    have inRange' : ∀ entry ∈ before ++ after, InRange entry.2 := fun entry mem =>
      inRange entry (by
        rcases List.mem_append.1 mem with mem | mem
        · exact List.mem_append_left _ mem
        · exact List.mem_append_right _ (List.mem_cons_of_mem _ mem))
    obtain ⟨ms', read'⟩ := readFields_eq { default with source } inRange'
    refine ⟨ms', ?_⟩
    rw [ofFields, read', List.foldl_append, List.foldl_append, List.foldl_cons,
      ignored.assignField]
  · rintro tree root given rfl held
    rw [scanTheme, load_eq held, ofFields, read]
    rfl

/-- Two options in both spellings, where what comes last is not valid. -/
theorem config_precedence_spellings :
    let fields : Fields := [("includePatterns", .list .fresh [.str "*.css"]),
      ("include_patterns", .bool true), ("base_font_size", .int 20), ("baseFontSize", .int 0)]
    let arguments : Arguments := { given := [("--exclude", "b"), ("--all-selectors", "")] }
    (∀ entry ∈ fields, InRange entry.2) ∧ ∃ c ms, ofFields none fields = .ok (c, ms) ∧
      Precedence arguments fields (c.overrideAll (Command.scanOverrides arguments)) := by
  intro fields arguments
  have twenty : InRange (.int 20) := fun n h => ⟨Float.ofInt 20, by cases h; rfl⟩
  have zero : InRange (.int 0) := fun n h => ⟨Float.ofInt 0, by cases h; rfl⟩
  have inRange : ∀ entry ∈ fields, InRange entry.2 := by
    simp only [fields, List.forall_mem_cons]
    exact ⟨nofun, nofun, twenty, zero, nofun⟩
  obtain ⟨c, ms, read, precedence, -⟩ := config_precedence fields inRange arguments none
  exact ⟨inRange, c, ms, read, precedence⟩

end ThemeProps.Config
