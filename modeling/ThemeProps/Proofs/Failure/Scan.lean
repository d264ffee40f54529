/-
  When a scan goes wrong.

  * `stylesheetDemands` are the demands of a templated stylesheet: those of its
    blocks of statements, its conditional regions and its outputs of settings,
    which are read off the text as the stages before leave it;
  * `evaluateSettingCondition_error`: a condition goes wrong only with a setting that
    is `Unfit`: a whole number that fits no double, or a list in which a whole
    number has too many digits;
  * `scanDemands` are those of the style regions of some files;
  * `scanSources_ok_iff`: a scan gives a registry if and only if all its demands
    are met, and `scanSources_placeless_digit` is a scan that goes wrong.
-/
import ThemeProps.Extraction
import ThemeProps.Proofs.Failure.Block
import ThemeProps.Proofs.Failure.Setting
import ThemeProps.Proofs.Text.Pieces

namespace ThemeProps

/-! ## Conditional regions -/

/-- The demands of a condition on the settings. -/
def SettingCondition.demands (store : Store) : SettingCondition → List Demand
  | compare path c v => Value.compareDemands c (store.get path) v
  | present _ => []
  | never => []

theorem SettingCondition.makes_holds (store : Store) (c : SettingCondition) :
    Makes (c.holds store) (c.demands store) := by
  cases c with
  | compare path c v => exact Value.makes_compareBy c (store.get path) v
  | present path => exact .ok _
  | never => exact .ok _

namespace SettingCondition

variable {store : Store} {v w : Value} {d : Demand}

theorem numberDemands_bareLiteral (s : Text) : (bareLiteral s).numberDemands = [] := by
  rw [bareLiteral]
  split_ifs
  · rfl
  · rfl
  · cases numeral.readAll? s <;> rfl

/-- A literal is never a whole number that has to fit a double, nor a list. -/
theorem yields_literal : Reader.Yields (fun v => v.numberDemands = []) literal := by
  refine (Reader.yields_any _).bind fun _ _ => Reader.Yields.orElse ?_ ?_
  · refine (Reader.yields_any _).bind fun quote _ => (Reader.yields_any _).bind fun s _ => ?_
    exact (Reader.yields_any _).bind fun _ _ => Reader.yields_pure rfl
  · exact (Reader.yields_any _).bind fun s _ => Reader.yields_pure (numberDemands_bareLiteral s)

theorem yields_operation (symbol : Text) (c : Comparison) :
    Reader.Yields (fun operation => operation.2.numberDemands = []) (operation symbol c) :=
  (Reader.yields_any _).bind fun _ _ => yields_literal.bind fun _ h => Reader.yields_pure h

theorem mem_of_compareDemands {c : Comparison} (hw : w.numberDemands = [])
    (hd : d ∈ Value.compareDemands c v w) : d ∈ v.numberDemands := by
  have both (h : d ∈ v.numberDemands ++ w.numberDemands) : d ∈ v.numberDemands := by
    rwa [hw, List.append_nil] at h
  have equal (h : d ∈ Value.equalDemands v w) : d ∈ v.numberDemands := by
    rw [Value.numberDemands_eq, List.append_eq_nil_iff] at hw
    unfold Value.equalDemands at h
    split at h
    · cases h
    · cases h
    · cases h
    · cases h
    · rwa [hw.1, hw.2, List.nil_append, List.append_nil, ← Value.numberDemands_eq] at h
  cases c with
  | equal => exact equal hd
  | unequal => exact equal hd
  | _ => exact both hd

/-- The settings that a condition asks for have to fit a double, or to be written out if they are
lists, and nothing else. -/
def AsksSettings (condition : SettingCondition) : Prop :=
  ∀ store, ∀ d ∈ condition.demands store, ∃ path,
    (∃ n, store.get path = .number (.int n) ∧ d = .double n) ∨
      ∃ id items, store.get path = .list id items ∧ ∃ n ∈ Value.itemNumbers items, d = .digits n

theorem asksSettings_compare (path : Text) (c : Comparison) (hw : w.numberDemands = []) :
    AsksSettings (compare path c w) := by
  intro store d hd
  have setting : d ∈ (store.get path).numberDemands := mem_of_compareDemands hw hd
  unfold Value.numberDemands at setting
  split at setting
  · next n value => exact ⟨path, .inl ⟨n, value, List.mem_singleton.1 setting⟩⟩
  · next id items value =>
    obtain ⟨n, hn, rfl⟩ := List.mem_map.1 setting
    exact ⟨path, .inr ⟨id, items, value, n, hn, rfl⟩⟩
  · cases setting

theorem yields_comparison : Reader.Yields AsksSettings comparison := by
  refine (Reader.yields_any _).bind fun path _ => (Reader.yields_any _).bind fun _ _ => ?_
  refine Reader.Yields.bind (q := fun operation => operation.2.numberDemands = []) ?_
    fun operation h => Reader.yields_pure (asksSettings_compare path operation.1 h)
  exact (yields_operation _ _).orElse ((yields_operation _ _).orElse ((yields_operation _ _).orElse
    ((yields_operation _ _).orElse ((yields_operation _ _).orElse (yields_operation _ _)))))

theorem asksSettings_parse (s : Text) : AsksSettings (parse s) := by
  unfold parse
  dsimp only
  split
  · next found => exact yields_comparison.of_findFirst found
  · split <;> exact fun store d hd => by cases hd

end SettingCondition

/-- A setting that a comparison goes wrong with: a whole number that fits no double, or a list in
which a whole number has too many digits. -/
def Store.Unfit (store : Store) : EvalError → Prop
  | .tooLarge => ∃ path n, store.get path = .number (.int n) ∧ roundInt? n = none
  | .tooManyDigits => ∃ path id items, store.get path = .list id items ∧
      ∃ n ∈ Value.itemNumbers items, ¬ Number.IsWritable n
  | .unreadableDigits => False

/-- Only a setting that does not fit keeps a condition from its truth value. -/
theorem evaluateSettingCondition_error {store : Store} {s : Text} {e : EvalError}
    (h : evaluateSettingCondition store s = .error e) : store.Unfit e := by
  have failed : Demand.firstError ((SettingCondition.parse s).demands store) = some e := by
    rw [← SettingCondition.makes_holds store (.parse s), ← evaluateSettingCondition, h, errorOf]
  obtain ⟨d, asked, unmet, rfl⟩ := Demand.exists_of_firstError failed
  obtain ⟨path, ⟨n, setting, rfl⟩ | ⟨id, items, setting, n, hn, rfl⟩⟩ :=
    SettingCondition.asksSettings_parse s store d asked
  · exact ⟨path, n, setting, Option.not_isSome_iff_eq_none.1 unmet⟩
  · exact ⟨path, id, items, setting, n, hn, unmet⟩

/-- The demands of the choice of a branch. -/
def branchDemands (store : Store) : List Branch → List Demand
  | [] => []
  | ⟨none, _⟩ :: _ => []
  | ⟨some condition, _⟩ :: branches => (SettingCondition.parse condition).demands store ++
      after (evaluateSettingCondition store condition) fun holds =>
        if holds then [] else branchDemands store branches

theorem makes_selectBranch (store : Store) (branches : List Branch) :
    Makes (selectBranch store branches) (branchDemands store branches) := by
  induction branches with
  | nil => exact .ok []
  | cons branch branches ih =>
    rcases branch with ⟨_ | condition, content⟩
    · exact .ok content
    · refine (SettingCondition.makes_holds store (.parse condition)).bind_after fun holds => ?_
      split_ifs
      · exact .ok content
      · exact ih

/-! ## Stages -/

/-- The demands of a stage: blocks of statements and conditional regions are evaluated, and
settings are written. -/
def Stage.demands (store : Store) : Stage → Text → List Demand
  | statementBlocks, s =>
    (Reader.findEvery Template.statementBlock s).flatMap (blockDemands store [])
  | settingConditionals, s =>
    (Reader.findEvery conditionalRegion s).flatMap fun (condition, body) =>
      branchDemands store (splitBranches condition body)
  | schemeSettings, s =>
    (Reader.findEvery (Template.settingOutput "scheme.settings.") s).flatMap fun (path, _) =>
      store.schemeSettingDemands path
  | settings, s =>
    (Reader.findEvery (Template.settingOutput "settings.") s).flatMap fun (path, _) =>
      store.settingDemands path
  | _, _ => []

theorem Stage.makes_apply (store : Store) (stage : Stage) (s : Text) :
    Makes (stage.apply store s) (stage.demands store s) := by
  cases stage with
  | statementBlocks => exact makes_replaceEveryM (makes_runBlock store []) s
  | settingConditionals =>
    exact makes_replaceEveryM
      (fun (condition, body) => makes_selectBranch store (splitBranches condition body)) s
  | schemeSettings =>
    exact makes_replaceEveryM (fun (path, _) => (store.makes_renderSchemeSetting path).map _) s
  | settings =>
    exact makes_replaceEveryM (fun (path, _) => (store.makes_renderSetting path).map _) s
  | _ => exact .ok _

/-- The demands of some stages, each on the text that those before it leave. -/
def stagesDemands (store : Store) : List Stage → Text → List Demand
  | [], _ => []
  | stage :: stages, s => stage.demands store s ++
      after (stage.apply store s) (stagesDemands store stages)

theorem makes_stages (store : Store) (stages : List Stage) (s : Text) :
    Makes (stages.foldlM (fun s stage => stage.apply store s) s)
      (stagesDemands store stages s) := by
  induction stages generalizing s with
  | nil => exact .ok s
  | cons stage stages ih =>
    rw [List.foldlM_cons]
    exact (stage.makes_apply store s).bind_after ih

/-- The demands of a templated stylesheet. -/
def stylesheetDemands (store : Store) (s : Text) : List Demand := stagesDemands store Stage.all s

theorem makes_toStylesheet (store : Store) (s : Text) :
    Makes (toStylesheet store s) (stylesheetDemands store s) := makes_stages store Stage.all s

/-! ## Files -/

namespace Extraction

/-- The extraction makes the demands and goes wrong at the first one that is not met. -/
def Makes (x : Extraction) (ds : List Demand) : Prop := x.failure = Demand.firstError ds

theorem makes_all {α : Type} {x : α → Extraction} {ds : α → List Demand}
    (h : ∀ a, Makes (x a) (ds a)) (as : List α) : Makes (all (as.map x)) (as.flatMap ds) := by
  induction as with
  | nil => rfl
  | cons a as ih =>
    have here := h a
    rw [Makes] at here ih
    rw [Makes, List.map_cons, List.flatMap_cons, Demand.firstError_append, all, andThen, ← here]
    cases (x a).failure with
    | none => exact ih
    | some e => rfl

theorem makes_ofRegion (store : Store) (onlyRoot : Bool) (file content : Text) :
    Makes (ofRegion store onlyRoot file content) (stylesheetDemands store content) := by
  rw [Makes, ofRegion, ← makes_toStylesheet store content]
  cases toStylesheet store content <;> rfl

end Extraction

/-- The demands of a file: those of its style regions that mention `:root`. -/
def Source.demands (store : Store) (source : Source) : List Demand :=
  if Text.occursIn Stylesheet.rootMarker source.content then
    (Stylesheet.regions source.content).flatMap fun region => stylesheetDemands store region.content
  else []

theorem Extraction.makes_ofSource (store : Store) (onlyRoot : Bool) (source : Source) :
    Makes (ofSource store onlyRoot source) (source.demands store) := by
  rw [ofSource, Source.demands]
  split_ifs
  · exact makes_all (fun region : Stylesheet.Region =>
      makes_ofRegion store onlyRoot source.path region.content) _
  · rfl

/-- The demands of some files. -/
def scanDemands (store : Store) (sources : List Source) : List Demand :=
  sources.flatMap (Source.demands store)

theorem makes_scanSources (store : Store) (onlyRoot : Bool) (sources : List Source) :
    Makes (scanSources store onlyRoot sources) (scanDemands store sources) := by
  rw [Makes, scanSources, scanDemands,
    ← Extraction.makes_all (Extraction.makes_ofSource store onlyRoot) sources,
    ← Extraction.ofSources]
  cases (Extraction.ofSources store onlyRoot sources).failure <;> rfl

/-- **A scan gives a registry** if and only if every demand of its blocks, conditions and outputs is
met. -/
theorem scanSources_ok_iff (store : Store) (onlyRoot : Bool) (sources : List Source) :
    (∃ r, scanSources store onlyRoot sources = .ok r) ↔ ∀ d ∈ scanDemands store sources, d.Met :=
  (makes_scanSources store onlyRoot sources).ok_iff

/-- A file that sorts a superscript two goes wrong: the superscript is a digit, but it has no place
value. -/
theorem scanSources_placeless_digit :
    ¬ ∀ store onlyRoot sources, ∃ r, scanSources store onlyRoot sources = .ok r := by
  intro h
  obtain ⟨r, hr⟩ := h {} true [⟨"a.liquid", "<style>:root \x7b \x7b% liquid\n" ++
    "assign x = '²' | split: '' | sort_natural\n%\x7d--a: 1px; \x7d</style>"⟩]
  have failed : errorOf (scanSources {} true [⟨"a.liquid", "<style>:root \x7b \x7b% liquid\n" ++
      "assign x = '²' | split: '' | sort_natural\n%\x7d--a: 1px; \x7d</style>"⟩]) =
      some .unreadableDigits := by decide +kernel
  rw [hr] at failed
  cases failed

/-- So does a file that shows a setting of more than 4300 digits. -/
example : errorOf (scanSources ⟨[("x", .number (.int (10 ^ 5000)))], []⟩ true
    [⟨"a.liquid", "<style>:root \x7b --a: \x7b\x7b settings.x \x7d\x7d; \x7d</style>"⟩]) =
      some .tooManyDigits := by decide +kernel

end ThemeProps
