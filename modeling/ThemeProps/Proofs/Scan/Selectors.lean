/-
  Scanning all selectors, and scanning `:root` rules alone.

  * `scannedSheets` are the plain stylesheets that a scan goes through, each with
    its file, and `Extraction.declarations_ofSources` says that the scan makes
    their declarations one after the other;
  * `RootFirst name`: no class rule of an earlier stylesheet declares the name
    before a `:root` rule does;
  * `scanSources_all_selectors`: the class rules only add names to the registry of
    the `:root` rules, but for the names that they declare first.
-/
import ThemeProps.Proofs.Failure.Scan
import ThemeProps.Proofs.Scan.Append

namespace ThemeProps

/-! ## The stylesheets of a scan -/

/-- The plain stylesheets of the style regions of a file. -/
def Source.sheets (store : Store) (source : Source) : List Text :=
  if Text.occursIn Stylesheet.rootMarker source.content then
    (Stylesheet.regions source.content).filterMap fun region =>
      (toStylesheet store region.content).toOption
  else []

/-- The plain stylesheets that a scan goes through, each with the path of its file. -/
def scannedSheets (store : Store) (sources : List Source) : List (Text × Text) :=
  sources.flatMap fun source => (source.sheets store).map (source.path, ·)

namespace Extraction

/-- Some extractions go well if each of them does, and then give what they find in turn. -/
theorem all_map_ok {α : Type} {f : α → Extraction} {as : List α}
    (h : (all (as.map f)).failure = none) :
    (∀ a ∈ as, (f a).failure = none) ∧
      (all (as.map f)).declarations = as.flatMap fun a => (f a).declarations := by
  induction as with
  | nil => exact ⟨by simp, rfl⟩
  | cons a as ih =>
    rw [List.map_cons, all, andThen] at h ⊢
    cases ha : (f a).failure with
    | some e => rw [ha] at h; cases h
    | none =>
      rw [ha] at h
      obtain ⟨each, found⟩ := ih h
      exact ⟨List.forall_mem_cons.2 ⟨ha, each⟩, by rw [List.flatMap_cons, ← found]⟩

/-- A file gives the declarations of its stylesheets. -/
theorem declarations_ofSource {store : Store} {onlyRoot : Bool} {source : Source}
    (h : (ofSource store onlyRoot source).failure = none) :
    (ofSource store onlyRoot source).declarations =
      (source.sheets store).flatMap (ofStylesheet onlyRoot source.path) := by
  rw [ofSource] at h ⊢
  rw [Source.sheets]
  split_ifs at h ⊢ with marked
  · obtain ⟨each, found⟩ := all_map_ok h
    rw [found]
    clear h found
    generalize Stylesheet.regions source.content = regions at each ⊢
    induction regions with
    | nil => rfl
    | cons region regions ih =>
      rw [List.forall_mem_cons] at each
      obtain ⟨here, there⟩ := each
      rw [ofRegion] at here
      cases hcss : toStylesheet store region.content with
      | error e => rw [hcss] at here; cases here
      | ok css =>
        rw [List.flatMap_cons, ih there, ofRegion, hcss,
          List.filterMap_cons_some (b := css) (by rw [hcss]; rfl), List.flatMap_cons]
  · rfl

/-- A scan makes the declarations of its stylesheets one after the other. -/
theorem declarations_ofSources {store : Store} {onlyRoot : Bool} {sources : List Source}
    (h : (ofSources store onlyRoot sources).failure = none) :
    (ofSources store onlyRoot sources).declarations =
      (scannedSheets store sources).flatMap fun sheet => ofStylesheet onlyRoot sheet.1 sheet.2 := by
  obtain ⟨each, found⟩ := all_map_ok h
  rw [ofSources, found, scannedSheets, List.flatMap_assoc]
  refine List.flatMap_congr fun source hs => ?_
  rw [declarations_ofSource (each source hs), List.flatMap_map]

/-- The declarations of the class rules of a plain stylesheet that mentions `:root`. -/
def ofClassRules (sheet : Text × Text) : List Declaration :=
  if Text.occursIn Stylesheet.rootMarker sheet.2 then
    Stylesheet.classDeclarations sheet.1 sheet.2
  else []

/-- The declarations of everything but the class rules of a plain stylesheet. -/
def ofRootRules (sheet : Text × Text) : List Declaration := ofStylesheet true sheet.1 sheet.2

/-- The class rules of a stylesheet come behind its `:root` rules. -/
theorem ofStylesheet_false (sheet : Text × Text) :
    ofStylesheet false sheet.1 sheet.2 = ofRootRules sheet ++ ofClassRules sheet := by
  by_cases marked : Text.occursIn Stylesheet.rootMarker sheet.2 = true <;>
    simp [ofRootRules, ofClassRules, ofStylesheet, marked]

/-- Class rules declare names of their file, outside of media queries. -/
theorem of_mem_ofClassRules {sheet : Text × Text} {d : Declaration} (h : d ∈ ofClassRules sheet) :
    d.sourceFile = sheet.1 ∧ d.variants = [] := by
  rw [ofClassRules] at h
  split_ifs at h
  · obtain ⟨rule, -, h⟩ := List.mem_flatMap.1 h
    obtain ⟨line, -, h⟩ := List.mem_flatMap.1 h
    obtain ⟨property, -, rfl⟩ := List.mem_map.1 h
    exact ⟨rfl, rfl⟩
  · cases h

end Extraction

/-! ## Names that class rules declare first -/

open Extraction

/-- Reading the stylesheets in order, no class rule declares the name before a stylesheet does so
outside of its class rules. -/
def RootFirst (name : Text) : List (Text × Text) → Prop
  | [] => True
  | sheet :: sheets =>
    (∃ d ∈ ofRootRules sheet, d.name = name) ∨
      (∀ d ∈ ofClassRules sheet, d.name ≠ name) ∧ RootFirst name sheets

instance decidableRootFirst (name : Text) :
    (sheets : List (Text × Text)) → Decidable (RootFirst name sheets)
  | [] => inferInstanceAs (Decidable True)
  | _ :: sheets =>
    have := decidableRootFirst name sheets
    inferInstanceAs (Decidable ((∃ d ∈ _, _) ∨ (∀ d ∈ _, _) ∧ _))

section
variable {name : Text} {sheets : List (Text × Text)} {d : Declaration}

/-- Class rules make no variants. -/
theorem variants_allSelectors (p : Declaration → Bool) (sheets : List (Text × Text)) :
    ((sheets.flatMap fun sheet => ofRootRules sheet ++ ofClassRules sheet).filter p).flatMap
        Declaration.variants =
      ((sheets.flatMap ofRootRules).filter p).flatMap Declaration.variants := by
  induction sheets with
  | nil => rfl
  | cons sheet sheets ih =>
    have none : ((ofClassRules sheet).filter p).flatMap Declaration.variants = [] := by
      rw [List.flatMap_eq_nil_iff]
      exact fun d hd => (of_mem_ofClassRules (List.mem_of_mem_filter hd)).2
    simp only [List.flatMap_cons, List.filter_append, List.flatMap_append, ih, none,
      List.append_nil]

/-- Where a `:root` rule comes first, its declaration is the first one of all selectors. -/
theorem find?_allSelectors_of_rootFirst (h : RootFirst name sheets)
    (hd : (sheets.flatMap ofRootRules).find? (·.name == name) = some d) :
    (sheets.flatMap fun sheet => ofRootRules sheet ++ ofClassRules sheet).find? (·.name == name) =
      some d := by
  induction sheets with
  | nil => cases hd
  | cons sheet sheets ih =>
    rw [List.flatMap_cons, List.find?_append] at hd
    rw [List.flatMap_cons, List.find?_append, List.find?_append]
    cases here : (ofRootRules sheet).find? (·.name == name) with
    | some d' => rw [here] at hd; exact hd
    | none =>
      rw [here, Option.none_or] at hd
      obtain ⟨d', hm, hn⟩ | ⟨notClass, there⟩ := h
      · exact absurd (beq_iff_eq.2 hn) (List.find?_eq_none.1 here d' hm)
      · have passed : (ofClassRules sheet).find? (·.name == name) = none :=
          List.find?_eq_none.2 fun d' hm => by simpa using notClass d' hm
        rw [passed, ih there hd]
        rfl

/-- Where no `:root` rule comes first, the first declaration of all selectors is that of the first
class rule. -/
theorem find?_allSelectors_of_not_rootFirst (h : ¬ RootFirst name sheets) :
    ∃ sheet ∈ sheets, ∃ d ∈ ofClassRules sheet,
      (sheets.flatMap fun sheet => ofRootRules sheet ++ ofClassRules sheet).find?
        (·.name == name) = some d ∧
      (sheets.flatMap ofClassRules).find? (·.name == name) = some d := by
  induction sheets with
  | nil => exact absurd trivial h
  | cons sheet sheets ih =>
    rw [RootFirst, not_or, not_and_or] at h
    obtain ⟨notRoot, notThere⟩ := h
    have passed : (ofRootRules sheet).find? (·.name == name) = none :=
      List.find?_eq_none.2 fun d hm hn => notRoot ⟨d, hm, beq_iff_eq.1 hn⟩
    rw [List.flatMap_cons, List.flatMap_cons, List.find?_append, List.find?_append,
      List.find?_append, passed, Option.none_or]
    cases here : (ofClassRules sheet).find? (·.name == name) with
    | some d => exact ⟨sheet, List.mem_cons_self, d, List.mem_of_find?_eq_some here, rfl, rfl⟩
    | none =>
      have notClass : ∀ d ∈ ofClassRules sheet, d.name ≠ name := fun d hm hn =>
        List.find?_eq_none.1 here d hm (beq_iff_eq.2 hn)
      obtain ⟨later, hl, d, hm, hd, hc⟩ := ih (notThere.resolve_left (not_not.2 notClass))
      exact ⟨later, List.mem_cons_of_mem _ hl, d, hm, hd, hc⟩

end

/-! ## The scans -/

/-- **Scanning all selectors** keeps every name that scanning `:root` rules alone gives, with its
variants. It keeps the value and the file as well, unless a class rule of an earlier stylesheet
declares the name first: then they are those of the first class rule that declares it, which is also
the first of all declarations of the name. -/
theorem scanSources_all_selectors {store : Store} {sources : List Source} {r : Registry}
    (h : scanSources store true sources = .ok r) :
    ∃ r', scanSources store false sources = .ok r' ∧ ∀ name e, r.get? name = some e →
      ∃ e', r'.get? name = some e' ∧ e'.media = e.media ∧
        (RootFirst name (scannedSheets store sources) → e' = e) ∧
        (¬ RootFirst name (scannedSheets store sources) →
          ∃ sheet ∈ scannedSheets store sources, ∃ d ∈ ofClassRules sheet,
            ((scannedSheets store sources).flatMap ofClassRules).find? (·.name == name) = some d ∧
            ((scannedSheets store sources).flatMap fun sheet =>
              ofRootRules sheet ++ ofClassRules sheet).find? (·.name == name) = some d ∧
            d.name = name ∧ e'.value = d.value ∧ e'.sourceFile = sheet.1) := by
  obtain ⟨r', h'⟩ : ∃ r', scanSources store false sources = .ok r' :=
    (makes_scanSources store false sources).ok_iff.2
      ((makes_scanSources store true sources).ok_iff.1 ⟨r, h⟩)
  refine ⟨r', h', fun name e he => ?_⟩
  obtain ⟨ok, rfl⟩ := scanSources_eq_ok.1 h
  obtain ⟨ok', rfl⟩ := scanSources_eq_ok.1 h'
  rw [declarations_ofSources ok, Registry.get?_declareAll_first] at he
  obtain ⟨d, hd, rfl⟩ := Option.map_eq_some_iff.1 he
  rw [declarations_ofSources ok', Registry.get?_declareAll_first]
  simp only [ofStylesheet_false, variants_allSelectors]
  by_cases first : RootFirst name (scannedSheets store sources)
  · rw [find?_allSelectors_of_rootFirst first hd]
    exact ⟨_, rfl, rfl, fun _ => rfl, fun notFirst => absurd first notFirst⟩
  · obtain ⟨sheet, hs, d', hm, hd', firstClass⟩ := find?_allSelectors_of_not_rootFirst first
    have named : d'.name = name := by simpa using List.find?_some hd'
    rw [hd']
    exact ⟨_, rfl, rfl, fun yes => absurd yes first, fun _ =>
      ⟨sheet, hs, d', hm, firstClass, rfl, named, rfl, (of_mem_ofClassRules hm).1⟩⟩

/-- The first file declares `--b` in a class rule behind its `:root` rule, and `--a` in two class
rules before the second file does. -/
theorem scanSources_all_selectors_two_files :
    let a : Source :=
      ⟨"a.liquid", "<style>:root \x7b --b: 1px; \x7d .x \x7b --a: 2px;\n--b: 3px; \x7d " ++
        ".y \x7b --a: 6px; \x7d</style>"⟩
    let b : Source :=
      ⟨"b.liquid", "<style>:root \x7b --a: 4px; @media print \x7b --b: 5px; \x7d \x7d</style>"⟩
    ∃ r', scanSources {} false [a, b] = .ok r' ∧
      r'.get? "--b" = some ⟨"--b", "1px", "a.liquid", [⟨"print", "5px"⟩]⟩ ∧
      ∃ e, r'.get? "--a" = some e ∧ e.value = "2px" ∧ e.sourceFile = "a.liquid" ∧ e.media = [] := by
  intro a b
  have root : scanSources {} true [a, b] =
      .ok ⟨[⟨"--b", "1px", "a.liquid", [⟨"print", "5px"⟩]⟩, ⟨"--a", "4px", "b.liquid", []⟩]⟩ := by
    decide +kernel
  obtain ⟨r', h, all⟩ := scanSources_all_selectors root
  obtain ⟨kept, hkept, -, same, -⟩ := all "--b" _ rfl
  obtain ⟨e, he, media, -, other⟩ := all "--a" _ rfl
  obtain ⟨sheet, -, d, hm, first, -, -, value, file⟩ := other (by decide +kernel)
  have declared : ((scannedSheets {} [a, b]).flatMap ofClassRules).find?
      (·.name == ("--a" : Text)) = some ⟨"--a", "2px", "a.liquid", none⟩ := by decide +kernel
  obtain rfl := Option.some.inj (first.symm.trans declared)
  refine ⟨r', h, by rw [hkept, same (by decide +kernel)], e, he, value, ?_, media⟩
  rw [file, ← (of_mem_ofClassRules hm).1]

/-- A class rule that comes first gives the value. -/
theorem scanSources_class_rule_first :
    ¬ ∀ store sources r r', scanSources store true sources = .ok r →
      scanSources store false sources = .ok r' →
        ∀ name e, r.get? name = some e → r'.get? name = some e := by
  intro h
  have kept := h {}
    [⟨"a.liquid", "<style>:root \x7b\x7d .x \x7b --a: 1px; \x7d</style>"⟩,
      ⟨"b.liquid", "<style>:root \x7b --a: 2px; \x7d</style>"⟩]
    ⟨[⟨"--a", "2px", "b.liquid", []⟩]⟩ ⟨[⟨"--a", "1px", "a.liquid", []⟩]⟩
    (by decide +kernel) (by decide +kernel) "--a" _ rfl
  exact absurd kept (by decide)

end ThemeProps
