/-
  Root rules whose values are made of literal text and outputs of settings.

  * `TemplateProperty` is a custom property of such a rule; `template` is the
    style block that declares some of them, and `TemplateProperty.value` is the
    value once the settings are filled in;
  * `toStylesheet_rootRule`: the stages fill the settings in and leave everything
    else as it is;
  * `scanSources_template`: scanning the block registers each property with its
    trimmed value, the first declaration of a name counting.
-/
import ThemeProps.Proofs.Registry.Merge
import ThemeProps.Proofs.Scan.Append
import ThemeProps.Proofs.Stylesheet.StyleDocument
import ThemeProps.Proofs.Stylesheet.Rule
import ThemeProps.Proofs.Template.Stage

namespace ThemeProps

/-! ## Properties of a template -/

/-- The path of a setting: word characters and points. -/
structure SettingPath where
  text : Text
  nonempty : text ≠ []
  isWordOrDot : ∀ c ∈ text, Text.isWordOrDot c = true

/-- A piece of a value: literal text, or the output of a setting. -/
inductive ValuePart where
  | literal (s : Text)
  | setting (path : SettingPath)

/-- A custom property as a template declares it. -/
structure TemplateProperty where
  /-- The name without the hyphens in front. -/
  name : Text
  nonempty : name ≠ []
  isWordOrHyphen : ∀ c ∈ name, Text.isWordOrHyphen c = true
  parts : List ValuePart

/-- A piece as the template writes it. -/
def ValuePart.source : ValuePart → Text
  | literal s => s
  | setting path => "\x7b\x7b settings." ++ path.text ++ " \x7d\x7d"

/-- The piece can be written: a setting in it is shown without an error. -/
def ValuePart.Written (store : Store) : ValuePart → Prop
  | literal _ => True
  | setting path => (store.renderSetting path.text).isOk = true

instance (store : Store) : DecidablePred (ValuePart.Written store)
  | .literal _ => inferInstanceAs (Decidable True)
  | .setting _ => inferInstanceAs (Decidable (_ = true))

/-- A piece with its setting filled in. -/
def ValuePart.rendered (store : Store) : ValuePart → Text
  | literal s => s
  | setting path => (store.renderSetting path.text).toOption.getD []

theorem ValuePart.Written.eq_ok {store : Store} {path : SettingPath}
    (h : (setting path).Written store) :
    store.renderSetting path.text = .ok ((setting path).rendered store) := by
  rw [Written] at h
  rw [rendered]
  cases shown : store.renderSetting path.text with
  | error e => rw [shown] at h; cases h
  | ok s => rfl

namespace TemplateProperty

/-- The name of the property. -/
def fullName (p : TemplateProperty) : Text := "--" ++ p.name

/-- The value with its settings filled in. -/
def value (store : Store) (p : TemplateProperty) : Text := p.parts.flatMap (·.rendered store)

/-- The value is there and stays within its declaration: it has no brace, semicolon or angle bracket
in it, and no `echo`. -/
structure Contained (store : Store) (p : TemplateProperty) : Prop where
  written : ∀ part ∈ p.parts, part.Written store
  noOpening : '{' ∉ p.value store
  noClosing : '}' ∉ p.value store
  noSemicolon : ';' ∉ p.value store
  noAngle : '<' ∉ p.value store
  noEcho : ¬ "echo".toList <:+: p.value store

theorem contained_iff {store : Store} {p : TemplateProperty} : p.Contained store ↔
    (∀ part ∈ p.parts, part.Written store) ∧ '{' ∉ p.value store ∧ '}' ∉ p.value store ∧
      ';' ∉ p.value store ∧ '<' ∉ p.value store ∧ ¬ "echo".toList <:+: p.value store :=
  ⟨fun h => ⟨h.1, h.2, h.3, h.4, h.5, h.6⟩,
    fun ⟨h₁, h₂, h₃, h₄, h₅, h₆⟩ => ⟨h₁, h₂, h₃, h₄, h₅, h₆⟩⟩

instance (store : Store) (p : TemplateProperty) : Decidable (p.Contained store) :=
  decidable_of_iff _ contained_iff.symm

/-- The declaration of the property, and a blank behind it. -/
def declare (write : ValuePart → Text) (p : TemplateProperty) : Text :=
  "--" ++ p.name ++ ": " ++ p.parts.flatMap write ++ "; "

end TemplateProperty

/-- A `:root` rule that declares some properties. -/
def rootRule (write : ValuePart → Text) (ps : List TemplateProperty) : Text :=
  ":root \x7b" ++ (' ' :: ps.flatMap (·.declare write)) ++ "\x7d"

theorem rootRule_eq (write : ValuePart → Text) (ps : List TemplateProperty) :
    rootRule write ps = ":root \x7b" ++ (' ' :: ps.flatMap (·.declare write)) ++ "\x7d" := rfl

/-- The rule with the blank before the first declaration as a part of its opening. -/
theorem rootRule_eq_blank (write : ValuePart → Text) (ps : List TemplateProperty) :
    rootRule write ps = (":root \x7b " : Text) ++ ps.flatMap (·.declare write) ++ "\x7d" := rfl

/-- The style block that declares some properties. -/
def template (ps : List TemplateProperty) : Text :=
  "\x7b% style %\x7d" ++ rootRule ValuePart.source ps ++ "\x7b% endstyle %\x7d"

theorem template_eq (ps : List TemplateProperty) :
    template ps = "\x7b% style %\x7d" ++ (rootRule ValuePart.source ps ++ "\x7b% endstyle %\x7d") :=
  List.append_assoc _ _ _

example : template [⟨"a", by decide, List.all_eq_true.1 rfl, [.literal "1px"]⟩] =
    "\x7b% style %\x7d:root \x7b --a: 1px; \x7d\x7b% endstyle %\x7d" := by decide +kernel

/-! ## What the pieces are made of -/

section
variable {store : Store} {p : TemplateProperty} {ps : List TemplateProperty} {part : ValuePart}
  {c : Char}

theorem SettingPath.notMem (path : SettingPath) (h : Text.isWordOrDot c = false) : c ∉ path.text :=
  fun hc => by rw [path.isWordOrDot c hc] at h; cases h

theorem TemplateProperty.notMem (h : Text.isWordOrHyphen c = false) : c ∉ p.name :=
  fun hc => by rw [p.isWordOrHyphen c hc] at h; cases h

/-- What does not occur in the value does not occur in its literal pieces. -/
theorem TemplateProperty.literal_notMem (h : c ∉ p.value store) {s : Text}
    (hs : .literal s ∈ p.parts) : c ∉ s :=
  fun hc => h (List.mem_flatMap.2 ⟨.literal s, hs, hc⟩)

/-- A mark in a declaration is that of an output. -/
theorem noPair_declare (h : '{' ∉ p.value store) :
    Text.NoPair '{' '%' (p.declare ValuePart.source) := by
  have parts : Text.NoPair '{' '%' (p.parts.flatMap ValuePart.source) := by
    refine Text.NoPair.flatMap fun part hpart => ?_
    cases part with
    | literal s => exact Text.noPair_of_notMem (TemplateProperty.literal_notMem h hpart)
    | setting path =>
      have free : Text.NoPair '{' '%' path.text := Text.noPair_of_notMem (path.notMem (by decide))
      exact .append (.append (by decide) free) (by decide)
  have name : Text.NoPair '{' '%' p.name := Text.noPair_of_notMem (p.notMem (by decide))
  rw [TemplateProperty.declare]
  exact .append (.append (.append (.append (by decide) name) (by decide)) parts) (by decide)

theorem noPair_rootRule (h : ∀ p ∈ ps, '{' ∉ p.value store) :
    Text.NoPair '{' '%' (rootRule ValuePart.source ps) := by
  have body : Text.NoPair '{' '%' (ps.flatMap (·.declare ValuePart.source)) :=
    Text.NoPair.flatMap fun p hp => noPair_declare (h p hp)
  rw [rootRule_eq_blank]
  exact .append (.append (by decide) body) (by decide)

/-- A character that is in no value is not in the body of the rule. -/
theorem notMem_body {write : ValuePart → Text} (hname : Text.isWordOrHyphen c = false)
    (hmark : c ∉ ("--: ; " : Text)) (h : ∀ p ∈ ps, c ∉ p.parts.flatMap write) :
    c ∉ ' ' :: ps.flatMap (·.declare write) := by
  have declared : ∀ p ∈ ps, c ∉ p.declare write := by
    intro p hp
    have name : c ∉ p.name := p.notMem hname
    have value := h p hp
    simp only [TemplateProperty.declare, List.mem_append, name, value, or_false]
    simp at hmark ⊢
    tauto
  rw [List.mem_cons, List.mem_flatMap, not_or]
  refine ⟨fun he => hmark (he ▸ by decide), ?_⟩
  rintro ⟨p, hp, hc⟩
  exact declared p hp hc

/-- A reader refuses a declaration if it refuses its name and its value and takes none of the marks
around them. -/
theorem refuses_declare_of_begins {α : Type} {reader : Reader α} {w : Text}
    (h : Reader.Begins (c :: w) reader) (hmark : c ∉ ("--: ; " : Text)) {write : ValuePart → Text}
    (name : ∀ b, Reader.Refuses reader p.name (':' :: b))
    (value : ∀ b, Reader.Refuses reader (p.parts.flatMap write) (';' :: b)) (b : Text) :
    Reader.Refuses reader (p.declare write) b := by
  have mark {s : Text} (hs : s ⊆ "--: ; ".toList) (b : Text) : Reader.Refuses reader s b :=
    h.refuses_of_notMem fun hc => hmark (hs hc)
  rw [TemplateProperty.declare, Reader.refuses_append, Reader.refuses_append,
    Reader.refuses_append, Reader.refuses_append]
  exact ⟨⟨⟨⟨mark (by decide) _, name _⟩, mark (by decide) _⟩, value _⟩, mark (by decide) _⟩

/-! ## Filling the settings in -/

/-- The output of a setting is no output of a setting of the color scheme. -/
theorem refuses_declare (h : '{' ∉ p.value store) (b : Text) :
    Reader.Refuses (Template.settingOutput "scheme.settings.") (p.declare ValuePart.source) b := by
  have parts : ∀ part ∈ p.parts, ∀ b, Reader.Refuses (Template.settingOutput "scheme.settings.")
      part.source b := by
    intro part hpart b
    cases part with
    | literal s =>
      exact Template.begins_settingOutput.refuses_of_notMem
        (TemplateProperty.literal_notMem h hpart)
    | setting path =>
      have free : Text.NoPair '{' '{' path.text := Text.noPair_of_notMem (path.notMem (by decide))
      have behind : Text.NoPair '{' '{' (("\x7b settings." : Text) ++ path.text ++ " \x7d\x7d") :=
        .append (.append (by decide) free) (by decide)
      refine Reader.refuses_cons.2 ⟨?_, Template.begins_settingOutput.refuses_of_noPair behind b⟩
      have other := Template.schemeOutput_eq_none (path.text ++ (" \x7d\x7d" ++ b))
      rwa [← List.append_assoc, ← List.append_assoc] at other
  exact refuses_declare_of_begins Template.begins_settingOutput (by decide)
    (fun _ => Template.begins_settingOutput.refuses_of_notMem (p.notMem (by decide)))
    (fun _ => Reader.refuses_flatMap parts _) b

theorem fillSchemeSettings_rootRule (h : ∀ p ∈ ps, '{' ∉ p.value store) :
    Template.fillSchemeSettings store (rootRule ValuePart.source ps) =
      .ok (rootRule ValuePart.source ps) := by
  refine Reader.replaceEveryM_of_refuses ?_
  rw [rootRule_eq_blank, Reader.refuses_append, Reader.refuses_append]
  exact ⟨⟨Template.begins_settingOutput.refuses_of_noPair (by decide) _,
    Reader.refuses_flatMap (fun p hp => refuses_declare (h p hp)) _⟩,
    Template.begins_settingOutput.refuses_of_notMem (by decide)⟩

/-- In a declaration, the outputs of settings are filled in. -/
theorem fillSettings_declare (h : p.Contained store) (b : Text) :
    Template.fillSettings store (p.declare ValuePart.source ++ b) =
      (p.declare (ValuePart.rendered store) ++ ·) <$> Template.fillSettings store b := by
  have parts : ∀ part ∈ p.parts, ∀ b, Template.fillSettings store (part.source ++ b) =
      (part.rendered store ++ ·) <$> Template.fillSettings store b := by
    intro part hpart b
    cases part with
    | literal s =>
      exact Template.fillSettings_append store
        (Text.noPair_of_notMem (TemplateProperty.literal_notMem h.noOpening hpart)) b
    | setting path =>
      have filled := Template.fillSettings_output store path.nonempty path.isWordOrDot b
      rwa [(h.written _ hpart).eq_ok, Evaluation.ok_bind, bind_pure_comp] at filled
  have name : Text.NoPair '{' '{' (("--" : Text) ++ p.name ++ ": ") :=
    .append (.append (by decide) (Text.noPair_of_notMem (p.notMem (by decide)))) (by decide)
  have value : ∀ b, Template.fillSettings store (p.parts.flatMap ValuePart.source ++ b) =
      (p.parts.flatMap (·.rendered store) ++ ·) <$> Template.fillSettings store b :=
    Reader.piecewise_flatMapM parts
  rw [TemplateProperty.declare, TemplateProperty.declare, List.append_assoc, List.append_assoc,
    Template.fillSettings_append store name, value, Template.fillSettings_append store (by decide),
    Functor.map_map, Functor.map_map]
  simp only [List.append_assoc]

theorem fillSettings_rootRule (h : ∀ p ∈ ps, p.Contained store) :
    Template.fillSettings store (rootRule ValuePart.source ps) =
      .ok (rootRule (ValuePart.rendered store) ps) := by
  have declared : ∀ b, Template.fillSettings store (ps.flatMap (·.declare ValuePart.source) ++ b) =
      (ps.flatMap (·.declare (ValuePart.rendered store)) ++ ·) <$> Template.fillSettings store b :=
    Reader.piecewise_flatMapM fun p hp => fillSettings_declare (h p hp)
  have closing : Template.fillSettings store "\x7d" = .ok "\x7d" :=
    Reader.replaceEveryM_of_refuses (Template.begins_settingOutput.refuses_of_notMem (by decide))
  rw [rootRule_eq_blank, List.append_assoc, Template.fillSettings_append store (by decide),
    declared, closing]
  rfl

/-- The stages fill the settings in and leave everything else as it is. -/
theorem toStylesheet_rootRule (h : ∀ p ∈ ps, p.Contained store) :
    toStylesheet store (rootRule ValuePart.source ps) =
      .ok (rootRule (ValuePart.rendered store) ps) := by
  have noOpening : ∀ p ∈ ps, '{' ∉ p.value store := fun p hp => (h p hp).noOpening
  have body : '{' ∉ ' ' :: ps.flatMap (·.declare (ValuePart.rendered store)) :=
    notMem_body (by decide) (by decide) noOpening
  have rule : ∀ c, c ≠ ' ' → Text.NoPair '{' c (rootRule (ValuePart.rendered store) ps) := by
    intro c hc
    have noBrace : '{' ∉ (' ' :: ps.flatMap (·.declare (ValuePart.rendered store)) ++ "\x7d") := by
      rw [List.mem_append, not_or]
      exact ⟨body, by decide⟩
    change Text.NoPair '{' c ((":root " : Text) ++ '{' :: _)
    exact .append (Text.noPair_of_notMem (by decide))
      ⟨fun _ => decide_eq_true hc.symm, Text.noPair_of_notMem noBrace⟩
  rw [toStylesheet_of_noTag (noPair_rootRule noOpening).not_isInfix,
    fillSchemeSettings_rootRule noOpening, Evaluation.ok_bind, fillSettings_rootRule h,
    Evaluation.ok_bind, fillBareOutputs_of_noOutput (rule '{' (by decide)).not_isInfix,
    removeLeftovers_of_plain (rule '%' (by decide)).not_isInfix (rule '{' (by decide)).not_isInfix]
  rfl

/-! ## Declarations of the rule -/

/-- The declarations of the rule, in order. -/
theorem declarations_body (h : ∀ p ∈ ps, p.Contained store) (file : Text) :
    Stylesheet.declarations file none (' ' :: ps.flatMap (·.declare (ValuePart.rendered store))) =
      ps.map fun p => ⟨p.fullName, Text.trim (p.value store), file, none⟩ := by
  have found : Reader.findEvery Stylesheet.declaration
      (' ' :: ps.flatMap (·.declare (ValuePart.rendered store))) =
      ps.map fun p => (p.fullName, Text.trim (p.value store)) := by
    induction ps with
    | nil =>
      exact Reader.findEvery_of_refuses
        (Stylesheet.begins_declaration.refuses_of_notMem (by simp))
    | cons p ps ih =>
      rw [List.forall_mem_cons] at h
      have noSemicolon : ';' ∉ ' ' :: p.value store := by simp [h.1.noSemicolon]
      have noGap : ∀ c ∈ ([] : Text), Text.isBlank c = true := by simp
      have read := Stylesheet.reads_declaration p.nonempty p.isWordOrHyphen noGap
        (List.cons_ne_nil ' ' (p.value store)) noSemicolon
        (' ' :: ps.flatMap (·.declare (ValuePart.rendered store)))
      have shape : ' ' :: (p :: ps).flatMap (·.declare (ValuePart.rendered store)) =
          [' '] ++ ((("--" : Text) ++ p.name ++ [] ++ ':' :: (' ' :: p.value store ++ [';'])) ++
            ' ' :: ps.flatMap (·.declare (ValuePart.rendered store))) := by
        simp [TemplateProperty.declare, TemplateProperty.value]
      rw [shape, Reader.findEvery_append (Stylesheet.begins_declaration.refuses_of_notMem
        (by decide)), Reader.findEvery_of_reads read (by simp), ih h.2, List.map_cons,
        Text.trim_cons_blank (by decide), TemplateProperty.fullName]
  rw [Stylesheet.declarations, found, List.map_map]
  rfl

/-- Nothing in the rule is echoed. -/
theorem echoDeclarations_rootRule (h : ∀ p ∈ ps, p.Contained store) (file : Text) :
    Stylesheet.echoDeclarations file (rootRule (ValuePart.rendered store) ps) = [] := by
  have body : ∀ p ∈ ps, ∀ b, Reader.Refuses Stylesheet.echoLiteral
      (p.declare (ValuePart.rendered store)) b := by
    intro p hp b
    have name : ∀ c, Text.isBlank c = true → ¬ ("echo" : Text) ++ [c] <:+: p.name := by
      intro c hc found
      have letter := p.isWordOrHyphen c (found.subset (by simp))
      rw [Text.isBlank_of_isWordOrHyphen letter] at hc
      cases hc
    have value : ∀ c, Text.isBlank c = true → ¬ ("echo" : Text) ++ [c] <:+: p.value store :=
      fun c _ found => (h p hp).noEcho ((List.prefix_append _ [c]).isInfix.trans found)
    exact refuses_declare_of_begins Stylesheet.begins_echoLiteral (by decide)
      (Stylesheet.refuses_echoLiteral (by decide) (by decide) name)
      (Stylesheet.refuses_echoLiteral (by decide) (by decide) value) b
  have rule : Reader.Refuses Stylesheet.echoLiteral
      (rootRule (ValuePart.rendered store) ps) [] := by
    rw [rootRule_eq_blank, Reader.refuses_append, Reader.refuses_append]
    exact ⟨⟨Stylesheet.begins_echoLiteral.refuses_of_notMem (by decide),
      Reader.refuses_flatMap body _⟩, Stylesheet.begins_echoLiteral.refuses_of_notMem (by decide)⟩
  rw [Stylesheet.echoDeclarations, Reader.findEvery_of_refuses rule]
  rfl

/-! ## The scan -/

theorem rootMarker_infix_rootRule (write : ValuePart → Text) (ps : List TemplateProperty) :
    Stylesheet.rootMarker <:+: rootRule write ps := by
  have marked : Stylesheet.rootMarker <:+: (":root \x7b" : Text) := by decide
  rw [rootRule_eq, List.append_assoc]
  exact marked.trans (List.prefix_append _ _).isInfix

/-- The only region of the block is its rule. -/
theorem regions_template (h : ∀ p ∈ ps, p.Contained store) :
    Stylesheet.regions (template ps) = [⟨.styleBlock, rootRule ValuePart.source ps, 0⟩] := by
  have parts : ∀ p ∈ ps, '<' ∉ p.parts.flatMap ValuePart.source := by
    intro p hp hc
    obtain ⟨part, hpart, hc⟩ := List.mem_flatMap.1 hc
    cases part with
    | literal s => exact TemplateProperty.literal_notMem (h p hp).noAngle hpart hc
    | setting path =>
      have free : '<' ∉ path.text := path.notMem (by decide)
      have output : '<' ∉ (("\x7b\x7b settings." : Text) ++ path.text ++ " \x7d\x7d") := by
        simp [free]
      exact output hc
  have noAngle : '<' ∉ rootRule ValuePart.source ps := by
    rw [rootRule_eq, List.mem_append, List.mem_append, not_or, not_or]
    exact ⟨⟨by decide, notMem_body (by decide) (by decide) parts⟩, by decide⟩
  exact Stylesheet.regions_styleBlock (noPair_rootRule fun p hp => (h p hp).noOpening) noAngle
    (rootMarker_infix_rootRule _ _)

/-- The declarations of the plain rule. -/
theorem ofStylesheet_rootRule (h : ∀ p ∈ ps, p.Contained store) (onlyRoot : Bool) (file : Text) :
    Extraction.ofStylesheet onlyRoot file (rootRule (ValuePart.rendered store) ps) =
      ps.map fun p => ⟨p.fullName, Text.trim (p.value store), file, none⟩ := by
  have noOpening : '{' ∉ ' ' :: ps.flatMap (·.declare (ValuePart.rendered store)) :=
    notMem_body (by decide) (by decide) fun p hp => (h p hp).noOpening
  have noClosing : '}' ∉ ' ' :: ps.flatMap (·.declare (ValuePart.rendered store)) :=
    notMem_body (by decide) (by decide) fun p hp => (h p hp).noClosing
  rw [Extraction.ofStylesheet, if_pos (Text.occursIn_iff.2 (rootMarker_infix_rootRule _ _)),
    echoDeclarations_rootRule h, rootRule_eq, Stylesheet.rootDeclarations_rule noOpening noClosing,
    Stylesheet.classDeclarations_rule noOpening, ite_self, declarations_body h, List.nil_append,
    List.append_nil]

/-- The declarations of the block. -/
theorem ofSources_template (h : ∀ p ∈ ps, p.Contained store) (onlyRoot : Bool) (path : Text) :
    Extraction.ofSources store onlyRoot [⟨path, template ps⟩] =
      ⟨ps.map fun p => ⟨p.fullName, Text.trim (p.value store), path, none⟩, none⟩ := by
  have marked : Text.occursIn Stylesheet.rootMarker (template ps) = true := by
    rw [Text.occursIn_iff, template_eq]
    exact ((rootMarker_infix_rootRule _ _).trans (List.prefix_append _ _).isInfix).trans
      (List.suffix_append _ _).isInfix
  have region : Extraction.ofRegion store onlyRoot path (rootRule ValuePart.source ps) =
      ⟨ps.map fun p => ⟨p.fullName, Text.trim (p.value store), path, none⟩, none⟩ := by
    rw [Extraction.ofRegion, toStylesheet_rootRule h]
    change Extraction.mk (Extraction.ofStylesheet _ _ _) none = _
    rw [ofStylesheet_rootRule h]
  rw [Extraction.ofSources, List.map_singleton, Extraction.ofSource, if_pos marked,
    regions_template h, List.map_singleton, region]
  simp [Extraction.all, Extraction.andThen]

end

/-- **Scanning the style block** registers the distinct names of its properties in the order of
their first declarations. Each one has the trimmed value of its first declaration with the settings
filled in, that file, and no variants. -/
theorem scanSources_template {store : Store} {ps : List TemplateProperty}
    (h : ∀ p ∈ ps, p.Contained store) (onlyRoot : Bool) (path : Text) :
    ∃ r, scanSources store onlyRoot [⟨path, template ps⟩] = .ok r ∧
      r.names = (ps.map (·.fullName)).eraseDups ∧
      ∀ name, r.get? name = (ps.find? (·.fullName == name)).map fun p =>
        ⟨p.fullName, Text.trim (p.value store), path, []⟩ := by
  have extracted := ofSources_template h onlyRoot path
  refine ⟨_, scanSources_eq_ok.2 ⟨by rw [extracted], rfl⟩, ?_, fun name => ?_⟩
  all_goals rw [extracted]
  · rw [Registry.names_declareAll_empty, List.map_map]
    rfl
  · have noQuery : ∀ d ∈ ps.map fun p => Declaration.mk p.fullName (Text.trim (p.value store)) path
        none, d.variants = [] := by
      intro d hd
      obtain ⟨p, -, rfl⟩ := List.mem_map.1 hd
      rfl
    rw [Registry.get?_declareAll_empty noQuery, List.find?_map, Option.map_map]
    rfl

/-- A setting with a literal behind it, and a second declaration that does not count. -/
theorem scanSources_template_accent :
    let accent : SettingPath := ⟨"accent", by decide, List.all_eq_true.1 rfl⟩
    let a : TemplateProperty :=
      ⟨"a", by decide, List.all_eq_true.1 rfl, [.setting accent, .literal " 50%"]⟩
    let b : TemplateProperty := ⟨"b", by decide, List.all_eq_true.1 rfl, [.literal "1px"]⟩
    let store : Store := { current := [("accent", .str "#f00")] }
    let source : Source := ⟨"a.liquid", template [a, b, { a with parts := b.parts }]⟩
    ∃ r, scanSources store false [source] = .ok r ∧
      r.names = ["--a".toList, "--b".toList] ∧
      r.get? "--a" = some ⟨"--a", "#f00 50%", "a.liquid", []⟩ := by
  intro accent a b store source
  have contained : ∀ p ∈ [a, b, { a with parts := b.parts }], p.Contained store := by decide +kernel
  obtain ⟨r, h, names, get⟩ := scanSources_template contained false "a.liquid"
  exact ⟨r, h, names.trans (by decide +kernel), (get _).trans (by decide +kernel)⟩

end ThemeProps
