/-
  From a templated stylesheet to a plain one.

  The text goes through a fixed list of stages; each assumes that the ones
  before it have done away with their constructs.

  * `Stage` are the stages, `Stage.all` their order and `Stage.apply` what each
    of them does;
  * `toStylesheet` runs them all.

  This approximates a storefront: only the first color scheme is written out.
  Numeric conditionals that are left behind those on settings keep their first
  branch.
-/
import ThemeProps.Block.Run
import ThemeProps.Template.Branch
import ThemeProps.Template.SchemeLoop

namespace ThemeProps

/-! ## Constructs -/

namespace Template

/-- A block of statements: its source. -/
def statementBlock : Reader Text := do
  Tag.opening "liquid"
  let (source, _) ← Reader.upTo Tag.endTag
  return source

/-- An `assign` tag, in small letters. -/
def assignTag : Reader Unit := do
  Tag.openTag
  Reader.literal "assign"
  let _ ← Reader.satisfy Text.isBlank
  let _ ← Reader.run1 (· ≠ '%')
  Reader.char '%'
  Reader.char '}'

/-- The end of the branch that is kept: an `else` with the rest of its region, or the `endif`. -/
def branchEnd : Reader Unit :=
  (do
    Tag.word "else"
    let _ ← Tag.upToWord "endif")
  <|> Tag.word "endif"

/-- A conditional that compares a name with a whole number: its first branch. -/
def numericConditional : Reader Text := do
  Tag.opening "if"
  let _ ← Reader.run1 Text.isWordOrDot
  Reader.blanks
  let _ ← Reader.run1 fun c => c == '<' || c == '>' || c == '=' || c == '!'
  Reader.blanks
  let _ ← Reader.run1 Text.isDigit
  Tag.closeTag
  let (body, _) ← Reader.upTo branchEnd
  return body

/-- `| append: 'suffix'` -/
def suffix : Reader Text := do
  Reader.blanks
  Reader.char '|'
  Reader.blanks
  Reader.literal "append:"
  Reader.blanks
  let _ ← Reader.satisfy fun c => c == '\x27' || c == '"'
  let s ← Reader.run1 fun c => c ≠ '\x27' && c ≠ '"'
  let _ ← Reader.satisfy fun c => c == '\x27' || c == '"'
  return s

/-- The output of a setting that has the given beginning: its path and the suffix to append. -/
def settingOutput (beginning : Text) : Reader (Text × Text) := do
  Tag.openOutput
  Reader.literal beginning
  let path ← Reader.run1 Text.isWordOrDot
  let s ← suffix <|> pure []
  Tag.closeOutput
  return (path, s)

/-- The output of a name. -/
def bareOutput : Reader Unit := do
  Tag.openOutput
  let _ ← Reader.run1 Text.isWord
  Tag.closeOutput

/-- Any tag without a percent sign in it. -/
def anyTag : Reader Unit := do
  Reader.char '{'
  Reader.char '%'
  let _ ← Reader.run (· ≠ '%')
  Reader.char '%'
  Reader.char '}'

/-- Any output without a closing brace in it. -/
def anyOutput : Reader Unit := do
  Reader.char '{'
  Reader.char '{'
  let _ ← Reader.run (· ≠ '}')
  Reader.char '}'
  Reader.char '}'

/-- What an output shows whose value is unknown. -/
def fallback : Text := "0.15"

/-! ## What the stages do -/

/-- Statement blocks are run and what they echo is put in their place. -/
def runBlocks (store : Store) (s : Text) : Evaluation Text :=
  Reader.replaceEveryM statementBlock (runBlock store []) s

/-- Numeric conditionals keep their first branch. -/
def keepFirstBranches (s : Text) : Text := Reader.replaceEvery numericConditional id s

/-- Outputs of settings of the color scheme are filled in. -/
def fillSchemeSettings (store : Store) (s : Text) : Evaluation Text :=
  Reader.replaceEveryM (settingOutput "scheme.settings.")
    (fun (path, suffix) => do return (← store.renderSchemeSetting path) ++ suffix) s

/-- Outputs of settings are filled in. -/
def fillSettings (store : Store) (s : Text) : Evaluation Text :=
  Reader.replaceEveryM (settingOutput "settings.")
    (fun (path, suffix) => do return (← store.renderSetting path) ++ suffix) s

/-- Outputs of other names show the fallback. -/
def fillBareOutputs (s : Text) : Text := Reader.replaceEvery bareOutput (fun _ => fallback) s

/-- Tags that are left, and then outputs that are left, are removed. -/
def removeLeftovers (s : Text) : Text :=
  Reader.removeEvery anyOutput (Reader.removeEvery anyTag s)

end Template

/-! ## Stages -/

/-- A stage on the way from a templated stylesheet to a plain one. -/
inductive Stage where
  | statementBlocks
  | schemeLoop
  | assignTags
  | settingConditionals
  | numericConditionals
  | schemeSettings
  | settings
  | bareOutputs
  | leftovers
deriving DecidableEq

namespace Stage

/-- The stages in their order. -/
def all : List Stage :=
  [statementBlocks, schemeLoop, assignTags, settingConditionals, numericConditionals,
    schemeSettings, settings, bareOutputs, leftovers]

/-- The name under which a stage is reported. -/
def label : Stage → Text
  | statementBlocks => "liquid_blocks"
  | schemeLoop => "color_scheme_loop"
  | assignTags => "assign_tags"
  | settingConditionals => "static_conditionals"
  | numericConditionals => "optimistic_conditionals"
  | schemeSettings => "scheme_settings"
  | settings => "settings"
  | bareOutputs => "bare_outputs"
  | leftovers => "leftover_tags"

/-- The text after a stage. -/
def apply (store : Store) : Stage → Text → Evaluation Text
  | statementBlocks, s => Template.runBlocks store s
  | schemeLoop, s => .ok (SchemeLoop.expand store s)
  | assignTags, s => .ok (Reader.removeEvery Template.assignTag s)
  | settingConditionals, s => reduceConditionals store s
  | numericConditionals, s => .ok (Template.keepFirstBranches s)
  | schemeSettings, s => Template.fillSchemeSettings store s
  | settings, s => Template.fillSettings store s
  | bareOutputs, s => .ok (Template.fillBareOutputs s)
  | leftovers, s => .ok (Template.removeLeftovers s)

/-- The text after each of some stages. -/
def trace (store : Store) : List Stage → Text → Evaluation (List (Stage × Text))
  | [], _ => .ok []
  | stage :: stages, s => do
    let t ← stage.apply store s
    return (stage, t) :: (← trace store stages t)

end Stage

/-- The plain stylesheet that a templated one stands for. -/
def toStylesheet (store : Store) (s : Text) : Evaluation Text :=
  Stage.all.foldlM (fun s stage => stage.apply store s) s

end ThemeProps
