/-
  Conditions of stylesheet regions, which see settings alone.

  A condition compares a setting with a literal, or asks whether a setting is
  present. The first comparison in its text counts, or else the first setting.

  * `SettingCondition.parse` reads a condition;
  * `SettingCondition.holds` decides it. Text that mentions no setting never
    holds.
-/
import ThemeProps.Settings.Store
import ThemeProps.Value.Compare
import ThemeProps.Text.Pieces
import ThemeProps.Text.Word

namespace ThemeProps

/-- A condition on the settings. -/
inductive SettingCondition where
  /-- `settings.path operator literal` -/
  | compare (path : Text) (c : Comparison) (literal : Value)
  /-- `settings.path` -/
  | present (path : Text)
  /-- a text that mentions no setting -/
  | never

namespace SettingCondition

/-- A numeral without an exponent. -/
def numeral : Reader Numeral := do
  let negative ← Numeral.sign
  let (digits, places) ← Numeral.unsigned
  return ⟨negative, Text.numberOfDigits digits, -places⟩

/-- The value that an unquoted literal writes. -/
def bareLiteral (s : Text) : Value :=
  if s = "true" then .bool true
  else if s = "false" then .bool false
  else
    match numeral.readAll? s with
    | some n => .float n.toFloat
    | none => .str s

/-- A text in quote marks of one kind, on one line. -/
def quotedLiteral : Reader Value := do
  let quote ← Reader.satisfy fun c => c == '\x27' || c == '"'
  let s ← Reader.run fun c => c ≠ quote ∧ c ≠ '\n'
  Reader.char quote
  return .str s

/-- A literal: a quoted text, or else a run of characters that are not blank. -/
def literal : Reader Value := do
  Reader.blanks
  quotedLiteral <|> do return bareLiteral (← Reader.run1 fun c => !Text.isBlank c)

/-- `settings.path` -/
def reference : Reader Text := do
  Reader.literal "settings."
  Reader.run1 Text.isWordOrDot

/-- An operator and a literal. -/
def operation (symbol : Text) (c : Comparison) : Reader (Comparison × Value) := do
  Reader.literal symbol
  return (c, ← literal)

/-- `settings.path operator literal` -/
def comparison : Reader SettingCondition := do
  let path ← reference
  Reader.blanks
  let (c, v) ← operation "==" .equal <|> operation "!=" .unequal <|> operation "<=" .atMost
    <|> operation ">=" .atLeast <|> operation "<" .below <|> operation ">" .above
  return compare path c v

/-- The condition that a text writes. -/
def parse (s : Text) : SettingCondition :=
  let s := Text.trim s
  match Reader.findFirst comparison s with
  | some (_, condition, _) => condition
  | none =>
    match Reader.findFirst reference s with
    | some (_, path, _) => present path
    | none => never

/-- A setting that is there: it is not absent, false or the empty text. -/
def isSet : Value → Bool
  | .null => false
  | .bool b => b
  | .str s => s != []
  | _ => true

/-- The condition holds for the settings. -/
def holds (store : Store) : SettingCondition → Evaluation Bool
  | compare path c v => (store.get path).compareBy c v
  | present path => .ok (isSet (store.get path))
  | never => .ok false

end SettingCondition

/-- The condition on the settings that a text writes holds. -/
def evaluateSettingCondition (store : Store) (s : Text) : Evaluation Bool :=
  (SettingCondition.parse s).holds store

end ThemeProps
