/-
  The configuration of an extraction.

  * `Config` are the options, and `Config.default` their defaults;
  * `Config.ofFields` reads the options from a mapping, whose keys may be
    written in two ways; what is not valid is reported and does not count;
  * `Config.override` puts other values in place of some options.
-/
import ThemeProps.Value.Number
import ThemeProps.File.Path
import ThemeProps.Units
import ThemeProps.Console

namespace ThemeProps

/-- The options of an extraction. -/
structure Config where
  /-- The globs of the template files. -/
  included : List Text
  /-- The patterns of files that do not count. -/
  excluded : List Text
  /-- Descriptions show converted lengths. -/
  converts : Bool
  /-- The root font size. -/
  base : Number
  /-- Only `:root` rules count, not class rules. -/
  onlyRoot : Bool
  /-- The file that the options were read from. -/
  source : Option Path := none

namespace Config

/-- The options that hold when nothing else is said. -/
def default : Config where
  included :=
    ["**/*.liquid", "**/snippets/theme-styles-*.liquid", "**/snippets/color-schemes.liquid"]
  excluded := ["**/node_modules/**"]
  converts := true
  base := .float Units.defaultBase
  onlyRoot := true

/-! ## Options in a mapping -/

/-- The options that a mapping can set. -/
inductive Field where
  | included
  | excluded
  | converts
  | base
  | onlyRoot
deriving DecidableEq

/-- The option that a key stands for. -/
def Field.ofKey? (key : Text) : Option Field :=
  if key = "includePatterns" ∨ key = "include_patterns" then some included
  else if key = "excludePatterns" ∨ key = "exclude_patterns" then some excluded
  else if key = "remToPxConversion" ∨ key = "rem_to_px_conversion" then some converts
  else if key = "baseFontSize" ∨ key = "base_font_size" then some base
  else if key = "onlyRoot" ∨ key = "only_root" then some onlyRoot
  else none

/-- What the value of an option has to be. -/
def Field.requirement : Field → Text
  | included => "a list of glob strings"
  | excluded => "a list of glob strings"
  | converts => "true or false"
  | base => "a positive number"
  | onlyRoot => "true or false"

/-- A text. -/
def text? : Value → Option Text
  | .str s => some s
  | _ => none

/-- A list of patterns; a text counts as a list of one. -/
def patterns? : Value → Option (List Text)
  | .str s => some [s]
  | .list _ items => items.mapM text?
  | _ => none

/-- A truth value. -/
def flag? : Value → Option Bool
  | .bool b => some b
  | _ => none

/-- A number above zero. -/
def positive? : Value → Option Number
  | .number (.int n) => if 0 < n then some (.int n) else none
  | .number (.float x) => if 0 < x then some (.float x) else none
  | _ => none

/-- The options with one of them set, if the value is valid for it. A number becomes a double. -/
def set? (c : Config) (field : Field) (v : Value) : Option (Evaluation Config) :=
  match field with
  | .included => (patterns? v).map fun ps => .ok { c with included := ps }
  | .excluded => (patterns? v).map fun ps => .ok { c with excluded := ps }
  | .converts => (flag? v).map fun b => .ok { c with converts := b }
  | .base => (positive? v).map fun n => do return { c with base := .float (← n.toFloat) }
  | .onlyRoot => (flag? v).map fun b => .ok { c with onlyRoot := b }

/-- The options after a field of a mapping, and the messages about it. -/
def readField (c : Config) (key : Text) (v : Value) : Evaluation (Config × List Message) :=
  match Field.ofKey? key with
  | none => .ok (c, [Message.warn ("Unknown config key '" ++ key ++ "' ignored")])
  | some field =>
    match c.set? field v with
    | some c => do return (← c, [])
    | none =>
      .ok (c, [Message.warn
        ("Config '" ++ key ++ "' must be " ++ field.requirement ++ ", using default")])

/-- The options after some fields of a mapping, and the messages about them. -/
def readFields (c : Config) : Fields → Evaluation (Config × List Message)
  | [] => .ok (c, [])
  | (key, v) :: fields => do
    let (c, ms) ← readField c key v
    let (c, more) ← readFields c fields
    return (c, ms ++ more)

/-- The options that a mapping sets. -/
def ofFields (source : Option Path) (fields : Fields) : Evaluation (Config × List Message) :=
  readFields { default with source := source } fields

/-! ## Other values -/

/-- A value that takes the place of an option. -/
inductive Override where
  | included (patterns : List Text)
  | excluded (patterns : List Text)
  | converts (b : Bool)
  | base (n : Number)
  | onlyRoot (b : Bool)
  | source (path : Path)

/-- The options with another value for one of them. -/
def override (c : Config) : Override → Config
  | .included ps => { c with included := ps }
  | .excluded ps => { c with excluded := ps }
  | .converts b => { c with converts := b }
  | .base n => { c with base := n }
  | .onlyRoot b => { c with onlyRoot := b }
  | .source path => { c with source := some path }

/-- The options with other values for some of them. -/
def overrideAll (c : Config) (overrides : List Override) : Config := overrides.foldl override c

end Config
end ThemeProps
