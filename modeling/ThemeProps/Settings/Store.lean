/-
  The settings of a theme.

  * `Store` holds the values in use and the defaults of the settings schema;
  * `Value.atPath` follows a dotted path through nested mappings, and
    `Store.get` looks a setting up: the value in use, or else the default;
  * `Store.colorSchemes` and `Store.firstScheme?` are the color schemes in the
    order of their declaration;
  * `Store.renderSetting` and `Store.renderSchemeSetting` write a setting into
    a stylesheet. Both are instances of `renderSettingBy` and `renderSchemeBy`,
    which are given the ways to look a setting up and to read a color.
-/
import ThemeProps.Color

namespace ThemeProps

/-- The settings of a theme. -/
structure Store where
  /-- The values in use. -/
  current : Fields := []
  /-- The default of each setting. -/
  defaults : Fields := []

/-! ## Looking settings up -/

/-- The value that some keys lead to, one after the other; null if one of them is missing. -/
def Value.atKeys : List Text → Value → Value
  | [], v => v
  | key :: keys, v =>
    match v.field? key with
    | some .null => .null
    | some w => atKeys keys w
    | none => .null

/-- The value at a dotted path. -/
def Value.atPath (path : Text) (v : Value) : Value := v.atKeys (Text.splitAtChar '.' path)

namespace Store

/-- A setting: the value in use at the dotted path, or else the default under the whole path. -/
def get (store : Store) (path : Text) : Value :=
  match (Value.map .fresh store.current).atPath path with
  | .null => (store.defaults.get? path).getD .null
  | v => v

/-- The color schemes, if there are any. -/
def colorSchemes (store : Store) : Fields :=
  match store.current.get? "color_schemes" with
  | some (.map _ schemes) => schemes
  | _ => []

/-- The identifier and the fields of the first color scheme. -/
def firstScheme? (store : Store) : Option (Text × Fields) :=
  match store.colorSchemes with
  | (id, .map _ fields) :: _ => some (id, fields)
  | (id, _) :: _ => some (id, [])
  | [] => none

/-- The identifier of the first color scheme. -/
def firstSchemeId? (store : Store) : Option Text := store.firstScheme?.map (·.1)

end Store

/-! ## Writing settings -/

/-- A setting as it is written into a stylesheet. -/
def Value.format : Value → Evaluation Text
  | .null => .ok []
  | .str s => .ok s
  | .bool b => .ok (if b then "true" else "false")
  | .number n => n.toText
  | .list _ _ => .ok "[object]"
  | .map _ _ => .ok "[object]"

/-- A text that stands for a color. -/
def isColorText (s : Text) : Bool := s.head? == some '#'

/-- The channels of a color: `r g b` for the accessor `rgb`, else `r, g, b, a`. -/
def Color.channels (accessor : Text) (c : Color) : Evaluation Text :=
  if accessor = "rgb" then .ok c.toRgb else c.toRgba

section
variable {m : Type → Type} [Monad m]

/-- A color text as channels. A text that is no color stays as it is. -/
def formatColorBy (color : Text → m (Option Color)) (hex accessor : Text) :
    m (Evaluation Text) := do
  match ← color hex with
  | none => return .ok hex
  | some c => return c.channels accessor

/-- A setting with its accessor left out, if the path ends in `.rgb` or `.rgba`. -/
def accessor? (path : Text) : Option (Text × Text) :=
  match (Text.splitAtChar '.' path).reverse with
  | last :: first :: more =>
    if last = "rgb" ∨ last = "rgba" then some (Text.join "." (first :: more).reverse, last)
    else none
  | _ => none

/-- A setting, or its path in brackets if there is none. -/
def renderPlainBy (get : Text → m Value) (path : Text) : m (Evaluation Text) := do
  match ← get path with
  | .null => return .ok ('[' :: path ++ "]")
  | v => return v.format

/-- A setting for a stylesheet; `.rgb` and `.rgba` give the channels of a color. -/
def renderSettingBy (get : Text → m Value) (color : Text → m (Option Color)) (path : Text) :
    m (Evaluation Text) := do
  match accessor? path with
  | none => renderPlainBy get path
  | some (base, accessor) =>
    match ← get base with
    | .str hex =>
      if isColorText hex then formatColorBy color hex accessor else renderPlainBy get path
    | _ => renderPlainBy get path

/-- The value that some keys lead to; keys behind a value without fields are passed over. -/
def Value.atKeysLeniently : List Text → Value → Value
  | [], v => v
  | key :: keys, .map _ fields => atKeysLeniently keys ((Fields.get? fields key).getD .null)
  | _ :: _, v => v

/-- A setting of the first color scheme for a stylesheet; colors are written as channels. -/
def renderSchemeBy (store : Store) (color : Text → m (Option Color)) (path : Text) :
    m (Evaluation Text) := do
  let missing : Text := "[scheme." ++ path ++ "]"
  match store.firstScheme?.bind fun (_, scheme) => scheme.get? "settings" with
  | some (.map id fields) =>
    let keys := Text.splitAtChar '.' path
    match (Value.map id fields).atKeysLeniently keys with
    | .null => return .ok missing
    | .str s =>
      if isColorText s then formatColorBy color s (keys.getLast?.getD []) else return .ok s
    | v => return v.format
  | _ => return .ok missing

end

namespace Store

/-- A setting as a stylesheet shows it. -/
def renderSetting (store : Store) (path : Text) : Evaluation Text :=
  Id.run (renderSettingBy (fun key => pure (store.get key))
    (fun hex => pure (Color.ofHex? (.int 1) hex)) path)

/-- A setting of the first color scheme as a stylesheet shows it. -/
def renderSchemeSetting (store : Store) (path : Text) : Evaluation Text :=
  Id.run (renderSchemeBy store (fun hex => pure (Color.ofHex? (.int 1) hex)) path)

end Store
end ThemeProps
