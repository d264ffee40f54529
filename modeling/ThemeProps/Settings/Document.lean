/-
  The settings documents of a theme.

  * `config/settings_data.json` holds the values in use under `current`; block
    comments in it do not count;
  * `config/settings_schema.json` lists sections of settings with identifiers
    and defaults.

  A document that cannot be read is reported and counts as empty. A document in
  which a whole number has too many digits is not reported: the loading fails.

  * `Settings.inUse` and `Settings.defaults` are what the two documents say;
  * `readData` and `readSchema` read them from files, and `Store.load` does so
    for a theme.
-/
import ThemeProps.Settings.Store
import ThemeProps.Json.Reader
import ThemeProps.File.Tree
import ThemeProps.Text.Pieces
import ThemeProps.Console
import ThemeProps.Value.Key

namespace ThemeProps.Settings

/-! ## What documents say -/

/-- The values in use; `current` may name one of the presets. -/
def inUse (document : Value) : Fields :=
  let current := match document.field? "current" with
    | some (.str preset) => (document.field? "presets").bind (·.field? preset)
    | current => current
  match current with
  | some (.map _ fields) => fields
  | _ => []

/-- A setting's identifier as a key of the defaults; zero, the empty text and the like are no
identifiers. -/
def identifier? : Value → Option Text
  | .null => none
  | .bool false => none
  | .number n => if n.same (.int 0) then none else some n.literal
  | .str [] => none
  | .list _ [] => none
  | .map _ [] => none
  | v => some v.keyText

/-- The default that a setting of the schema has, with its identifier. -/
def default? (setting : Value) : Option (Text × Value) := do
  let id ← (setting.field? "id").bind identifier?
  let v ← setting.field? "default"
  return (id, v)

/-- The items of a list; other values have none. -/
def itemsOf : Option Value → List Value
  | some (.list _ items) => items
  | _ => []

/-- The defaults of a schema: of several settings with one identifier the last one counts. -/
def defaults (schema : Value) : Fields :=
  let settings := (itemsOf (some schema)).flatMap fun section_ =>
    itemsOf (section_.field? "settings")
  (settings.filterMap default?).foldl (fun fields (id, v) => Fields.set id v fields) []

/-! ## Reading documents -/

/-- Why a document could not be read. -/
inductive LoadError where
  /-- There is no such file, or it does not hold text. -/
  | unreadable (path : Path)
  /-- The file holds no JSON document. -/
  | invalid (path : Path)
deriving DecidableEq

/-- The report of an error. -/
def LoadError.message : LoadError → Text
  | unreadable path => "Cannot read " ++ path.toText
  | invalid path => "Invalid JSON in " ++ path.toText

/-- A block comment. -/
def blockComment : Reader Unit := do
  Reader.literal "/*"
  let _ ← Reader.upTo (Reader.literal "*/")

/-- A text without its block comments. -/
def stripComments (s : Text) : Text := Reader.removeEvery blockComment s

/-- The document in a file, given what to do with its text first. -/
def readDocument (tree : Node) (path : Path) (prepare : Text → Text) :
    Evaluation (Except LoadError Value) :=
  match tree.readText? path with
  | none => .ok (.error (.unreadable path))
  | some s => do
    match ← Json.document? (prepare s) with
    | none => return .error (.invalid path)
    | some v => return .ok v

/-- The values in use according to a file. -/
def readData (tree : Node) (path : Path) : Evaluation (Except LoadError Fields) := do
  return (← readDocument tree path stripComments).map inUse

/-- The defaults according to a file. -/
def readSchema (tree : Node) (path : Path) : Evaluation (Except LoadError Fields) := do
  return (← readDocument tree path id).map defaults

/-- The file with the values in use. -/
def dataFile : Path := ⟨[], ["config", "settings_data.json"]⟩

/-- The file with the schema. -/
def schemaFile : Path := ⟨[], ["config", "settings_schema.json"]⟩

/-- What a file says, if there is one, and the messages about it. -/
def loadFile (tree : Node) (path : Path)
    (read : Node → Path → Evaluation (Except LoadError Fields)) :
    Evaluation (Fields × List Message) :=
  if tree.exists? path then do
    match ← read tree path with
    | .ok fields => return (fields, [])
    | .error e => return ([], [Message.warn e.message])
  else .ok ([], [])

end Settings

/-- The store of the settings in documents, with their lists and mappings told apart. -/
def Store.ofFields (current defaults : Fields) : Store :=
  let (current, next) := Value.numberedFields .read 0 current
  { current, defaults := (Value.numberedFields .read next defaults).1 }

/-- The settings of the theme in a directory, and the messages about them. -/
def Store.load (tree : Node) (root : Path) : Evaluation (Store × List Message) := do
  let (current, problems) ←
    Settings.loadFile tree (root ++ Settings.dataFile) Settings.readData
  let (defaults, more) ←
    Settings.loadFile tree (root ++ Settings.schemaFile) Settings.readSchema
  return (Store.ofFields current defaults, problems ++ more)

end ThemeProps
