/-
  The configuration file of a theme, a YAML document.

  * `Config.fieldsOfFile` reads the mapping in a file and tells why a file cannot
    be used;
  * `Config.load` is the configuration of a theme. A file that cannot be used
    gives the default configuration and a warning, unless it is not even text.
-/
import ThemeProps.Config
import ThemeProps.File.Tree
import ThemeProps.Text.Quoted
import ThemeProps.Yaml.Document

namespace ThemeProps.Config

/-- Why a configuration file cannot be used. -/
inductive FileError where
  /-- There is no such file. -/
  | missing (path : Path)
  /-- It is a directory. -/
  | directory (path : Path)
  /-- Its bytes are not text. -/
  | notText (path : Path)
  /-- Its text is not a YAML document. -/
  | invalid (path : Path)
  /-- The document is not a mapping. -/
  | notMapping (path : Path)
deriving DecidableEq

/-- The report of an error. -/
def FileError.message : FileError → Text
  | missing path => "YAML file not found: " ++ path.toText
  | directory path => "[Errno 21] Is a directory: " ++ path.toText.quoted
  | notText path => "Not a text: " ++ path.toText
  | invalid path => "Invalid YAML in " ++ path.toText
  | notMapping path => "Expected a mapping at the top of " ++ path.toText

/-- The fields of the mapping that a text writes; the empty document has none. -/
def fieldsOfText (path : Path) (s : Text) : Except FileError Fields :=
  match Yaml.document? s with
  | none => .error (.invalid path)
  | some .null => .ok []
  | some (.map _ fields) => .ok fields
  | some _ => .error (.notMapping path)

/-- The fields of the mapping in a file. -/
def fieldsOfFile (tree : Node) (path : Path) : Except FileError Fields :=
  match tree.find? path with
  | none => .error (.missing path)
  | some (.directory _) => .error (.directory path)
  | some node =>
    match node.text? with
    | none => .error (.notText path)
    | some s => fieldsOfText path s

/-- Why a configuration cannot be loaded at all. -/
inductive LoadError where
  /-- The file is not text. -/
  | notText
  /-- A value goes wrong. -/
  | evaluation (e : EvalError)

/-- The file that holds the configuration of a theme. -/
def fileName : Path := ⟨[], ["liquid-css-vars.yaml"]⟩

/-- The configuration in a file that is there. If the file cannot be used, that is the default one
and a warning. -/
def loadFrom (tree : Node) (path : Path) : Except LoadError (Config × List Message) :=
  match fieldsOfFile tree path with
  | .ok fields => (ofFields (some path) fields).mapError .evaluation
  | .error (.notText _) => .error .notText
  | .error e => .ok (default, [Message.warn (e.message ++ "; using default configuration")])

/-- The configuration of the theme in a directory, or the one in a given file; it has to be there
only if it is given. -/
def load (tree : Node) (root : Path) (given : Option Path) :
    Except LoadError (Config × List Message) :=
  match given with
  | some path =>
    if tree.exists? path then loadFrom tree path
    else
      .ok (default,
        [Message.warn ("Config file not found: " ++ path.toText ++ ", using defaults")])
  | none =>
    if tree.exists? (root ++ fileName) then loadFrom tree (root ++ fileName)
    else .ok (default, [])

end ThemeProps.Config
