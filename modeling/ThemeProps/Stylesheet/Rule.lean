/-
  Rules of a plain stylesheet and the declarations in them.

  * `bodiesOf` finds the rules with a given kind of opening and their bodies; a
    rule whose closing brace is missing is passed over;
  * `declarations` are the custom properties that a text declares, wherever
    they stand in it;
  * `rootDeclarations`, `classDeclarations` and `echoDeclarations` are those of
    `:root` rules with their media queries, of class rules, and of `echo`
    statements that are left in the text.
-/
import ThemeProps.Stylesheet.Brace
import ThemeProps.Text.Pieces
import ThemeProps.Text.Word
import ThemeProps.Registry

namespace ThemeProps.Stylesheet

/-! ## Rules -/

/-- The openings that a reader finds in a text, each with the text behind it. -/
def openings (opening : Reader α) (s : Text) : List (α × Text) :=
  Reader.findEvery (do let a ← opening; return (a, ← get)) s

/-- The rules with some kind of opening: what the opening says, and the body. -/
def bodiesOf (opening : Reader α) (s : Text) : List (α × Text) :=
  (openings opening s).filterMap fun (a, behind) => (body? behind).map (a, ·)

/-- A further selector of a rule: a class or an identifier. -/
def furtherSelector : Reader Unit := do
  Reader.char ','
  Reader.blanks
  let _ ← Reader.satisfy fun c => c == '.' || c == '#'
  let _ ← Reader.run1 Text.isWordOrHyphen
  Reader.blanks

/-- Further selectors as long as there are any, at most `n` of them. -/
def furtherSelectors : Nat → Reader Unit
  | 0 => pure ()
  | n + 1 => (do furtherSelector; furtherSelectors n) <|> pure ()

/-- The opening of a `:root` rule. -/
def rootOpening : Reader Unit := do
  Reader.literal ":root"
  Reader.blanks
  furtherSelectors (← get).length
  Reader.char '{'

/-- The opening of a media rule: its query. -/
def mediaOpening : Reader Text := do
  Reader.literal "@media"
  let query ← Reader.run1 (· ≠ '{')
  Reader.char '{'
  return Text.trim query

/-- The opening of a class rule. -/
def classOpening : Reader Unit := do
  Reader.char '.'
  let _ ← Reader.run1 Text.isWordOrHyphen
  Reader.blanks
  Reader.char '{'

/-! ## Declarations -/

/-- The name of a custom property and the colon behind it. -/
def propertyName : Reader Text := do
  Reader.literal "--"
  let name ← Reader.run1 Text.isWordOrHyphen
  Reader.blanks
  Reader.char ':'
  return "--" ++ name

/-- `--name: value;` -/
def declaration : Reader (Text × Text) := do
  let name ← propertyName
  let value ← Reader.run1 (· ≠ ';')
  Reader.char ';'
  return (name, Text.trim value)

/-- The declarations in a text, made in the given media query if there is one. -/
def declarations (file : Text) (query : Option Text) (s : Text) : List Declaration :=
  (Reader.findEvery declaration s).map fun (name, value) => ⟨name, value, file, query⟩

/-- The declarations in the media rules of a text. -/
def mediaDeclarations (file s : Text) : List Declaration :=
  (bodiesOf mediaOpening s).flatMap fun (query, body) => declarations file (some query) body

/-- The declarations in the `:root` rules of a text: for each rule those in its whole body, and
then those of its media rules as variants. -/
def rootDeclarations (file s : Text) : List Declaration :=
  (bodiesOf rootOpening s).flatMap fun (_, body) =>
    declarations file none body ++ mediaDeclarations file body

/-- A line that declares nothing: a comment or a media query begins it. -/
def isSkippedLine (line : Text) : Bool :=
  let line := Text.trim line
  Text.startsWith line "/*" || Text.startsWith line "@media"

/-- The declarations in the class rules of a text, line by line. -/
def classDeclarations (file s : Text) : List Declaration :=
  (bodiesOf classOpening s).flatMap fun (_, body) =>
    ((Text.lines body).filter (!isSkippedLine ·)).flatMap (declarations file none)

/-! ## Echoed declarations -/

/-- A property name with its colon and at least one character of a value. -/
def beginsDeclaration : Reader Unit := do
  let _ ← propertyName
  let _ ← Reader.satisfy fun _ => true

/-- An `echo` of a literal that declares a custom property: the literal. -/
def echoLiteral : Reader Text := do
  Reader.literal "echo"
  Reader.blanks1
  let _ ← Reader.satisfy fun c => c == '\x27' || c == '"'
  let s ← Reader.run fun c => c ≠ '\x27' && c ≠ '"'
  let _ ← Reader.satisfy fun c => c == '\x27' || c == '"'
  if (Reader.findFirst beginsDeclaration s).isNone then failure
  return s

/-- `[name]` -/
def interpolation : Reader Unit := do
  Reader.char '['
  let _ ← Reader.run1 Text.isWordOrHyphen
  Reader.char ']'

/-- `--name: value`, up to a semicolon or the end of the text. -/
def echoedProperty : Reader (Text × Text) := do
  let name ← propertyName
  let value ← Reader.run1 (· ≠ ';')
  return (name, Reader.replaceEvery interpolation (fun _ => "...") (Text.trim value))

/-- The declarations in literals that are echoed; names in brackets become dots. -/
def echoDeclarations (file s : Text) : List Declaration :=
  (Reader.findEvery echoLiteral s).flatMap fun literal =>
    (Reader.findEvery echoedProperty literal).map fun (name, value) => ⟨name, value, file, none⟩

end ThemeProps.Stylesheet
