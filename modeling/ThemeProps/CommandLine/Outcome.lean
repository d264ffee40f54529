/-
  Running commands.

  * `Outcome` is what a run leaves behind: an exit code and what is printed;
  * `Command.run` runs a command on a file tree, and `runCommandLine` a whole
    command line. Files that cannot be searched, values that go wrong and a
    configuration file that is not text end a run without an outcome.
-/
import ThemeProps.CommandLine.Command
import ThemeProps.Config.Document
import ThemeProps.Describe
import ThemeProps.Json.Writer
import ThemeProps.Project
import ThemeProps.Yaml.Writer

namespace ThemeProps

/-- What a run leaves behind. -/
structure Outcome where
  exitCode : Nat
  output : Text := []
  errors : Text := []

/-- A run that comes to a good end. -/
def Outcome.success (output : Text) : Outcome := { exitCode := 0, output }

/-- A run that does not find what is asked for. -/
def Outcome.failure (output message : Text) : Outcome :=
  { exitCode := 1, output, errors := "Error: " ++ message ++ "\n" }

/-- Why a run ends without an outcome. -/
inductive RunError where
  | config (e : Config.LoadError)
  | scan (e : ScanError)

/-! ## What is printed -/

/-- The messages about a custom property in a list. -/
def Entry.messages (e : Entry) : List Message :=
  ⟨.info, e.name ++ ": " ++ e.value⟩ :: ⟨.detail, "    " ++ e.fileName⟩
    :: e.media.map fun m => ⟨.detail, "    @media " ++ m.query ++ ": " ++ m.value⟩

/-- The messages that list a registry. -/
def Registry.messages (r : Registry) : List Message :=
  let found : Text := "Found " ++ Text.ofNat r.size ++ " CSS variables from "
    ++ Text.ofNat r.sourceFiles.length ++ " Liquid file(s)"
  ⟨.success, found⟩ :: r.entries.flatMap Entry.messages

/-- A registry in a format. -/
def Registry.print (r : Registry) (colors : Bool) : OutputFormat → Text
  | .lines => Message.printAll colors r.messages
  | .json => r.outline.toJson ++ "\n"
  | .yaml => r.outline.toYaml

/-- The lines of a description: the first one is its header. -/
def descriptionMessages : List Text → List Message
  | [] => []
  | first :: lines => ⟨.header, first⟩ :: lines.map (⟨.info, ·⟩)

/-- The overview of the commands. -/
def overviewText : Text :=
  CommandScope.program.usage ++
    Text.join "\n"
      ["", "  Extract CSS custom properties from Liquid theme files.", "", "Options:",
        "  --version  Show the version and exit.", "  --help     Show this message and exit.", "",
        "Commands:", "  convert  Convert between rem and px",
        "  scan     Scan a theme and list its CSS variables",
        "  show     Describe one CSS variable", ""]

/-! ## Runs -/

/-- A theme after a scan, and the messages on the way. -/
def scanTheme (tree : Node) (root : Path) (config : Option Path)
    (overrides : List Config.Override) : Except RunError (Project × List Message) := do
  let (config, ms) ← (Config.load tree root config).mapError .config
  let project : Project := { root, config := config.overrideAll overrides }
  let (project, more) ← (project.rescan tree).mapError .scan
  return (project, ms ++ more)

namespace Command

/-- Runs a command. -/
def run (tree : Node) (colors : Bool) : Command → Except RunError Outcome
  | overview => .ok (.success overviewText)
  | scan root config overrides format => do
    let (project, ms) ← scanTheme tree root config overrides
    return .success
      (Message.printAll colors ms ++ project.scan.registry.print colors format)
  | describe name root config => do
    let (project, ms) ← scanTheme tree root config []
    let printed := Message.printAll colors ms
    match project.get? name with
    | none =>
      return .failure printed
        ("CSS variable '" ++ name ++ "' not found in " ++ root.toText)
    | some entry => do
      let base ← project.config.base.toFloat.mapError fun e => .scan (.evaluation e)
      let lines := entry.describe project.config.converts base
      return .success (printed ++ Message.printAll colors (descriptionMessages lines))
  | convert value base =>
    match Units.conversionHint base value with
    | none => .ok (.failure [] ("No rem or px length found in '" ++ value ++ "'"))
    | some hint => .ok (.success (hint ++ "\n"))

end Command

/-- Runs a command line, given without the name of the program. -/
def runCommandLine (tree : Node) (colors : Bool) (line : List Text) :
    Except RunError Outcome :=
  match Command.parse tree line with
  | .ok command => command.run tree colors
  | .error e => .ok { exitCode := 2, errors := e.report }

end ThemeProps
