/-
  A theme project that is scanned again and again.

  * `Scan` is the result of a scan: the registry and the settings;
  * `Project` is a theme with its configuration and the result of its last
    scan. `Project.rescan` scans the files anew; if that fails, the project
    stays as it is, and `Project.clear` forgets the result.
-/
import ThemeProps.Config
import ThemeProps.Extraction
import ThemeProps.File.Glob
import ThemeProps.Settings.Document

namespace ThemeProps

/-- The result of a scan. -/
structure Scan where
  registry : Registry := {}
  store : Store := {}

/-- Why a scan failed. -/
inductive ScanError where
  /-- A number in the settings documents could not be read. -/
  | settings (e : EvalError)
  /-- The files could not be searched. -/
  | glob (e : GlobError)
  /-- A template could not be evaluated. -/
  | evaluation (e : EvalError)

/-- A theme project. -/
structure Project where
  root : Path
  config : Config := Config.default
  scan : Scan := {}

namespace Project

/-- The template files of the project. -/
def sourceFiles (p : Project) (tree : Node) : Except GlobError (List Path) :=
  discover tree p.root p.config.included p.config.excluded

/-- The template files at some paths, and messages about those that cannot be read. -/
def readSources (tree : Node) : List Path → List Source × List Message
  | [] => ([], [])
  | path :: paths =>
    let (sources, ms) := readSources tree paths
    match tree.readText? path with
    | some s => (⟨path.toText, s⟩ :: sources, ms)
    | none => (sources, Message.warn ("Error reading file " ++ path.toText) :: ms)

/-- The result of scanning the files of the project, and the messages on the way. -/
def scanFiles (p : Project) (tree : Node) : Except ScanError (Scan × List Message) := do
  let (store, problems) ← (Store.load tree p.root).mapError .settings
  let paths ← (p.sourceFiles tree).mapError .glob
  let (sources, more) := readSources tree paths
  let registry ← (scanSources store p.config.onlyRoot sources).mapError .evaluation
  return (⟨registry, store⟩, problems ++ more)

/-- The project with the result of a new scan. -/
def rescan (p : Project) (tree : Node) : Except ScanError (Project × List Message) := do
  let (scan, ms) ← p.scanFiles tree
  return ({ p with scan := scan }, ms)

/-- The project without a result. -/
def clear (p : Project) : Project := { p with scan := {} }

/-- A custom property of the project; the hyphens in front of its name may be left out. -/
def get? (p : Project) (name : Text) : Option Entry :=
  p.scan.registry.get? (if Text.startsWith name "--" then name else "--" ++ name)

end Project
end ThemeProps
