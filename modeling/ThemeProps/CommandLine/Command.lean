/-
  The commands of the program.

  * `Command` are the commands with what they need to know;
  * `Command.parse` reads a command from a command line. The directory of the
    theme has to be there, and values of options have to be what their options
    ask for;
  * `UsageError` is why that may fail, and `UsageError.report` what is then
    printed.
-/
import ThemeProps.CommandLine.Arguments
import ThemeProps.Config
import ThemeProps.Decimal.Spelled
import ThemeProps.File.Tree
import ThemeProps.Text.Quoted

namespace ThemeProps

/-- The forms in which a registry is printed. -/
inductive OutputFormat where
  | lines
  | json
  | yaml
deriving DecidableEq

/-- The format with a name. -/
def OutputFormat.ofName? (name : Text) : Option OutputFormat :=
  if name = "text" then some lines
  else if name = "json" then some json
  else if name = "yaml" then some yaml
  else none

/-- A command. -/
inductive Command where
  /-- Tell what commands there are. -/
  | overview
  /-- List the custom properties of a theme. -/
  | scan (root : Path) (config : Option Path) (overrides : List Config.Override)
      (format : OutputFormat)
  /-- Describe one custom property. -/
  | describe (name : Text) (root : Path) (config : Option Path)
  /-- Convert a length. -/
  | convert (value : Text) (base : Float)

/-- The name of the program. -/
def programName : Text := "liquid-css-vars"

/-! ## Errors -/

/-- The part of a command line that is being read. -/
inductive CommandScope where
  | program
  | scan
  | describe
  | convert
deriving DecidableEq

/-- The beginning of a command line. -/
def CommandScope.invocation : CommandScope → Text
  | program => programName
  | scan => programName ++ " scan"
  | describe => programName ++ " show"
  | convert => programName ++ " convert"

/-- What may follow the beginning of a command line. -/
def CommandScope.operands : CommandScope → Text
  | program => "[OPTIONS] [COMMAND] [ARGS]..."
  | scan => "[OPTIONS] [ROOT]"
  | describe => "[OPTIONS] NAME [ROOT]"
  | convert => "[OPTIONS] VALUE"

/-- The form of a command line. -/
def CommandScope.usage (scope : CommandScope) : Text :=
  "Usage: " ++ scope.invocation ++ " " ++ scope.operands ++ "\n"

/-- What is wrong with a command line. -/
inductive UsageProblem where
  | unknownCommand (name : Text)
  | argument (e : ArgumentError)
  | missingOperand (name : Text)
  | extraOperands (operands : List Text)
  | rootMissing (root : Text)
  | rootIsFile (root : Text)
  | configIsDirectory (path : Text)
  | unknownFormat (name : Text)
  | baseNotNumber (base : Text)
  | baseNotPositive
deriving DecidableEq

/-- The text about a problem. -/
def UsageProblem.message : UsageProblem → Text
  | unknownCommand name => "No such command " ++ name.quoted ++ "."
  | argument (.unknownOption name) => "No such option " ++ name.quoted ++ "."
  | argument (.missingValue name) => "Option " ++ name.quoted ++ " requires an argument."
  | argument (.needlessValue name) => "Option " ++ name.quoted ++ " does not take a value."
  | missingOperand name => "Missing argument '" ++ name ++ "'."
  | extraOperands operands =>
    let noun : Text := if operands.length = 1 then "argument" else "arguments"
    "Got unexpected extra " ++ noun ++ " (" ++ Text.join " " operands ++ ")"
  | rootMissing root =>
    "Invalid value for '[ROOT]': Directory " ++ root.quoted ++ " does not exist."
  | rootIsFile root => "Invalid value for '[ROOT]': Directory " ++ root.quoted ++ " is a file."
  | configIsDirectory path =>
    "Invalid value for '--config': File " ++ path.quoted ++ " is a directory."
  | unknownFormat name =>
    "Invalid value for '--format': " ++ name.quoted ++ " is not one of 'text', 'json', 'yaml'."
  | baseNotNumber base =>
    "Invalid value for '--base': " ++ base.quoted ++ " is not a valid float."
  | baseNotPositive => "Invalid value for --base: must be positive"

/-- A command line that is not a command. -/
structure UsageError where
  scope : CommandScope
  problem : UsageProblem
deriving DecidableEq

/-- What is printed about a command line that is not a command. -/
def UsageError.report (e : UsageError) : Text :=
  e.scope.usage ++ "Try '" ++ e.scope.invocation ++ " --help' for help.\n\nError: "
    ++ e.problem.message ++ "\n"

/-! ## Values of options and operands -/

namespace Command

/-- What a text leads to in a file tree: a slash at its end stands for a directory. -/
def nodeAt? (tree : Node) (path : Text) : Option Node :=
  if path = [] then none
  else match tree.find? (Path.parse path) with
    | some (.file bytes) =>
      if Text.endsWith path "/" || Text.endsWith path "/." then none else some (.file bytes)
    | node => node

/-- What is wrong with the directory of a theme. -/
def rootProblem? (tree : Node) (root : Text) : Option UsageProblem :=
  match nodeAt? tree root with
  | none => some (.rootMissing root)
  | some (.file _) => some (.rootIsFile root)
  | some (.directory _) => none

/-- What is wrong with the value of an option. -/
def valueProblem? (tree : Node) (name value : Text) : Option UsageProblem :=
  if name = "--config" then
    match nodeAt? tree value with
    | some (.directory _) => some (.configIsDirectory value)
    | _ => none
  else if name = "--format" then
    if (OutputFormat.ofName? value).isNone then some (.unknownFormat value) else none
  else if name = "--base" then
    if (spelledNumber? value).isNone then some (.baseNotNumber value) else none
  else none

/-- What is wrong with the options: the first problem in the order in which options are given, where
the last value of an option counts. -/
def optionProblem? (tree : Node) (arguments : Arguments) : Option UsageProblem :=
  (arguments.given.map (·.1)).findSome? fun name =>
    (arguments.value? name).bind (valueProblem? tree name)

/-- Fails if there is a problem. -/
def demand (scope : CommandScope) (problem : Option UsageProblem) : Except UsageError Unit :=
  match problem with
  | none => .ok ()
  | some problem => .error ⟨scope, problem⟩

/-- Fails if there are further operands. -/
def demandNoMore (scope : CommandScope) (operands : List Text) : Except UsageError Unit :=
  demand scope (if operands.isEmpty then none else some (.extraOperands operands))

/-- Takes the arguments of a command apart. -/
def readArguments (scope : CommandScope) (options : List KnownOption) (arguments : List Text) :
    Except UsageError Arguments :=
  (Arguments.parse options (scope ≠ .program) arguments).mapError fun e => ⟨scope, .argument e⟩

/-- The configuration file that is given. -/
def configPath? (arguments : Arguments) : Option Path :=
  (arguments.value? "--config").map Path.parse

/-! ## Commands -/

/-- The option that asks for help. -/
def helpOption : KnownOption := ⟨"--help", false⟩

/-- The option that names a configuration file. -/
def configOption : KnownOption := ⟨"--config", true⟩

/-- The options of a scan that take the place of configured ones. -/
def scanOverrides (arguments : Arguments) : List Config.Override :=
  let included := arguments.values "--include"
  let excluded := arguments.values "--exclude"
  (if included.isEmpty then [] else [.included included])
    ++ (if excluded.isEmpty then [] else [.excluded excluded])
    ++ (if arguments.has "--all-selectors" then [.onlyRoot false] else [])

/-- A scan. -/
def parseScan (tree : Node) (arguments : List Text) : Except UsageError Command := do
  let options := [helpOption, configOption, ⟨"--include", true⟩, ⟨"--exclude", true⟩,
    ⟨"--all-selectors", false⟩, ⟨"--format", true⟩]
  let arguments ← readArguments .scan options arguments
  if arguments.has "--help" then return overview
  demand .scan (optionProblem? tree arguments)
  let root := arguments.operands.head?.getD "."
  demand .scan (rootProblem? tree root)
  demandNoMore .scan (arguments.operands.drop 1)
  let format := ((arguments.value? "--format").bind OutputFormat.ofName?).getD .lines
  return scan (Path.parse root) (configPath? arguments) (scanOverrides arguments) format

/-- A description. -/
def parseDescribe (tree : Node) (arguments : List Text) : Except UsageError Command := do
  let arguments ← readArguments .describe [helpOption, configOption] arguments
  if arguments.has "--help" then return overview
  demand .describe (optionProblem? tree arguments)
  match arguments.operands with
  | [] => throw ⟨.describe, .missingOperand "NAME"⟩
  | name :: operands =>
    let root := operands.head?.getD "."
    demand .describe (rootProblem? tree root)
    demandNoMore .describe (operands.drop 1)
    return describe name (Path.parse root) (configPath? arguments)

/-- A conversion. -/
def parseConvert (tree : Node) (arguments : List Text) : Except UsageError Command := do
  let arguments ← readArguments .convert [helpOption, ⟨"--base", true⟩] arguments
  if arguments.has "--help" then return overview
  demand .convert (optionProblem? tree arguments)
  match arguments.operands with
  | [] => throw ⟨.convert, .missingOperand "VALUE"⟩
  | value :: operands =>
    demandNoMore .convert operands
    let base := ((arguments.value? "--base").bind spelledNumber?).getD Units.defaultBase
    if base ≤ 0 then throw ⟨.convert, .baseNotPositive⟩
    return convert value base

/-- The command on a command line, without the name of the program. -/
def parse (tree : Node) (line : List Text) : Except UsageError Command := do
  let arguments ← readArguments .program [helpOption] line
  if arguments.has "--help" then return overview
  match arguments.operands with
  | [] => return overview
  | name :: operands =>
    if name = "scan" then parseScan tree operands
    else if name = "show" then parseDescribe tree operands
    else if name = "convert" then parseConvert tree operands
    else
      let _ ← readArguments .program [helpOption] (name :: operands)
      throw ⟨.program, .unknownCommand name⟩

end Command
end ThemeProps
