/-
  The arguments of a command: options and operands.

  An argument that starts with a hyphen is an option; the value of an option
  stands behind an equals sign or is the next argument. Behind `--` there are
  operands alone.

  * `Arguments.parse` takes arguments apart, given the options that there are;
  * `ArgumentError` is why that may fail.
-/
import ThemeProps.Text.Basic

namespace ThemeProps

/-- An option that a command knows. -/
structure KnownOption where
  /-- The name with its hyphens. -/
  name : Text
  takesValue : Bool

/-- Why arguments cannot be taken apart. -/
inductive ArgumentError where
  | unknownOption (name : Text)
  | missingValue (name : Text)
  | needlessValue (name : Text)
deriving DecidableEq

/-- The arguments of a command, taken apart. -/
structure Arguments where
  /-- The options with their values, in order. -/
  given : List (Text × Text) := []
  operands : List Text := []

namespace Arguments

/-- The argument is an option; a lone hyphen is not. -/
def isOption (argument : Text) : Bool :=
  match argument with
  | '-' :: _ :: _ => true
  | _ => false

/-- The name of an option and the value that stands behind an equals sign. -/
def cutOption (argument : Text) : Text × Option Text :=
  match Text.cutAt "=" argument with
  | some (name, value) => (name, some value)
  | none => (argument, none)

/-- The name of an option that is not known: behind a single hyphen, that is one character. -/
def unknownName (argument : Text) : Text :=
  if Text.startsWith argument "--" then (cutOption argument).1 else argument.take 2

/-- The arguments with a further option in front. -/
def addOption (name value : Text) (arguments : Arguments) : Arguments :=
  { arguments with given := (name, value) :: arguments.given }

/-- The arguments with a further operand in front. -/
def addOperand (operand : Text) (arguments : Arguments) : Arguments :=
  { arguments with operands := operand :: arguments.operands }

/-- Takes arguments apart. If options must not follow operands, all arguments from the first operand
on are operands. -/
def parse (options : List KnownOption) (optionsFollow : Bool) :
    List Text → Except ArgumentError Arguments
  | [] => .ok {}
  | argument :: rest =>
    if argument = "--" then .ok { operands := rest }
    else if isOption argument then
      let (name, attached) := cutOption argument
      match options.find? (·.name = name) with
      | none => .error (.unknownOption (unknownName argument))
      | some option =>
        match option.takesValue, attached, rest with
        | true, some value, rest => (parse options optionsFollow rest).map (addOption name value)
        | true, none, value :: rest => (parse options optionsFollow rest).map (addOption name value)
        | true, none, [] => .error (.missingValue name)
        | false, some _, _ => .error (.needlessValue name)
        | false, none, rest => (parse options optionsFollow rest).map (addOption name [])
    else if optionsFollow then (parse options optionsFollow rest).map (addOperand argument)
    else .ok { operands := argument :: rest }

/-- An option is given. -/
def has (arguments : Arguments) (name : Text) : Bool := arguments.given.any (·.1 = name)

/-- The values of an option, in order. -/
def values (arguments : Arguments) (name : Text) : List Text :=
  (arguments.given.filter (·.1 = name)).map (·.2)

/-- The value of an option; the last one counts. -/
def value? (arguments : Arguments) (name : Text) : Option Text :=
  (arguments.values name).getLast?

end Arguments
end ThemeProps
