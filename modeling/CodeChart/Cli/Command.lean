import CodeChart.Cli.Options

/-!
# Commands

A command line names a command, with options of the program before it and options of the command
behind it.  Nothing is said here about the values of the options.

* `Command`         one of the commands with its arguments, or a word about the program itself;
* `Command.parse`   the command of a command line.
-/

namespace CodeChart.Cli

/-! ## options -/

inductive MainOption where
  | verbose
  | version
  | help
  deriving DecidableEq, Repr

def mainOptions : List (OptionSpec MainOption) := [
  ⟨.verbose, "--verbose".toList, some 'v', false⟩,
  ⟨.version, "--version".toList, none, false⟩,
  ⟨.help, "--help".toList, some 'h', false⟩]

inductive CommandOption where
  | output
  | format
  | direction
  | clickBindings
  | picture
  | folder
  | ignore
  | help
  deriving DecidableEq, Repr

def helpOption : OptionSpec CommandOption := ⟨.help, "--help".toList, none, false⟩

def outputOptions : List (OptionSpec CommandOption) := [
  ⟨.output, "--output".toList, some 'o', true⟩,
  ⟨.format, "--format".toList, none, true⟩]

def flowchartOptions : List (OptionSpec CommandOption) := outputOptions ++ [
  ⟨.direction, "--direction".toList, none, true⟩,
  ⟨.clickBindings, "--click-bindings".toList, none, false⟩,
  ⟨.picture, "--png".toList, none, false⟩,
  helpOption]

def depsOptions : List (OptionSpec CommandOption) := outputOptions ++ [
  ⟨.folder, "--folder".toList, some 'f', true⟩,
  ⟨.ignore, "--ignore".toList, none, true⟩,
  helpOption]

/-! ## commands -/

inductive Command where
  | version
  | help
  | flowchart (a : Arguments CommandOption)
  | deps (a : Arguments CommandOption)
  | folders (a : Arguments CommandOption)

/-- the options that a command knows, and the command that its arguments make -/
structure CommandSpec where
  options : List (OptionSpec CommandOption)
  make : Arguments CommandOption → Command

def commands : List (Text × CommandSpec) := [
  ("flowchart".toList, ⟨flowchartOptions, .flowchart⟩),
  ("deps".toList, ⟨depsOptions, .deps⟩),
  ("folders".toList, ⟨[helpOption], .folders⟩)]

/-- a command whose help is asked for does nothing else -/
def CommandSpec.parse (spec : CommandSpec) (args : List Text) : Except UsageError Command :=
  match readArguments spec.options true none args with
  | .error e => .error e
  | .ok a => .ok (if a.has .help then .help else spec.make a)

/-- the first word about the program itself among some options -/
def aboutProgram (options : List (MainOption × Text)) : Option Command :=
  options.findSome? fun o =>
    match o.1 with
    | .version => some .version
    | .help => some .help
    | .verbose => none

/-- an option in the place of a command is read as one more option of the program -/
def unknownCommand (name : Text) (args : List Text) : Except UsageError Command :=
  if name.head? = some '-' then
    match readArguments mainOptions false none args with
    | .error e => .error e
    | .ok a =>
      match aboutProgram a.options with
      | some c => .ok c
      | none => .error (.unknownCommand name)
  else .error (.unknownCommand name)

def Command.parse (args : List Text) : Except UsageError Command :=
  match readArguments mainOptions false none args with
  | .error e => .error e
  | .ok a =>
    match aboutProgram a.options, a.plain with
    | some c, _ => .ok c
    | none, [] => .error .missingCommand
    | none, name :: rest =>
      match commands.lookup name with
      | some spec => spec.parse rest
      | none => unknownCommand name (name :: rest)

/-- more is told about the run -/
def isVerbose (args : List Text) : Bool :=
  match readArguments mainOptions false none args with
  | .error _ => false
  | .ok a => a.has .verbose

end CodeChart.Cli
