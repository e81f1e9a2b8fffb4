import CodeChart.Text.Quoted

/-!
# Options of a command line

An option is given by its long name or by a letter.  Its value is the next argument, or stands
after an equals sign or directly after the letter; letters of options without values can be
written together.  Two dashes end the options.

* `OptionSpec`     an option that a command knows;
* `readOption`     what an argument that is an option says;
* `readArguments`  the options of a command line in order, and its other arguments.
-/

namespace CodeChart.Cli

/-! ## what can be wrong with a command line -/

inductive UsageError where
  | unknownOption (option : Text)
  | missingValue (option : Text)
  | unexpectedValue (option : Text)
  | badChoice (value : Text)
  | badPath (name : Text)
  | missingArgument (name : Text)
  | extraArgument (value : Text)
  | missingCommand
  | unknownCommand (name : Text)
  deriving DecidableEq, Repr

def UsageError.message : UsageError → Text
  | .unknownOption o => "No such option: ".toList ++ o
  | .missingValue o => "Option ".toList ++ showQuoted o ++ " requires an argument.".toList
  | .unexpectedValue o => "Option ".toList ++ showQuoted o ++ " does not take a value.".toList
  | .badChoice v => showQuoted v ++ " is not one of the choices.".toList
  | .badPath n => "Path ".toList ++ showQuoted n ++ " cannot be used.".toList
  | .missingArgument n => "Missing argument ".toList ++ showQuoted n ++ ".".toList
  | .extraArgument v => "Got unexpected extra argument (".toList ++ v ++ ")".toList
  | .missingCommand => "Missing command.".toList
  | .unknownCommand n => "No such command ".toList ++ showQuoted n ++ ".".toList

/-! ## one option -/

/-- `long` has its two dashes -/
structure OptionSpec (κ : Type) where
  key : κ
  long : Text
  short : Option Char
  takesValue : Bool

/-- the options that are complete, and one whose value is the next argument -/
structure Reading (κ : Type) where
  given : List (κ × Text)
  waiting : Option (OptionSpec κ)

variable {κ : Type}

/-- letters that are written together; the first that takes a value takes what is left -/
def readLetters (specs : List (OptionSpec κ)) : Text → Except UsageError (Reading κ)
  | [] => .ok ⟨[], none⟩
  | c :: rest =>
    match specs.find? fun s => s.short = some c with
    | none => .error (.unknownOption ['-', c])
    | some s =>
      if s.takesValue then
        if rest = [] then .ok ⟨[], some s⟩ else .ok ⟨[(s.key, rest)], none⟩
      else
        match readLetters specs rest with
        | .error e => .error e
        | .ok r => .ok ⟨(s.key, []) :: r.given, r.waiting⟩

def splitValue (t : Text) : Text × Option Text :=
  match t.dropWhile (· ≠ '=') with
  | [] => (t, none)
  | _ :: value => (t.takeWhile (· ≠ '='), some value)

def readOption (specs : List (OptionSpec κ)) (t : Text) : Except UsageError (Reading κ) :=
  let (name, value) := splitValue t
  match specs.find? fun s => s.long = name with
  | some s =>
    match s.takesValue, value with
    | true, some v => .ok ⟨[(s.key, v)], none⟩
    | true, none => .ok ⟨[], some s⟩
    | false, some _ => .error (.unexpectedValue name)
    | false, none => .ok ⟨[(s.key, [])], none⟩
  | none =>
    if "--".toList.isPrefixOf t then .error (.unknownOption name) else readLetters specs t.tail

/-! ## a command line -/

structure Arguments (κ : Type) where
  options : List (κ × Text)
  plain : List Text

/-- more than a dash, and a dash first -/
def isOption (t : Text) : Bool := t.head? == some '-' && t.length > 1

/-- `mixed` says that options may stand after other arguments -/
def readArguments (specs : List (OptionSpec κ)) (mixed : Bool) (waiting : Option (OptionSpec κ)) :
    List Text → Except UsageError (Arguments κ)
  | [] =>
    match waiting with
    | none => .ok ⟨[], []⟩
    | some s => .error (.missingValue s.long)
  | t :: rest =>
    match waiting with
    | some s =>
      match readArguments specs mixed none rest with
      | .error e => .error e
      | .ok a => .ok ⟨(s.key, t) :: a.options, a.plain⟩
    | none =>
      if t = ['-', '-'] then .ok ⟨[], rest⟩
      else if isOption t then
        match readOption specs t with
        | .error e => .error e
        | .ok r =>
          match readArguments specs mixed r.waiting rest with
          | .error e => .error e
          | .ok a => .ok ⟨r.given ++ a.options, a.plain⟩
      else if mixed then
        match readArguments specs mixed none rest with
        | .error e => .error e
        | .ok a => .ok ⟨a.options, t :: a.plain⟩
      else .ok ⟨[], t :: rest⟩

variable [DecidableEq κ]

def Arguments.has (a : Arguments κ) (key : κ) : Bool := a.options.any fun o => o.1 = key

def Arguments.values (a : Arguments κ) (key : κ) : List Text :=
  (a.options.filter fun o => o.1 = key).map Prod.snd

def Arguments.value? (a : Arguments κ) (key : κ) : Option Text := (a.values key).getLast?

end CodeChart.Cli
