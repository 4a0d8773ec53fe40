import ShellExpansion.Environment

/-!
# Options of the command

The arguments are read from left to right. An option that takes a value takes the next argument,
unless that one is an option too; the value is looked at when the next option is read, so that an
argument nobody knows is reported before it. The environment may set the strict option, which counts
where the arguments do not.
-/

namespace ShellExpansion.Command

open Utf8

/-- The classes of events that can be logged. -/
inductive EventClass where
  | expand | parse | pattern
  deriving DecidableEq, Repr

namespace EventClass

/-- All classes, in the order in which they are listed. -/
def all : List EventClass := [expand, parse, pattern]

/-- The name of a class. -/
def name : EventClass → Text
  | expand => "expand".toList
  | parse => "parse".toList
  | pattern => "pattern".toList

end EventClass

/-- What the arguments and the environment ask for. -/
structure Options where
  /-- Unset variables are unset, not empty. -/
  strict : Bool := false
  /-- The settings file to read. -/
  configFile : Option Bytes := none
  /-- No settings file is read. -/
  noConfig : Bool := false
  /-- The events to log. -/
  events : List EventClass := []
  deriving DecidableEq, Repr

/-- What the command is to do. -/
inductive Action where
  /-- Expand the input. -/
  | expand (options : Options)
  /-- Print the help, in its short or its long form. -/
  | help (long : Bool)
  /-- Print the version. -/
  | version
  deriving DecidableEq, Repr

/-- The options that may be given. -/
inductive Name where
  | strict | config | noConfig | debug | help | version
  deriving DecidableEq, Repr

/-- An option as messages show it. -/
def Name.display : Name → Text
  | .strict => "--strict".toList
  | .config => "--config <FILE>".toList
  | .noConfig => "--no-config".toList
  | .debug => "--debug <EVENT>".toList
  | .help => "--help".toList
  | .version => "--version".toList

/-- The option with a long name. -/
def Name.ofLong? (name : Text) : Option Name :=
  [("strict", strict), ("config", config), ("no-config", noConfig), ("debug", debug),
    ("log-enable", debug), ("help", help), ("version", version)].lookup (String.ofList name)

/-- Whether an option takes a value. -/
def Name.takesValue : Name → Bool
  | config | debug => true
  | _ => false

/-- What can be wrong with the options. -/
inductive OptionError where
  /-- An argument that means nothing. -/
  | unexpectedArgument (argument : Text)
  /-- A value for an option that takes none. -/
  | unexpectedValue (value : Text) (option : Name)
  /-- An option that may be given once. -/
  | repeated (option : Name)
  /-- Two options that exclude each other. -/
  | conflict (first second : Name)
  /-- No value for an option that takes one of these. -/
  | missingValue (option : Name) (choices : List Text)
  /-- A value that is none of these. -/
  | invalidValue (value : Text) (option : Name) (choices : List Text)
  deriving DecidableEq, Repr

namespace OptionError

/-- A list of the values that an option takes. -/
def listChoices : List Text → Text
  | [] => []
  | choices => "\n  [possible values: ".toList ++ (", ".toList).intercalate choices ++ [']']

/-- The wording of an error. -/
def message : OptionError → Text
  | unexpectedArgument argument => "unexpected argument '".toList ++ argument ++ "' found".toList
  | unexpectedValue value option =>
    "unexpected value '".toList ++ value ++ "' for '".toList ++ option.display
      ++ "' found; no more were expected".toList
  | repeated option =>
    "the argument '".toList ++ option.display ++ "' cannot be used multiple times".toList
  | conflict first second =>
    "the argument '".toList ++ first.display ++ "' cannot be used with '".toList
      ++ second.display ++ ['\'']
  | missingValue option choices =>
    "a value is required for '".toList ++ option.display ++ "' but none was supplied".toList
      ++ listChoices choices
  | invalidValue value option choices =>
    "invalid value '".toList ++ value ++ "' for '".toList ++ option.display ++ ['\'']
      ++ listChoices choices

end OptionError

/-- The values that an option takes, where they can be listed. -/
def Name.choices : Name → List Text
  | .debug => EventClass.all.map EventClass.name
  | .strict => ["true".toList, "false".toList]
  | _ => []

/-! ## Reading the arguments -/

/-- How far the arguments have been read. -/
structure Reader where
  /-- The options that have been read, in order. -/
  given : List Name := []
  /-- What they amount to. -/
  options : Options := {}
  /-- An option whose value has not been looked at, with the value if it has been read. -/
  pending : Option (Name × Option Bytes) := none

namespace Reader

/-- Gives an option its value. -/
def giveValue (reader : Reader) (name : Name) (value : Bytes) : Except OptionError Reader :=
  match name with
  | .debug =>
    match EventClass.all.find? fun cls => encode cls.name = value with
    | some cls =>
      .ok { reader with
        given := reader.given ++ [.debug],
        options := { reader.options with events := reader.options.events ++ [cls] } }
    | none =>
      if value = [] then .error (.missingValue .debug Name.debug.choices)
      else .error (.invalidValue (repair value) .debug Name.debug.choices)
  | name =>
    if name ∈ reader.given then .error (.repeated name)
    else if value = [] then .error (.missingValue name name.choices)
    else
      .ok { reader with
        given := reader.given ++ [name],
        options := { reader.options with configFile := some value } }

/-- Looks at the value of the option before. -/
def settle (reader : Reader) : Except OptionError Reader :=
  match reader.pending with
  | none => .ok reader
  | some (name, none) => .error (.missingValue name name.choices)
  | some (name, some value) => ({ reader with pending := none } : Reader).giveValue name value

/-- Sets an option without a value. -/
def setFlag (reader : Reader) (name : Name) : Except OptionError Reader :=
  if name ∈ reader.given then .error (.repeated name)
  else
    let options :=
      if name = .strict then { reader.options with strict := true }
      else { reader.options with noConfig := true }
    .ok { reader with given := reader.given ++ [name], options }

end Reader

/-- What an argument asks for at once, or how far the arguments have been read. -/
abbrev Step := Action ⊕ Reader

/-- Takes an option that was recognised; `long` says which of its names was used. -/
def takeOption (reader : Reader) (name : Name) (long : Bool) (value : Option Bytes) :
    Except OptionError Step :=
  match name.takesValue, value with
  | false, some value => .error (.unexpectedValue (repair value) name)
  | true, some value => do
    let reader ← reader.settle
    return .inr (← reader.giveValue name value)
  | true, none => do
    let reader ← reader.settle
    return .inr { reader with pending := some (name, none) }
  | false, none => do
    let reader ← reader.settle
    match name with
    | .help => return .inl (.help long)
    | .version => return .inl .version
    | name => return .inr (← reader.setFlag name)

/-- The byte of an ASCII character. -/
def byte (c : Char) : UInt8 := .ofNat c.toNat

/-- Takes the letters of an argument with one hyphen. Letters are known for help and version only, so
that the first letter decides. -/
def takeLetters (reader : Reader) (letters : Bytes) : Except OptionError Step :=
  match parts letters with
  | some 'h' :: _ => takeOption reader .help false none
  | some 'V' :: _ => takeOption reader .version false none
  | some c :: _ => .error (.unexpectedArgument ['-', c])
  | _ => .error (.unexpectedArgument ('-' :: repair letters))

/-- Takes an argument with two hyphens. -/
def takeLong (reader : Reader) (body : Bytes) : Except OptionError Step :=
  let name := body.takeWhile (· != byte '=')
  let value := match body.dropWhile (· != byte '=') with
    | [] => none
    | _ :: value => some value
  match (decode? name).bind Name.ofLong? with
  | some option => takeOption reader option true value
  | none => .error (.unexpectedArgument ("--".toList ++ repair name))

/-- Takes an argument that is not an option: the value of the option before, if that lacks one. -/
def takeOther (reader : Reader) (argument : Bytes) : Except OptionError Step :=
  match reader.pending with
  | some (name, none) => .ok (.inr { reader with pending := some (name, some argument) })
  | _ => .error (.unexpectedArgument (repair argument))

/-- Takes one argument. -/
def takeArgument (reader : Reader) (argument : Bytes) : Except OptionError Step :=
  match argument with
  | a :: b :: rest =>
    if a = byte '-' && b = byte '-' then takeLong reader rest
    else if a = byte '-' then takeLetters reader (b :: rest)
    else takeOther reader argument
  | argument => takeOther reader argument

/-- Takes all arguments. Two hyphens on their own end the options. -/
def takeArguments (reader : Reader) : List Bytes → Except OptionError Step
  | [] => return .inr (← reader.settle)
  | argument :: rest =>
    if argument = [byte '-', byte '-'] then
      match rest with
      | [] => return .inr (← reader.settle)
      | other :: _ => .error (.unexpectedArgument (repair other))
    else
      match takeArgument reader argument with
      | .error e => .error e
      | .ok (.inl action) => .ok (.inl action)
      | .ok (.inr reader) => takeArguments reader rest

/-- The variable that sets the strict option. -/
def strictVariable : Text := "ENVSUBST_STRICT".toList

/-- Lets the environment set the strict option. -/
def takeVariable (env : Environment) (reader : Reader) : Except OptionError Reader :=
  if .strict ∈ reader.given then .ok reader
  else
    match env.bytes? strictVariable with
    | none => .ok reader
    | some [] => .error (.missingValue .strict Name.strict.choices)
    | some value =>
      if value = encode "true".toList then
        .ok { reader with options := { reader.options with strict := true } }
      else if value = encode "false".toList then .ok reader
      else .error (.invalidValue (repair value) .strict Name.strict.choices)

/-- Refuses two options that exclude each other, naming the one that came first. -/
def checkConflicts (reader : Reader) : Except OptionError Options :=
  match reader.given.filter fun name => name = .config || name = .noConfig with
  | first :: second :: _ => .error (.conflict first second)
  | _ => .ok reader.options

/-- What the arguments and the environment ask for. -/
def readAction (args : List Bytes) (env : Environment) : Except OptionError Action := do
  match ← takeArguments {} args with
  | .inl action => return action
  | .inr reader => return .expand (← checkConflicts (← takeVariable env reader))

end ShellExpansion.Command
