import ShellExpansion.Command.Options
import ShellExpansion.Template.Display

/-!
# The log

What the command writes about its own work, a line per record: the events of the classes that were
asked for, and warnings.
-/

namespace ShellExpansion.Command

/-- The weight of a record. -/
inductive Level where
  | debug | warn
  deriving DecidableEq, Repr

/-- A record of the log. -/
structure Record where
  /-- Its weight. -/
  level : Level
  /-- What it says. -/
  message : Text
  deriving DecidableEq, Repr

/-- The name of a level, in five columns, possibly in colour. -/
def Level.label (colour : Bool) : Level → Text
  | .debug => if colour then "\x1b[34mDEBUG\x1b[0m".toList else "DEBUG".toList
  | .warn => if colour then "\x1b[33m WARN\x1b[0m".toList else " WARN".toList

/-- A character of a message: controls that a terminal would act upon are written out. -/
def showControl (c : Char) : Text :=
  let n := c.toNat
  if n = 0x1B || n = 0x07 || n = 0x08 || n = 0x0C || n = 0x7F then
    "\\x".toList ++ [Nat.digitChar (n / 16), Nat.digitChar (n % 16)]
  else if 0x80 ≤ n && n ≤ 0x9F then "\\u\x7b".toList ++ Nat.toDigits 16 n ++ ['}']
  else [c]

/-- A record as a line. -/
def Record.line (colour : Bool) (record : Record) : Text :=
  record.level.label colour ++ [' '] ++ record.message.flatMap showControl ++ ['\n']

/-- Whether the log is written in colour: unless the environment has a variable against it that is
not empty. A value that is not text does not count. -/
def wantsColour (env : Environment) : Bool :=
  match (env.bytes? "NO_COLOR".toList).bind Utf8.decode? with
  | none => true
  | some value => value.isEmpty

/-! ## Records of events -/

/-- A text in single quotes. -/
def singleQuoted (s : Text) : Text := ['\''] ++ s ++ ['\'']

/-- What is logged about the reading of a template. -/
def parseMessages (input : Text) (result : Except Fault Node) : List Text :=
  ("parsing ".toList ++ singleQuoted input) ::
    match result with
    | .ok root => ["  => ".toList ++ root.display]
    | .error fault =>
      ["parse error at offset ".toList ++ Integer.decimal (fault.offset input) ++ ": ".toList
          ++ fault.error.message,
        "failed to parse ".toList ++ singleQuoted input ++ ": ".toList ++ fault.error.message]

/-- The class of an event. -/
def eventClass : Event → EventClass
  | .verbatim .. | .expanded .. => .expand
  | .tried _ => .pattern

/-- What is logged about an event of a run. -/
def eventMessages : Event → List Text
  | .verbatim source text =>
    [source ++ " => ".toList ++ singleQuoted text ++ " (verbatim)".toList]
  | .expanded source value => [source ++ " => ".toList ++ singleQuoted value]
  | .tried trial =>
    List.replicate trial.tries
      ("pattern: 'Pattern \x7b pattern: ".toList ++ Quoted.quote trial.pattern
        ++ " \x7d' => regex: ".toList ++ singleQuoted trial.regex)

/-- The records of the classes that are asked for: those of the reading of a template, and those of
the run that followed, whose events come latest first. -/
def records (classes : List EventClass) (input : Text) (result : Except Fault Node)
    (events : List Event) : List Record :=
  let parse := if EventClass.parse ∈ classes then parseMessages input result else []
  let run := (events.reverse.filter fun event => eventClass event ∈ classes).flatMap eventMessages
  (parse ++ run).map fun message => ⟨.debug, message⟩

end ShellExpansion.Command
