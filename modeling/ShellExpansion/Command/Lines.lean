import ShellExpansion.Command.Log
import ShellExpansion.Command.Settings

/-!
# Line by line

The input is expanded one line at a time, each line on its own, up to the first that fails. A line
ends at a newline, and a carriage return before the newline belongs to the line end. The last line
need not have one.
-/

namespace ShellExpansion.Command

open Utf8

/-- The lines of the input. -/
def splitLines : Bytes → List Bytes
  | [] => []
  | b :: s =>
    if b = byte '\n' then [] :: splitLines s
    else if b = byte '\r' ∧ s.head? = some (byte '\n') then splitLines s
    else
      match splitLines s with
      | [] => [[b]]
      | line :: rest => (b :: line) :: rest

/-- Why the command fails. -/
inductive Failure where
  /-- A line has no expansion. -/
  | expansion (error : ExpansionError)
  /-- A line is not text. -/
  | notText
  /-- The settings that were asked for are broken. -/
  | settings (path : Bytes) (fault : SettingsFault)
  deriving DecidableEq, Repr

/-- The wording of a failure. -/
def Failure.message : Failure → Text
  | expansion error => error.message
  | notText => "i/o error: ".toList ++ notTextMessage
  | settings path fault => repair path ++ ": ".toList ++ fault.message

/-- The expansion of one line, and the records of the classes that are asked for. -/
def expandLine [Engine] (env : Environment) (strict : Bool) (classes : List EventClass)
    (line : Bytes) : Except Failure Text × List Record :=
  match decode? line with
  | none => (.error .notText, [])
  | some input =>
    match Template.parse Template.defaultLimit input with
    | .error fault =>
      (.error (.expansion (.parse fault.error input)), records classes input (.error fault) [])
    | .ok root =>
      let outcome := Template.execute (Template.pureMapping (env.resolve strict)) root ()
      (outcome.1.mapError .expansion, records classes input (.ok root) outcome.2.events)

/-- What has been written and logged, and why it ended, if it failed. -/
structure Written where
  /-- The output. -/
  output : Text := []
  /-- The log. -/
  log : List Record := []
  /-- The failure of the first line that fails. -/
  failure : Option Failure := none

/-- Expands lines up to the first that fails; every expansion ends with a newline. -/
def expandLines [Engine] (env : Environment) (strict : Bool) (classes : List EventClass) :
    List Bytes → Written
  | [] => {}
  | line :: rest =>
    match expandLine env strict classes line with
    | (.error failure, log) => { log, failure := some failure }
    | (.ok text, log) =>
      let written := expandLines env strict classes rest
      { written with output := text ++ ['\n'] ++ written.output, log := log ++ written.log }

end ShellExpansion.Command
