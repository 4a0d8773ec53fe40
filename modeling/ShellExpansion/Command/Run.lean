import ShellExpansion.Command.Help
import ShellExpansion.Command.Lines

/-!
# The command

Everything that the command does, as a function of everything that it sees: its arguments, the
environment, the files, and the input.
-/

namespace ShellExpansion.Command

open Utf8

/-- What the command sees. -/
structure Invocation where
  /-- The arguments, without the name of the command. -/
  args : List Bytes
  /-- The variables. -/
  env : Environment
  /-- The files. -/
  files : Files
  /-- The input. -/
  input : Bytes

/-- What the command leaves behind. -/
structure Result where
  /-- Its exit code. -/
  exit : Nat := 0
  /-- What it wrote to the standard output. -/
  output : Text := []
  /-- What it wrote to the standard error. -/
  errors : Text := []
  deriving DecidableEq, Repr

/-- A message in front of which stands that it is an error. -/
def errorMessage (message : Text) : Text := "error: ".toList ++ message ++ ['\n']

/-- What is written about an error in the options. -/
def optionReport (error : OptionError) : Text :=
  errorMessage error.message ++ ['\n'] ++ usage ++ "\n\n".toList
    ++ "For more information, try '--help'.\n".toList

/-- The warning about settings that are ignored. -/
def ignoredWarning (path : Bytes) (fault : SettingsFault) : Record :=
  ⟨.warn, repair path ++ ": ".toList ++ fault.message ++ "; using default configuration".toList⟩

/-- The settings of a run, with the warnings about them. -/
def settingsFor (options : Options) (env : Environment) (files : Files) :
    Except Failure (FileSettings × List Record) :=
  match loadSettings options env files with
  | .settings file => .ok (file, [])
  | .ignored path fault => .ok ({}, [ignoredWarning path fault])
  | .failed path fault => .error (.settings path fault)

/-- Expands the input as the options ask. -/
def expandInput [Engine] (options : Options) (invocation : Invocation) : Result :=
  match settingsFor options invocation.env invocation.files with
  | .error failure => { exit := 1, errors := errorMessage failure.message }
  | .ok (file, warnings) =>
    let written := expandLines invocation.env (isStrict options file) options.events
      (splitLines invocation.input)
    let colour := wantsColour invocation.env
    let log := (warnings ++ written.log).flatMap (Record.line colour)
    match written.failure with
    | none => { output := written.output, errors := log }
    | some failure =>
      { exit := 1, output := written.output, errors := log ++ errorMessage failure.message }

/-- The path of the only file that a run looks at. -/
def fileOf? (args : List Bytes) (env : Environment) : Option Bytes :=
  match readAction args env with
  | .ok (.expand options) => (settingsFile? options env).map (·.1)
  | _ => none

/-- Runs the command. -/
def run [Engine] (invocation : Invocation) : Result :=
  match readAction invocation.args invocation.env with
  | .error error => { exit := 1, errors := optionReport error }
  | .ok (.help true) => { output := longHelp invocation.env }
  | .ok (.help false) => { output := shortHelp invocation.env }
  | .ok .version => { output := versionText }
  | .ok (.expand options) => expandInput options invocation

/-- A run depends on no other file than the one whose path `fileOf?` gives. -/
theorem run_congr_files [Engine] (args : List Bytes) (env : Environment) (input : Bytes)
    (f g : Files) (h : ∀ path, fileOf? args env = some path → f path = g path) :
    run ⟨args, env, f, input⟩ = run ⟨args, env, g, input⟩ := by
  unfold run
  unfold fileOf? at h
  rcases hr : readAction args env with e | action
  · simp
  · rw [hr] at h
    cases action with
    | help long => cases long <;> rfl
    | version => rfl
    | expand options =>
      have hl : loadSettings options env f = loadSettings options env g := by
        unfold loadSettings
        cases hs : settingsFile? options env with
        | none => rfl
        | some place =>
          have hp := h place.1 (by simp [hs])
          simp [isMissing, FileSettings.load, hp]
      simp [expandInput, settingsFor, hl]

end ShellExpansion.Command
