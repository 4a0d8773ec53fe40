import ShellExpansion.Command.Run
import ShellExpansion.Glob.StandardEngine

/-!
# The program

Gathers what the command sees, runs it, and writes what it leaves behind. Arguments, environment and
input are taken as bytes; of the files only the one that the command looks at is read.
-/

namespace ShellExpansion.Command

open Utf8

attribute [local instance] Engine.standard

/-- The environment that the system hands to the process: entries that end in NUL, each a name, an
equals sign and a value. -/
def readEnvironment : IO Environment := do
  let content ← IO.FS.readBinFile "/proc/self/environ"
  let entries := (content.toList.splitOn 0).filter (· ≠ [])
  return entries.map fun entry =>
    (entry.takeWhile (· ≠ byte '='), (entry.dropWhile (· ≠ byte '=')).drop 1)

/-- The number of a fault, which the system may hand out with either sign. -/
def numberOf (code : UInt32) : Nat := code.toInt32.toInt.natAbs

/-- What the system says about a file that cannot be read. -/
def faultOf : IO.Error → FileFault
  | .noFileOrDirectory .. => .notFound
  | .permissionDenied .. => .other "Permission denied".toList 13
  | .inappropriateType _ code detail =>
    if numberOf code = 20 then .notDirectory
    else if numberOf code = 21 then .isDirectory
    else .other detail.toList (numberOf code)
  | .otherError code detail => .other detail.toList (numberOf code)
  | error => .other (toString error).toList 0

/-- The bytes of a file. A path that is not text leads nowhere. -/
def readFile (path : Bytes) : IO (Except FileFault Bytes) := do
  match decode? path with
  | none => return .error .notFound
  | some path =>
    try
      let content ← IO.FS.readBinFile (String.ofList path)
      return .ok content.toList
    catch error => return .error (faultOf error)

/-- Runs the command on what the process was given, and gives its exit code. -/
def runProcess (args : List String) : IO UInt32 := do
  let args := args.map fun arg => encode arg.toList
  let env ← readEnvironment
  let content ← match fileOf? args env with
    | none => pure (.error .notFound)
    | some path => readFile path
  let input ← (← IO.getStdin).readBinToEnd
  let result := run ⟨args, env, fun _ => content, input.toList⟩
  IO.print (String.ofList result.output)
  IO.eprint (String.ofList result.errors)
  return .ofNat result.exit

end ShellExpansion.Command

/-- The program. -/
def main (args : List String) : IO UInt32 := ShellExpansion.Command.runProcess args
