/-
# The command line

Reads the settings from the environment and the file of the command, and prints what the command
prints, or what is told of its failure.
-/
import CloudCodec.Command

namespace CloudCodec.Command

/-- The reason that the system gives for not reading a file. -/
def reason : IO.Error → String
  | .noFileOrDirectory .. => "No such file or directory (os error 2)"
  | .permissionDenied .. => "Permission denied (os error 13)"
  | .inappropriateType .. => "Is a directory (os error 21)"
  | e => e.toString

/-- The contents of a file, or the reason why they cannot be read. -/
def readContents (path : String) : IO (Except String (List UInt8)) := do
  try
    return .ok (← IO.FS.readBinFile path).toList
  catch e =>
    return .error (reason e)

end CloudCodec.Command

open CloudCodec

/-- Runs the command of the arguments; a failure is told on the error stream, with exit code 1. -/
def main (arguments : List String) : IO UInt32 := do
  let trim ← IO.getEnv Decode.Settings.trimVariable
  let depth ← IO.getEnv Decode.Settings.depthVariable
  let settings := Decode.Settings.ofEnvironment fun name =>
    if name = Decode.Settings.trimVariable then trim
    else if name = Decode.Settings.depthVariable then depth
    else none
  let outcome ← match Command.parse arguments with
    | .error failure => pure (.error failure)
    | .ok command => do
      let contents ← Command.readContents command.path
      pure (command.run settings contents)
  match outcome with
  | .ok text =>
    IO.print text
    return 0
  | .error failure =>
    IO.eprint failure.report
    return 1
