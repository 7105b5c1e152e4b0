import DoctestSelection.Program

/-!
# Entry point

Reads the surroundings of the program, runs it, and writes what it gives.

## Main definitions

* `main` — the entry point.
-/

namespace DoctestSelection

/-- Why a file cannot be read, in the words of the system. -/
def describeReadError : IO.Error → String
  | .noFileOrDirectory _ _ _ => "No such file or directory (os error 2)"
  | .permissionDenied _ _ _ => "Permission denied (os error 13)"
  | .inappropriateType none _ _ => "Is a directory (os error 21)"
  | .inappropriateType (some _) _ _ => "Not a directory (os error 20)"
  | e => toString e

/-- The bytes of a file, or why it cannot be read. -/
def readFileBytes (path : String) : IO (Except String ByteArray) := do
  try return .ok (← IO.FS.readBinFile path)
  catch e => return .error (describeReadError e)

/-- What the program sees of its surroundings, as far as a command line makes it look there. -/
def surroundings (args : List String) : IO World := do
  let expression ← IO.getEnv Settings.filterVariable
  let level ← IO.getEnv Settings.levelVariable
  let format ← IO.getEnv Settings.formatVariable
  let path? := Program.treePath? args
  let standardInput ←
    if path?.any isStandardInput then (← IO.getStdin).readBinToEnd
    else pure ByteArray.empty
  let file ←
    match path? with
    | some path => readFileBytes path
    | none => pure (.error "")
  return {
    environment := fun name =>
      if name = Settings.filterVariable then expression
      else if name = Settings.levelVariable then level
      else if name = Settings.formatVariable then format
      else none
    fileContent := fun _ => file
    standardInput }

end DoctestSelection

/-- Runs the program. -/
def main (args : List String) : IO UInt32 := do
  let world ← DoctestSelection.surroundings args
  let result := @DoctestSelection.Program.run .bySize world args
  (← IO.getStdout).putStr result.stdout
  (← IO.getStderr).putStr result.stderr
  return UInt32.ofNat result.status
