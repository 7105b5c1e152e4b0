import DoctestSelection.CommandLine
import DoctestSelection.Output

/-!
# The program

What the program writes and how it exits follows from its arguments, its environment and what is at
the place of its test tree.

## Main definitions

* `World` — what the program sees of its surroundings.
* `Exit` — what the program writes and how it exits.
* `Program.run` — the program.
-/

namespace DoctestSelection

/-- What the program sees of its surroundings. -/
structure World where
  environment : String → Option String
  /-- The bytes of a file, or why it cannot be read. -/
  fileContent : String → Except String ByteArray
  /-- The bytes of the standard input. -/
  standardInput : ByteArray

/-- What the program writes and how it exits. -/
structure Exit where
  status : Nat
  stdout : String := ""
  stderr : String := ""
  deriving DecidableEq, Repr, Inhabited

namespace Program

variable [PatternEngine]

/-- The name and the version of the program. -/
def versionLine : String := "docsel 0.1.0"

/-- The exit status after a usage error. -/
def usageStatus : Nat := 2

/-- Where the test tree at a path comes from. -/
def treeSource (world : World) (path : String) : TreeSource :=
  if isStandardInput path then .standardInput world.standardInput
  else .file path (world.fileContent path)

/-- What a command finds out. -/
def execute (world : World) (settings : Settings) : CommandRequest → Except Failure Report
  | .parse => Command.parse settings
  | .select tree name? => Command.select settings (treeSource world tree) name?
  | .run tree name? => Command.run settings (treeSource world tree) name?

/-- Runs a command, which writes what it finds out, and tells whether no example failed. -/
def perform (world : World) (settings : Settings) : CommandRequest → Writing Bool
  | .parse => do
    Command.writeParse settings
    return true
  | .select tree name? => do
    Command.writeSelect settings (treeSource world tree) name?
    return true
  | .run tree name? => Command.writeRun settings (treeSource world tree) name?

/-- How a failure is given after something has been written: in JSON on the standard output, or in
plain words on the standard error. -/
def fail (e : Failure) (written : String) : OutputFormat → Exit
  | .json => { status := e.code.number, stdout := written ++ e.render .json }
  | .text => { status := e.code.number, stdout := written, stderr := e.render .text }

/-- Settles the settings and runs a command.  Settings that cannot be settled are a failure that is
given in the default format. -/
def invoke (world : World) (invocation : Invocation) : Exit :=
  match Settings.resolve world.environment invocation.flags with
  | .error e => fail e.toFailure "" Settings.defaults.outputFormat.value
  | .ok settings =>
    match (perform world settings invocation.command).after "" with
    | (.ok passed, written) => { status := if passed then 0 else 1, stdout := written }
    | (.error e, written) => fail e written settings.outputFormat.value

/-- The program. -/
def run (world : World) (args : List String) : Exit :=
  match CommandLine.parse args with
  | .error .usageError => { status := usageStatus }
  | .error .help => { status := 0 }
  | .error .version => { status := 0, stdout := versionLine ++ "\n" }
  | .ok invocation => invoke world invocation

/-- The path of the test tree that a command line names, if it names one. -/
def treePath? (args : List String) : Option String :=
  match CommandLine.parse args with
  | .ok invocation => invocation.command.tree?
  | .error _ => none

end Program

end DoctestSelection
