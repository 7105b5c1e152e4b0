import DoctestSelection.Filter.Error
import DoctestSelection.Finder.Basic

/-!
# Failures

Whatever goes wrong in one of the parts is a failure of the whole, which has a message and a code.
The code serves as the exit status of the program.

## Main definitions

* `Failure` — the causes.
* `Failure.message`, `Failure.code` — the wording of a cause, and its code.
* `SettingError` — a setting with a value that it cannot have, which is a failure too.
-/

namespace DoctestSelection

/-- The kinds of failures that callers tell apart. -/
inductive FailureCode
  | invalidArguments
  | discovery
  | internal
  deriving DecidableEq, Repr, Inhabited

/-- The number of a code. -/
def FailureCode.number : FailureCode → Nat
  | .invalidArguments => 2
  | .discovery => 3
  | .internal => 10

/-- The cause for which the whole fails. -/
inductive Failure
  | invalidArguments (message : String)
  | invalidFilter (e : FilterError)
  | discovery (e : FindError)
  /-- Something cannot be read or written. -/
  | io (message : String)
  | internal (message : String)
  deriving DecidableEq, Repr, Inhabited

namespace Failure

/-- The wording of a cause. -/
def message : Failure → String
  | .invalidArguments message => "invalid arguments: " ++ message
  | .invalidFilter e => "invalid filter: " ++ e.message
  | .discovery e => e.message
  | .io message => "IO error: " ++ message
  | .internal message => "internal error: " ++ message

/-- The code of a cause. -/
def code : Failure → FailureCode
  | .invalidArguments _ => .invalidArguments
  | .invalidFilter _ => .invalidArguments
  | .discovery _ => .discovery
  | .io _ => .internal
  | .internal _ => .internal

/-- The failure to write a value as JSON. -/
def ofJsonError (message : String) : Failure := .internal ("JSON error: " ++ message)

end Failure

/-- A setting with a value that it cannot have. -/
structure SettingError where
  variableName : String
  value : String
  expected : String
  deriving DecidableEq, Repr, Inhabited

namespace SettingError

/-- The wording of the error. -/
def message (e : SettingError) : String :=
  "invalid value '" ++ e.value ++ "' for " ++ e.variableName ++ ": expected " ++ e.expected

/-- The error as a failure of the whole. -/
def toFailure (e : SettingError) : Failure := .invalidArguments e.message

end SettingError

end DoctestSelection
