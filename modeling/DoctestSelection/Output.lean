import DoctestSelection.Command

/-!
# Writing reports

A command writes its report line by line to what has been written before, once all of the report is
there.  If no report comes of it, the command fails, and what was written stays written.

## Main definitions

* `Writing` — steps that write and may fail.
* `writeLine`, `Report.write` — a line, and the lines of a report.
* `Command.writeParse`, `Command.writeSelect`, `Command.writeRun` — the commands as they write.
-/

namespace DoctestSelection

/-! ### Steps that write -/

/-- Steps that write and may fail.  The state is the text that has been written, which a failure
does not take back. -/
abbrev Writing := ExceptT Failure (StateM String)

/-- What comes of some steps, and what has been written after them. -/
def Writing.after {α : Type} (steps : Writing α) (written : String) : Except Failure α × String :=
  (ExceptT.run steps).run written

/-- Writes a line. -/
def writeLine (line : String) : Writing Unit := modify (· ++ (line ++ "\n"))

/-- Writes a report: in JSON all at once, and otherwise line by line. -/
def Report.write (r : Report) : OutputFormat → Writing Unit
  | .json => writeLine r.toJson.pretty
  | .text => r.lines.forM writeLine

/-! ### Commands -/

namespace Command

variable [PatternEngine]

/-- Writes how the expression is understood. -/
def writeParse (settings : Settings) : Writing Unit := do
  let report ← parse settings
  report.write settings.outputFormat.value

/-- Writes which tests and examples the expression selects. -/
def writeSelect (settings : Settings) (source : TreeSource) (name? : Option String) :
    Writing Unit := do
  let report ← select settings source name?
  report.write settings.outputFormat.value

/-- Writes how a run of the selected tests goes that does not run their examples, and tells whether
no example failed. -/
def writeRun (settings : Settings) (source : TreeSource) (name? : Option String) :
    Writing Bool := do
  let report ← run settings source name?
  report.write settings.outputFormat.value
  return report.passed

end Command

end DoctestSelection
