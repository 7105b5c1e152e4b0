import DoctestSelection.Report
import DoctestSelection.TestTree

/-!
# Commands

A command reads the filter expression of the settings and finds out how it is understood, which
tests of a tree it selects, or how a run of these goes.  The expression is read before the tree,
and the tree before its module is picked.  A command gives either all of its report or a failure.

## Main definitions

* `Command.parse`, `Command.select`, `Command.run` — the commands.
-/

namespace DoctestSelection

namespace Command

variable [PatternEngine]

/-- The filters of the settings. -/
def filters (settings : Settings) : Except Failure FilterSet :=
  (FilterSet.parse settings.filterExpression.value).mapError .invalidFilter

/-- How the expression is understood. -/
def parse (settings : Settings) : Except Failure Report := do
  let fs ← filters settings
  return .parsed settings.filterExpression.value (fs.filters.map Filter.info)

/-- The tests and examples that the expression selects. -/
def select (settings : Settings) (source : TreeSource) (name? : Option String) :
    Except Failure Report := do
  let fs ← filters settings
  let table ← source.table
  let name ← table.resolve name?
  let tests ← (table.finder.find name).mapError .discovery
  let (selected, summary) := fs.selectWithSummary tests
  return .selected name settings.filterExpression.value summary (selected.map (·.test))

/-- How a run of the selected tests goes that does not run their examples. -/
def run (settings : Settings) (source : TreeSource) (name? : Option String) :
    Except Failure Report := do
  let fs ← filters settings
  let table ← source.table
  let name ← table.resolve name?
  let (outcome, seen) := Runner.dry.runSelected table.finder name fs []
  let results ← outcome
  return .ran name settings.filterExpression.value results seen

end Command

end DoctestSelection
