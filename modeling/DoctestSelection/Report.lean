import DoctestSelection.Json.Printer
import DoctestSelection.Range.Runs
import DoctestSelection.Run
import DoctestSelection.Selection.Summary
import DoctestSelection.Settings
import DoctestSelection.Test.Json

/-!
# Reports

A report tells what a command found out.  It is written as a JSON object over several lines, which
tells its status and the version of its layout first, or as plain lines.  A failure is written as
an object of the same layout.

## Main definitions

* `FilterInfo` — how a filter is shown.
* `Report` — what a command found out.
* `Report.toJson`, `Report.lines` — a report as a value, and as plain lines.
* `Report.render` — a report as text.
* `Failure.render` — a failure as text.
-/

namespace DoctestSelection

/-! ### Reports -/

/-- How a filter is shown: its name, and its ranges if it has any. -/
structure FilterInfo where
  /-- The text of the name pattern. -/
  name : String
  /-- The text of the ranges, if there are any. -/
  ranges : Option String
  deriving DecidableEq, Repr, Inhabited

/-- How a filter is shown. -/
def Filter.info (f : Filter) : FilterInfo := ⟨f.name.text, f.ranges.map RangeSet.text⟩

/-- What a command found out. -/
inductive Report
  /-- How an expression is understood. -/
  | parsed (expression : String) (filters : List FilterInfo)
  /-- What an expression selects of a module. -/
  | selected (moduleName expression : String) (summary : Summary) (tests : List Test)
  /-- How a run went, and the names of the tests that were run. -/
  | ran (moduleName expression : String) (results : Results) (seen : List String)
  deriving Repr

/-- Whether no example failed. -/
def Report.passed : Report → Bool
  | .parsed _ _ => true
  | .selected _ _ _ _ => true
  | .ran _ _ results _ => results.passed

/-! ### Reports as values -/

/-- A filter as a value. -/
def FilterInfo.toJson (f : FilterInfo) : Json :=
  .object <| ("name", .string f.name) :: Json.optionalMember "ranges" Json.string f.ranges

/-- The counts of a selection as a value. -/
def Summary.toJson (s : Summary) : Json :=
  .object [
    ("tests_discovered", .natural s.testsDiscovered),
    ("tests_selected", .natural s.testsSelected),
    ("tests_partial", .natural s.testsPartial),
    ("examples_discovered", .natural s.examplesDiscovered),
    ("examples_selected", .natural s.examplesSelected)]

/-- The results of a run as a value. -/
def Results.toJson (r : Results) : Json :=
  .object [
    ("failed", .natural r.failed.toNat),
    ("attempted", .natural r.attempted.toNat),
    ("tests_run", .natural r.testsRun.toNat),
    ("partially_selected", .natural r.partiallySelected.toNat)]

/-- The version of the layout of reports. -/
def layoutVersion : String := "1"

/-- An object with a status. -/
def Json.withStatus (status : String) (members : List (String × Json)) : Json :=
  .object (("status", .string status) :: ("schema_version", .string layoutVersion) :: members)

/-- A report as a value. -/
def Report.toJson : Report → Json
  | .parsed expression filters =>
    .withStatus "ok" [
      ("expression", .string expression),
      ("select_all", .bool filters.isEmpty),
      ("filters", .array (filters.map FilterInfo.toJson))]
  | .selected moduleName expression summary tests =>
    .withStatus "ok" [
      ("module", .string moduleName),
      ("expression", .string expression),
      ("summary", summary.toJson),
      ("tests", .array (tests.map Test.toJson))]
  | .ran moduleName expression results _ =>
    .withStatus (if results.passed then "ok" else "failed") [
      ("module", .string moduleName),
      ("expression", .string expression),
      ("results", results.toJson)]

/-- A failure as a value. -/
def Failure.toJson (e : Failure) : Json :=
  .withStatus "error" [
    ("error", .object [("code", .natural e.code.number), ("message", .string e.message)])]

/-! ### Reports as plain lines -/

/-- The line that shows a filter. -/
def FilterInfo.line (f : FilterInfo) : String :=
  f.name ++ "\t" ++
    match f.ranges with
    | some ranges => "examples " ++ ranges
    | none => "all examples"

/-- The line that shows a selected test. -/
def Test.line (t : Test) : String := t.name ++ " [" ++ formatIndices t.indices ++ "]"

/-- The line that shows the counts of a selection. -/
def Summary.line (s : Summary) : String :=
  "selected " ++ toString s.testsSelected ++ " of " ++ toString s.testsDiscovered ++ " tests (" ++
    toString s.testsPartial ++ " partial), " ++ toString s.examplesSelected ++ " of " ++
    toString s.examplesDiscovered ++ " examples"

/-- The line that shows the results of a run. -/
def Results.line (r : Results) : String :=
  toString r.testsRun.toNat ++ " tests (" ++ toString r.partiallySelected.toNat ++
    " partially selected): " ++ toString r.attempted.toNat ++ " examples attempted, " ++
    toString r.failed.toNat ++ " failed"

/-- A report as plain lines. -/
def Report.lines : Report → List String
  | .parsed _ [] => ["no filters: every test and example is selected"]
  | .parsed _ filters => filters.map FilterInfo.line
  | .selected _ _ summary tests => tests.map Test.line ++ [summary.line]
  | .ran _ _ results seen => seen.map ("ran " ++ ·) ++ [results.line]

/-! ### Reports as text -/

/-- A list of lines, each with its line break. -/
def unlines (lines : List String) : String := String.join (lines.map (· ++ "\n"))

@[simp] theorem unlines_nil : unlines [] = "" := rfl

@[simp] theorem unlines_cons (line : String) (lines : List String) :
    unlines (line :: lines) = line ++ "\n" ++ unlines lines := by
  rw [unlines, List.map_cons, String.join_cons]
  rfl

theorem unlines_singleton (line : String) : unlines [line] = line ++ "\n" := by
  rw [unlines_cons, unlines_nil, String.append_empty]

/-- A report as text. -/
def Report.render (r : Report) : OutputFormat → String
  | .json => unlines [r.toJson.pretty]
  | .text => unlines r.lines

/-- A failure as text. -/
def Failure.render (e : Failure) : OutputFormat → String
  | .json => unlines [e.toJson.pretty]
  | .text => unlines ["error: " ++ e.message]

end DoctestSelection
