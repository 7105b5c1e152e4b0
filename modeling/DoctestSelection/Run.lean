import DoctestSelection.Failure
import DoctestSelection.Filter.Parser
import DoctestSelection.Selection.Basic

/-!
# Running selected tests

A runner runs one test at a time and may change its state with each.  A run finds the tests of a
module, hands those that are selected to the runner, in order, and adds up the outcomes.  The state
is returned beside the results, also when the run fails.

All counts are numbers of 64 bits.  A sum that outgrows them wraps around, and nothing tells that it
did.

## Main definitions

* `Outcome`, `Runner` — what running a test says, and how tests are run.
* `Results`, `Results.record` — the sums over the outcomes.
* `Runner.runTests` — runs the tests that a filter set keeps.
* `Runner.runSelected`, `Runner.runExpression` — find the tests of a module and run them.
* `Runner.dry` — the runner that only notes the names.

## Main results

* `Runner.runTests_cons` — a run goes test by test.
-/

namespace DoctestSelection

/-! ### Outcomes and results -/

/-- What running a test says. -/
structure Outcome where
  failed : UInt64
  attempted : UInt64
  deriving DecidableEq, Repr, Inhabited

/-- The sums over the tests of a run. -/
structure Results where
  failed : UInt64 := 0
  attempted : UInt64 := 0
  testsRun : UInt64 := 0
  /-- The tests that were run without some of their examples. -/
  partiallySelected : UInt64 := 0
  deriving DecidableEq, Repr, Inhabited

namespace Results

/-- The results with one more outcome. -/
def record (r : Results) (outcome : Outcome) (isPartial : Bool) : Results where
  failed := r.failed + outcome.failed
  attempted := r.attempted + outcome.attempted
  testsRun := r.testsRun + 1
  partiallySelected := r.partiallySelected + if isPartial then 1 else 0

/-- Whether the results count no example that failed. -/
def passed (r : Results) : Bool := r.failed == 0

end Results

/-! ### Runners -/

/-- A way to run tests, one by one, with a state of its own. -/
structure Runner (σ : Type) where
  /-- Runs a test in a state, and gives the outcome and the next state. -/
  run : σ → Test → Outcome × σ

namespace Runner

variable {σ : Type}

/-- The runner that runs nothing and only notes the names of the tests. -/
def dry : Runner (List String) where
  run seen t := (⟨0, .ofNat t.size⟩, seen ++ [t.name])

/-- Runs what a filter set keeps of each test, and goes on from given results and a given state. -/
def runTests (runner : Runner σ) (fs : FilterSet) : List Test → Results → σ → Results × σ
  | [], results, state => (results, state)
  | t :: ts, results, state =>
    match fs.keep? t with
    | none => runner.runTests fs ts results state
    | some kept =>
      let (outcome, state) := runner.run state kept.test
      runner.runTests fs ts (results.record outcome kept.isPartial) state

/-- Finds the tests of a module and runs those that a filter set keeps. -/
def runSelected (runner : Runner σ) (finder : Finder) (moduleName : String) (fs : FilterSet)
    (state : σ) : Except Failure Results × σ :=
  match finder.find moduleName with
  | .error e => (.error (.discovery e), state)
  | .ok tests =>
    let (results, state) := runner.runTests fs tests {} state
    (.ok results, state)

/-- Reads a filter expression and, if that succeeds, runs what it selects. -/
def runExpression (runner : Runner σ) (finder : Finder) (parser : ExpressionParser)
    (moduleName expression : String) (state : σ) : Except Failure Results × σ :=
  match parser.parse expression with
  | .error e => (.error (.invalidFilter e), state)
  | .ok fs => runner.runSelected finder moduleName fs state

@[simp] theorem runTests_nil (runner : Runner σ) (fs : FilterSet) (results : Results) (state : σ) :
    runner.runTests fs [] results state = (results, state) := rfl

theorem runTests_cons (runner : Runner σ) (fs : FilterSet) (t : Test) (ts : List Test)
    (results : Results) (state : σ) :
    runner.runTests fs (t :: ts) results state =
      match fs.keep? t with
      | none => runner.runTests fs ts results state
      | some kept =>
        runner.runTests fs ts
          (results.record (runner.run state kept.test).1 kept.isPartial)
          (runner.run state kept.test).2 := rfl

end Runner

end DoctestSelection
