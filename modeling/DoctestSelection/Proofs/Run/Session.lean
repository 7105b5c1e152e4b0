import DoctestSelection.Proofs.Run.Selected
import DoctestSelection.Proofs.Text.Pieces

/-!
# Failed runs leave no trace

A runner can be called again and again, with filters or with expressions, on any modules of any
finders.  A call finds out first whether the expression is read, then whether the module is found,
and only then hands its first test to the runner; so a call that fails has not touched the state.
What a call selects does not depend on the runner either, and therefore a whole sequence of calls
leaves the runner as if it had been given, one after the other, the tests that the successful calls
select.

The step is one call, with a case for each kind of call and for each cause of failure; the induction
is on the sequence.

## Main definitions

* `Call`, `Call.perform` — calls on a runner, and what comes of one.
* `Call.tests?` — the tests that a call selects.
* `Runner.session` — calls that are made one after the other.

## Main results

* `Call.perform_cases` — **what comes of one call.**
* `Runner.session_snd` — **what a sequence of calls leaves behind.**
* `failed_calls_leave_no_trace` — all of this, and which failure is told.
-/

namespace DoctestSelection

/-! ### Calls -/

/-- A call on a runner. -/
inductive Call
  /-- With filters that were read before. -/
  | filters (finder : Finder) (moduleName : String) (fs : FilterSet)
  /-- With an expression that is still to be read. -/
  | expression (finder : Finder) (parser : ExpressionParser) (moduleName text : String)

namespace Call

/-- What comes of a call on a runner in a state, and the state that it leaves. -/
def perform {σ : Type} (runner : Runner σ) (state : σ) : Call → Except Failure Results × σ
  | .filters finder moduleName fs => runner.runSelected finder moduleName fs state
  | .expression finder parser moduleName text =>
    runner.runExpression finder parser moduleName text state

/-- The tests that a call selects, if the expression is read and the module is found. -/
def tests? : Call → Option (List Test)
  | .filters finder moduleName fs => (finder.find moduleName).toOption.map fs.selectTests
  | .expression finder parser moduleName text => do
    let fs ← (parser.parse text).toOption
    let tests ← (finder.find moduleName).toOption
    return fs.selectTests tests

end Call

/-! ### One call -/

namespace Runner

variable {σ : Type} (runner : Runner σ) {finder : Finder} {moduleName : String}

theorem runSelected_of_find_error {e : FindError} (h : finder.find moduleName = .error e)
    (fs : FilterSet) (state : σ) :
    runner.runSelected finder moduleName fs state = (.error (.discovery e), state) := by
  rw [runSelected, h]

variable {parser : ExpressionParser} {text : String}

theorem runExpression_of_parse_error {e : FilterError} (h : parser.parse text = .error e)
    (finder : Finder) (moduleName : String) (state : σ) :
    runner.runExpression finder parser moduleName text state =
      (.error (.invalidFilter e), state) := by
  rw [runExpression, h]

theorem runExpression_of_parse {fs : FilterSet} (h : parser.parse text = .ok fs)
    (finder : Finder) (moduleName : String) (state : σ) :
    runner.runExpression finder parser moduleName text state =
      runner.runSelected finder moduleName fs state := by
  rw [runExpression, h]

/-- With filters that are read, a run fails only because the module is not found. -/
theorem runSelected_fst_eq_error_iff (fs : FilterSet) (state : σ) (e : Failure) :
    (runner.runSelected finder moduleName fs state).1 = .error e ↔
      ∃ e', finder.find moduleName = .error e' ∧ e = .discovery e' := by
  cases h : finder.find moduleName with
  | error e' =>
    rw [runner.runSelected_of_find_error h]
    simp only [Except.error.injEq, exists_eq_left']
    exact eq_comm
  | ok tests =>
    rw [runner.runSelected_of_find h]
    exact iff_of_false nofun fun ⟨_, he, _⟩ => nomatch he

end Runner

namespace Call

variable {σ : Type} (runner : Runner σ)

theorem perform_filters_cases (finder : Finder) (moduleName : String) (fs : FilterSet) (state : σ) :
    (tests? (.filters finder moduleName fs) = none ∧
        ∃ e, perform runner state (.filters finder moduleName fs) = (.error e, state)) ∨
      ∃ tests, tests? (.filters finder moduleName fs) = some tests ∧
        ∃ results, perform runner state (.filters finder moduleName fs) =
          (.ok results, (runner.runAll tests state).2) := by
  rw [tests?]
  cases hfind : finder.find moduleName with
  | error e =>
    have hrun := runner.runSelected_of_find_error hfind fs state
    exact .inl ⟨rfl, .discovery e, hrun⟩
  | ok found =>
    have hrun := runner.runSelected_of_find hfind fs state
    exact .inr ⟨_, rfl, _, hrun⟩

/-- **What comes of one call.**  A call that selects nothing, for want of filters or of a module,
fails and leaves the state as it was; any other one succeeds and hands what it selects to the
runner. -/
theorem perform_cases (call : Call) (state : σ) :
    (call.tests? = none ∧ ∃ e, call.perform runner state = (.error e, state)) ∨
      ∃ tests, call.tests? = some tests ∧
        ∃ results, call.perform runner state = (.ok results, (runner.runAll tests state).2) := by
  cases call with
  | filters finder moduleName fs => exact perform_filters_cases runner finder moduleName fs state
  | expression finder parser moduleName text =>
    cases hparse : parser.parse text with
    | error e =>
      have htests : tests? (.expression finder parser moduleName text) = none := by
        rw [tests?, hparse]
        rfl
      have hrun := runner.runExpression_of_parse_error hparse finder moduleName state
      exact .inl ⟨htests, .invalidFilter e, hrun⟩
    | ok fs =>
      -- once the expression is read, the call is the one with its filters
      have htests : tests? (.expression finder parser moduleName text) =
          tests? (.filters finder moduleName fs) := by
        rw [tests?, tests?, hparse]
        cases finder.find moduleName <;> rfl
      have hrun : perform runner state (.expression finder parser moduleName text) =
          perform runner state (.filters finder moduleName fs) :=
        runner.runExpression_of_parse hparse finder moduleName state
      rw [htests, hrun]
      exact perform_filters_cases runner finder moduleName fs state

theorem perform_snd_of_error {call : Call} {state : σ} {e : Failure}
    (h : (call.perform runner state).1 = .error e) : (call.perform runner state).2 = state := by
  rcases perform_cases runner call state with ⟨-, e', hperform⟩ | ⟨tests, -, results, hperform⟩
  · rw [hperform]
  · rw [hperform] at h
    exact nomatch h

end Call

/-! ### Calls in a row -/

namespace Runner

variable {σ : Type} (runner : Runner σ)

/-- Calls that are made one after the other on one runner: what comes of each, and the state in the
end. -/
def session : List Call → σ → List (Except Failure Results) × σ
  | [], state => ([], state)
  | call :: calls, state =>
    let (result, state) := call.perform runner state
    let (results, state) := session calls state
    (result :: results, state)

theorem session_cons (call : Call) (calls : List Call) (state : σ) :
    runner.session (call :: calls) state =
      ((call.perform runner state).1 :: (runner.session calls (call.perform runner state).2).1,
        (runner.session calls (call.perform runner state).2).2) := rfl

/-- The calls that succeed are those that select tests, in whatever state they are made. -/
theorem map_isOk_session (calls : List Call) (state : σ) :
    (runner.session calls state).1.map Except.isOk = calls.map (·.tests?.isSome) := by
  induction calls generalizing state with
  | nil => rfl
  | cons call calls ih =>
    rw [session_cons, List.map_cons, List.map_cons, ih]
    rcases call.perform_cases runner state with
      ⟨htests, e, hperform⟩ | ⟨tests, htests, results, hperform⟩
    · rw [hperform, htests]
      rfl
    · rw [hperform, htests]
      rfl

/-- **What a sequence of calls leaves behind**: the runner is as if it had been given the tests of
the successful calls and nothing else. -/
theorem session_snd (calls : List Call) (state : σ) :
    (runner.session calls state).2 =
      (runner.runAll (calls.filterMap Call.tests?).flatten state).2 := by
  induction calls generalizing state with
  | nil => rfl
  | cons call calls ih =>
    rw [session_cons]
    show (runner.session calls (call.perform runner state).2).2 = _
    rw [ih]
    rcases call.perform_cases runner state with
      ⟨htests, e, hperform⟩ | ⟨tests, htests, results, hperform⟩
    · rw [hperform, List.filterMap_cons_none htests]
    · rw [hperform, List.filterMap_cons_some htests, List.flatten_cons, runAll_append]

end Runner

/-- **Failed runs leave no trace.**  A call that fails leaves the state of the runner as it was.
After any sequence of calls, the runner is as if it had been given the tests that the successful
calls select, and a dry run has noted their names.  An expression that is not read is told before
anything else; one that is read makes the call the same as with its filters, which fails only if the
module is not found. -/
theorem failed_calls_leave_no_trace :
    (∀ {σ : Type} (runner : Runner σ) (call : Call) (state : σ) (e : Failure),
      (call.perform runner state).1 = .error e → (call.perform runner state).2 = state) ∧
    (∀ {σ : Type} (runner : Runner σ) (calls : List Call) (state : σ),
      (runner.session calls state).1.map Except.isOk = calls.map (·.tests?.isSome) ∧
      (runner.session calls state).2 =
        (runner.runAll (calls.filterMap Call.tests?).flatten state).2) ∧
    (∀ (calls : List Call) (seen : List String),
      (Runner.dry.session calls seen).2 =
        seen ++ (calls.filterMap Call.tests?).flatten.map (·.name)) ∧
    ∀ {σ : Type} (runner : Runner σ) (finder : Finder) (parser : ExpressionParser)
      (moduleName text : String) (state : σ),
      (∀ e, parser.parse text = .error e →
        runner.runExpression finder parser moduleName text state =
          (.error (.invalidFilter e), state)) ∧
      ∀ fs, parser.parse text = .ok fs →
        runner.runExpression finder parser moduleName text state =
          runner.runSelected finder moduleName fs state ∧
        ∀ e, (runner.runExpression finder parser moduleName text state).1 = .error e ↔
          ∃ e', finder.find moduleName = .error e' ∧ e = .discovery e' := by
  refine ⟨fun runner call state e h => call.perform_snd_of_error runner h,
    fun runner calls state => ⟨runner.map_isOk_session calls state, runner.session_snd calls state⟩,
    ?_, ?_⟩
  · intro calls seen
    rw [Runner.session_snd, Runner.runAll_dry]
  · intro σ runner finder parser moduleName text state
    refine ⟨fun e h => runner.runExpression_of_parse_error h finder moduleName state,
      fun fs h => ?_⟩
    have hrun := runner.runExpression_of_parse h finder moduleName state
    refine ⟨hrun, fun e => ?_⟩
    rw [hrun]
    exact runner.runSelected_fst_eq_error_iff fs state e

attribute [local instance] PatternEngine.bySize

/-- A bad range is told although the finder would have failed as well, which is told once the range
is put right. -/
theorem failed_calls_leave_no_trace_of_bad_range :
    let call : Call := .expression (.broken "x") .standard "m" "f:1-2-3"
    ((call.perform Runner.dry ["m.f"]).1 = .error (.invalidFilter (.tooManyDashes "1-2-3")) ∧
      (call.perform Runner.dry ["m.f"]).2 = ["m.f"]) ∧
    (Runner.dry.runExpression (.broken "x") .standard "m" "f:1-2" ["m.f"]).1 =
      .error (.discovery (.discovery "m" "x")) := by
  intro call
  have hparse : ExpressionParser.standard.parse "f:1-2-3" = .error (.tooManyDashes "1-2-3") := by
    decide
  have hfails : (call.perform Runner.dry ["m.f"]).1 =
      .error (.invalidFilter (.tooManyDashes "1-2-3")) := by
    have hrun := (failed_calls_leave_no_trace.2.2.2 Runner.dry (.broken "x") .standard "m" "f:1-2-3"
      ["m.f"]).1 _ hparse
    exact congrArg Prod.fst hrun
  refine ⟨⟨hfails, failed_calls_leave_no_trace.1 Runner.dry call ["m.f"] _ hfails⟩, ?_⟩
  have hread : ExpressionParser.standard.parse "f:1-2" =
      .ok ⟨[⟨⟨"f", by decide, ⟨'f', by decide⟩⟩, some ⟨[⟨1, some 2⟩]⟩⟩]⟩ := by decide
  have hrun := (failed_calls_leave_no_trace.2.2.2 Runner.dry (.broken "x") .standard "m" "f:1-2"
    ["m.f"]).2 _ hread
  exact (hrun.2 _).2 ⟨_, rfl, rfl⟩

end DoctestSelection
