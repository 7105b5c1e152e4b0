import DoctestSelection.Proofs.Command.Written
import DoctestSelection.Proofs.Run.Selected

/-!
# Selecting and running tell the same

The commands for a selection and for a run go through the same stages before they look at the tests
of a module.  If a stage fails, both fail with its failure and write nothing.  Otherwise both have
found the same tests, and what the one counts in a selection the other counts in a dry run of it.

What the results of a run sum up is exact while the sums stay below `2 ^ 64`.  Larger sums wrap
around, and then a run can pass although an example has failed.

## Main definitions

* `Command.Found` — what both commands find before they look at the tests.
* `Command.WrittenAlike` — what a selection and a run write tells the same.

## Main results

* `Command.select_eq_ok_iff` — what a selection tells when it succeeds.
* `Command.writtenAlike` — the two commands tell the same.
* `run_matches_selection` — **running and selecting are the same selection.**
-/

namespace DoctestSelection

open Text

/-! ### What the stages find -/

namespace Command

variable [PatternEngine] (settings : Settings) (source : TreeSource) (name? : Option String)

/-- What a selection and a run find before they look at the tests: the filters, the modules of the
tree, the name of a module and its tests. -/
structure Found (fs : FilterSet) (table : ModuleTable) (name : String) (tests : List Test) :
    Prop where
  filters_eq : filters settings = .ok fs
  table_eq : source.table = .ok table
  resolve_eq : table.resolve name? = .ok name
  find_eq : table.finder.find name = .ok tests

/-- Either every stage finds what it looks for, or a selection and a run fail for one cause. -/
theorem found_or_fails :
    (∃ fs table name tests, Found settings source name? fs table name tests) ∨
      ∃ e, select settings source name? = .error e ∧ run settings source name? = .error e := by
  unfold select run
  -- the two go through the same stages in the same order, so the cases are those of a stage each
  cases hfilters : filters settings with
  | error e => exact .inr ⟨e, rfl, rfl⟩
  | ok fs =>
    rw [ok_bind, ok_bind]
    cases htable : source.table with
    | error e => exact .inr ⟨e, rfl, rfl⟩
    | ok table =>
      rw [ok_bind, ok_bind]
      cases hname : table.resolve name? with
      | error e => exact .inr ⟨e, rfl, rfl⟩
      | ok name =>
        rw [ok_bind, ok_bind]
        cases hfind : table.finder.find name with
        | error e =>
          -- a run looks the module up by itself, and wraps the error in the same way
          have hrun : Runner.dry.runSelected table.finder name fs [] =
              (.error (.discovery e), []) := by
            rw [Runner.runSelected, hfind]
          rw [hrun]
          exact .inr ⟨.discovery e, rfl, rfl⟩
        | ok tests => exact .inl ⟨fs, table, name, tests, hfilters, htable, hname, hfind⟩

variable {settings source name?} {fs : FilterSet} {table : ModuleTable} {name : String}
  {tests : List Test}

/-- A selection of what was found. -/
theorem Found.select_eq (h : Found settings source name? fs table name tests) :
    select settings source name? =
      .ok (.selected name settings.filterExpression.value (fs.selectWithSummary tests).2
        (fs.selectTests tests)) := by
  rw [select, h.filters_eq, ok_bind, h.table_eq, ok_bind, h.resolve_eq, ok_bind, h.find_eq,
    ← FilterSet.map_test_selectWithSummary]
  rfl

/-- A dry run of what was found. -/
theorem Found.run_eq (h : Found settings source name? fs table name tests) :
    run settings source name? =
      .ok (.ran name settings.filterExpression.value (.ofSummary (fs.selectWithSummary tests).2)
        ((fs.selectTests tests).map (·.name))) := by
  rw [run, h.filters_eq, ok_bind, h.table_eq, ok_bind, h.resolve_eq, ok_bind,
    Runner.runSelected_dry h.find_eq, List.nil_append]
  rfl

/-- A selection succeeds when each stage does, and tells what is selected of the module. -/
theorem select_eq_ok_iff {report : Report} :
    select settings source name? = .ok report ↔
      ∃ fs table name tests, Found settings source name? fs table name tests ∧
        report = .selected name settings.filterExpression.value (fs.selectWithSummary tests).2
          (fs.selectTests tests) := by
  constructor
  · intro h
    obtain ⟨fs, table, name, tests, hfound⟩ | ⟨e, hselect, -⟩ :=
      found_or_fails settings source name?
    · exact ⟨fs, table, name, tests, hfound, Except.ok.inj (h.symm.trans hfound.select_eq)⟩
    · exact nomatch h.symm.trans hselect
  · rintro ⟨fs, table, name, tests, hfound, rfl⟩
    exact hfound.select_eq

end Command

/-! ### What the two commands write -/

namespace Command

variable [PatternEngine] (settings : Settings) (source : TreeSource) (name? : Option String)
  (written : String)

/-- What a selection and a run write tells the same.  Both fail for one cause and write nothing, or
both report on what is selected of one module for one expression, with the same counts. -/
inductive WrittenAlike : Except Failure Unit × String → Except Failure Bool × String → Prop
  | failed (e : Failure) : WrittenAlike (.error e, written) (.error e, written)
  | reported {fs : FilterSet} {table : ModuleTable} {name : String} {tests : List Test} :
    Found settings source name? fs table name tests →
    WrittenAlike
      (.ok (), written ++
        (Report.selected name settings.filterExpression.value (fs.selectWithSummary tests).2
          (fs.selectTests tests)).render settings.outputFormat.value)
      (.ok true, written ++
        (Report.ran name settings.filterExpression.value
          (.ofSummary (fs.selectWithSummary tests).2)
          ((fs.selectTests tests).map (·.name))).render settings.outputFormat.value)

/-- The commands for a selection and for a run write alike. -/
theorem writtenAlike :
    WrittenAlike settings source name? written
      ((writeSelect settings source name?).after written)
      ((writeRun settings source name?).after written) := by
  rw [after_writeSelect, after_writeRun]
  obtain ⟨fs, table, name, tests, hfound⟩ | ⟨e, hselect, hrun⟩ :=
    found_or_fails settings source name?
  · rw [hfound.select_eq, hfound.run_eq]
    exact .reported hfound
  · rw [hselect, hrun]
    exact .failed e

end Command

/-- **Running and selecting are the same selection.**  If a module is found, a run hands the tests
that are selected from it to the runner, once each and in order.  Its counts of tests are those of
the selection.  Its results are the sums over the outcomes as long as these stay below `2 ^ 64`, and
then it passes when no outcome has a failure.  A dry run attempts the selected examples and notes
the names of the selected tests.  The commands for a selection and for a run write alike. -/
theorem run_matches_selection :
    (∀ {σ : Type} (runner : Runner σ) (finder : Finder) (moduleName : String) (fs : FilterSet)
      (tests : List Test) (state : σ), finder.find moduleName = .ok tests →
      let outcomes := (runner.runAll (fs.selectTests tests) state).1
      let last := (runner.runAll (fs.selectTests tests) state).2
      let failures := (outcomes.map (·.failed.toNat)).sum
      let attempts := (outcomes.map (·.attempted.toNat)).sum
      let summary := (fs.selectWithSummary tests).2
      ∃ results, runner.runSelected finder moduleName fs state = (.ok results, last) ∧
        (∀ given, runner.recording.runSelected finder moduleName fs (state, given) =
          (.ok results, last, given ++ fs.selectTests tests)) ∧
        (failures < 2 ^ 64 → results.failed.toNat = failures ∧
          (results.passed = true ↔ ∀ outcome ∈ outcomes, outcome.failed = 0)) ∧
        (attempts < 2 ^ 64 → results.attempted.toNat = attempts) ∧
        results.testsRun = .ofNat summary.testsSelected ∧
        results.partiallySelected = .ofNat summary.testsPartial) ∧
    (∀ (finder : Finder) (moduleName : String) (fs : FilterSet) (tests : List Test)
      (seen : List String), finder.find moduleName = .ok tests →
      let summary := (fs.selectWithSummary tests).2
      ∃ results, Runner.dry.runSelected finder moduleName fs seen =
          (.ok results, seen ++ (fs.selectTests tests).map (·.name)) ∧
        results.attempted = .ofNat summary.examplesSelected ∧ results.failed = 0) ∧
    ∀ [PatternEngine] (settings : Settings) (source : TreeSource) (name? : Option String)
      (written : String),
      Command.WrittenAlike settings source name? written
        ((Command.writeSelect settings source name?).after written)
        ((Command.writeRun settings source name?).after written) := by
  refine ⟨?_, ?_, fun settings source name? written =>
    Command.writtenAlike settings source name? written⟩
  · intro σ runner finder moduleName fs tests state h outcomes last failures attempts summary
    have hsummary : summary = _ := FilterSet.selectWithSummary_snd fs tests
    refine ⟨_, runner.runSelected_of_find h fs state, fun given => ?_, fun hfailures => ?_,
      fun hattempts => ?_, ?_, ?_⟩
    · rw [runner.recording.runSelected_of_find h, runner.runAll_recording]
    · exact ⟨Results.toNat_failed_recordAll hfailures, Results.passed_recordAll_iff hfailures⟩
    · exact Results.toNat_attempted_recordAll hattempts
    · rw [Results.recordAll_default, hsummary]
    · rw [Results.recordAll_default, hsummary]
  · intro finder moduleName fs tests seen h summary
    exact ⟨_, Runner.runSelected_dry h fs seen, rfl, rfl⟩

/-- A run that drops one test and lets the last two examples of another fail. -/
theorem run_matches_selection_of_trimmed_test :
    let finder : Finder := ⟨fun _ => .ok [Test.ofCount "m.f" 3, Test.ofCount "m.g" 2]⟩
    let fs : FilterSet := ⟨[⟨⟨"f", by decide, ⟨'f', by decide⟩⟩, some ⟨[⟨1, none⟩]⟩⟩]⟩
    let runner : Runner Unit := ⟨fun state t => (⟨.ofNat t.size, .ofNat t.size⟩, state)⟩
    (∃ results, runner.runSelected finder "m" fs () = (.ok results, ()) ∧
      results.failed.toNat = 2 ∧ results.passed = false ∧ results.attempted.toNat = 2 ∧
      results.testsRun = 1 ∧ results.partiallySelected = 1) ∧
    ∃ results, Runner.dry.runSelected finder "m" fs [] = (.ok results, ["m.f"]) ∧
      results.attempted = 2 ∧ results.failed = 0 := by
  intro finder fs runner
  constructor
  · obtain ⟨results, hrun, -, hfailures, hattempts, htests, hpartial⟩ :=
      run_matches_selection.1 runner finder "m" fs _ () rfl
    obtain ⟨hfailed, hpassed⟩ := hfailures (by decide)
    refine ⟨results, hrun, hfailed, ?_, hattempts (by decide), htests, hpartial⟩
    rw [Bool.eq_false_iff, ne_eq, hpassed]
    decide
  · obtain ⟨results, hrun, hattempted, hfailed⟩ :=
      run_matches_selection.2.1 finder "m" fs _ [] rfl
    exact ⟨results, hrun, hattempted, hfailed⟩

/-- Two outcomes of `2 ^ 63` failures each: their sum wraps around to zero, and the run passes. -/
theorem run_passes_when_failures_wrap_around :
    let tests : List Test := [Test.ofCount "m.f" 1, Test.ofCount "m.g" 1]
    let finder : Finder := ⟨fun _ => .ok tests⟩
    let outcome : Outcome := ⟨9223372036854775808, 9223372036854775808⟩
    let runner : Runner Unit := ⟨fun state _ => (outcome, state)⟩
    let outcomes := (runner.runAll (FilterSet.empty.selectTests tests) ()).1
    ∃ results, runner.runSelected finder "m" .empty () = (.ok results, ()) ∧
      results.failed.toNat ≠ (outcomes.map (·.failed.toNat)).sum ∧
      results.attempted.toNat ≠ (outcomes.map (·.attempted.toNat)).sum ∧
      ¬ (results.passed = true ↔ ∀ outcome ∈ outcomes, outcome.failed = 0) := by
  intro tests finder outcome runner outcomes
  have houtcomes : outcomes = [outcome, outcome] := rfl
  have hrun : runner.runSelected finder "m" .empty () = _ :=
    runner.runSelected_of_find rfl .empty ()
  -- `2 ^ 63 + 2 ^ 63` is zero in 64 bits, so that only the tests are counted
  have hresults : Results.recordAll {} (FilterSet.empty.select tests) [outcome, outcome] =
      { testsRun := 2 } := by
    decide
  refine ⟨{ testsRun := 2 }, ?_, ?_, ?_, ?_⟩
  · rw [hrun, ← hresults]
    rfl
  · rw [houtcomes]
    decide
  · rw [houtcomes]
    decide
  · rw [houtcomes]
    decide

end DoctestSelection
