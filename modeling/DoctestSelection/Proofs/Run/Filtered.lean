import DoctestSelection.Proofs.Run.Selected
import DoctestSelection.Proofs.Selection.Composition

/-!
# Filtering before a run and filtering in a run

A filter set can stand in front of a finder or be given to a run, and of two filter sets either one
can take either place.  What a run hands to its runner is what both sets keep, so the places can be
exchanged: the runner is given the same tests, says the same of them, and ends in the same state.
Only the number of partial tests tells the places apart, since a run counts what it trims itself of
the tests that it finds, and knows nothing of what was trimmed before.

## Main definitions

* `FilterSet.Trims fs t` — `fs` keeps some examples of `t` and leaves out others.
* `Results.SameTotals r r'` — results that differ at most in the number of partial tests.

## Main results

* `Finder.find_filtered` — **a filtered finder finds a selection**, also without filters.
* `Runner.sameTotals_of_exchange` — the totals do not depend on the places.
* `filtered_finders_exchange_with_runs` — all of this, and what the number of partial tests is.
-/

namespace DoctestSelection

/-! ### Finding behind a filter set -/

/-- A selection that hands every test on as it is leaves the tests as they are. -/
theorem FilterSet.selectTests_eq_self {fs : FilterSet} {tests : List Test}
    (h : fs.select tests = tests.map fun t => ⟨t, false⟩) : fs.selectTests tests = tests := by
  rw [selectTests, h, List.map_map]
  exact List.map_id tests

/-- A selection keeps all of what it left. -/
theorem FilterSet.selectTests_selectTests_self (fs : FilterSet) (tests : List Test) :
    fs.selectTests (fs.selectTests tests) = fs.selectTests tests :=
  selectTests_eq_self (fs.select_selectTests tests)

/-- **A filtered finder finds a selection.**  That nothing is selected without filters makes no
difference, since everything is selected then. -/
theorem Finder.find_filtered (finder : Finder) (fs : FilterSet) (moduleName : String) :
    (finder.filtered fs).find moduleName = (finder.find moduleName).map fs.selectTests := by
  have hshortcut : (fun tests => if fs.isEmpty then tests else fs.selectTests tests) =
      fs.selectTests := by
    funext tests
    by_cases h : fs.isEmpty = true
    · have hall : fs.selectTests tests = tests :=
        FilterSet.selectTests_eq_self (FilterSet.select_of_isEmpty h tests)
      rw [if_pos h, hall]
    · rw [if_neg h]
  show (finder.find moduleName).map _ = _
  rw [hshortcut]

section Found

variable {finder : Finder} {moduleName : String} {tests : List Test}

theorem Finder.find_filtered_of_ok (h : finder.find moduleName = .ok tests) (fs : FilterSet) :
    (finder.filtered fs).find moduleName = .ok (fs.selectTests tests) := by
  rw [find_filtered, h]
  rfl

theorem Finder.find_filtered_of_error {e : FindError} (h : finder.find moduleName = .error e)
    (fs : FilterSet) : (finder.filtered fs).find moduleName = .error e := by
  rw [find_filtered, h]
  rfl

end Found

/-! ### Tests that are trimmed -/

namespace FilterSet

variable {fs : FilterSet} {t : Test}

/-- A filter set trims a test when it keeps some of its examples and leaves out others. -/
def Trims (fs : FilterSet) (t : Test) : Prop :=
  (∃ e ∈ t.examples, fs.Keeps t e) ∧ ∃ e ∈ t.examples, ¬ fs.Keeps t e

instance : Decidable (fs.Trims t) := inferInstanceAs (Decidable (_ ∧ _))

/-- A test that is left is partial when it was trimmed. -/
theorem isPartial_iff_trims {s : Selected} (h : fs.keep? t = some s) :
    s.isPartial = true ↔ fs.Trims t := by
  obtain ⟨hleft, rfl⟩ := keep?_eq_some_iff.1 h
  have hpartial : decide (fs.kept t ≠ t.examples) = true ↔ ∃ e ∈ t.examples, ¬ fs.Keeps t e := by
    simp [kept_eq_examples_iff]
  show decide (fs.kept t ≠ t.examples) = true ↔ _
  rw [hpartial]
  refine ⟨fun hnot => ⟨?_, hnot⟩, And.right⟩
  -- an example that is left out tells that there are filters, and so that some example is kept
  obtain ⟨e, he, hne⟩ := hnot
  have hkept : fs.kept t ≠ [] := hleft.resolve_left fun hempty => hne (keeps_of_isEmpty hempty)
  rw [ne_eq, kept_eq_nil_iff] at hkept
  simpa using hkept

theorem not_trims_of_keep?_eq_none (h : fs.keep? t = none) : ¬ fs.Trims t := by
  intro htrims
  obtain ⟨e, he, hkeeps⟩ := htrims.1
  exact (keep?_eq_none_iff.1 h).2 e he hkeeps

/-- The partial tests of a selection are those that were trimmed. -/
theorem countP_isPartial_select (fs : FilterSet) (tests : List Test) :
    (fs.select tests).countP (·.isPartial) = tests.countP fun t => fs.Trims t := by
  induction tests with
  | nil => rfl
  | cons t ts ih =>
    rw [List.countP_cons]
    cases h : fs.keep? t with
    | none =>
      have hnot : ¬ fs.Trims t := not_trims_of_keep?_eq_none h
      rw [select_cons_of_none h, ih, decide_eq_false hnot]
      rfl
    | some s =>
      have hpartial : s.isPartial = decide (fs.Trims t) := by
        rw [Bool.eq_iff_iff, isPartial_iff_trims h, decide_eq_true_iff]
      rw [select_cons_of_some h, List.countP_cons, ih, hpartial]

theorem length_select (fs : FilterSet) (tests : List Test) :
    (fs.select tests).length = (fs.selectTests tests).length := by
  rw [selectTests, List.length_map]

end FilterSet

/-! ### Exchanging the places -/

/-- Results that differ at most in the number of partial tests. -/
structure Results.SameTotals (r r' : Results) : Prop where
  failed : r.failed = r'.failed
  attempted : r.attempted = r'.attempted
  testsRun : r.testsRun = r'.testsRun

namespace Runner

variable {σ : Type} (runner : Runner σ) {finder : Finder} {moduleName : String} {tests : List Test}

/-- The results of running what a filter set keeps of given tests. -/
def resultsOf (fs : FilterSet) (tests : List Test) (state : σ) : Results :=
  Results.recordAll {} (fs.select tests) (runner.runAll (fs.selectTests tests) state).1

theorem partiallySelected_resultsOf (fs : FilterSet) (tests : List Test) (state : σ) :
    (runner.resultsOf fs tests state).partiallySelected =
      .ofNat (tests.countP fun t => fs.Trims t) := by
  rw [← FilterSet.countP_isPartial_select, resultsOf, Results.recordAll_default]

/-- A run behind a filtered finder hands over what both filter sets keep. -/
theorem runSelected_filtered (h : finder.find moduleName = .ok tests) (fs gs : FilterSet)
    (state : σ) :
    runner.runSelected (finder.filtered fs) moduleName gs state =
      (.ok (runner.resultsOf gs (fs.selectTests tests) state),
        (runner.runAll (gs.selectTests (fs.selectTests tests)) state).2) :=
  runner.runSelected_of_find (Finder.find_filtered_of_ok h fs) gs state

theorem runSelected_recording_filtered (h : finder.find moduleName = .ok tests) (fs gs : FilterSet)
    (state : σ) (given : List Test) :
    runner.recording.runSelected (finder.filtered fs) moduleName gs (state, given) =
      (.ok (runner.resultsOf gs (fs.selectTests tests) state),
        (runner.runAll (gs.selectTests (fs.selectTests tests)) state).2,
        given ++ gs.selectTests (fs.selectTests tests)) := by
  rw [runner.recording.runSelected_filtered h, resultsOf, runAll_recording]
  rfl

/-- The totals do not depend on which filter set stands in front of the finder. -/
theorem sameTotals_of_exchange (fs gs : FilterSet) (tests : List Test) (state : σ) :
    (runner.resultsOf gs (fs.selectTests tests) state).SameTotals
      (runner.resultsOf fs (gs.selectTests tests) state) := by
  have hsame : fs.selectTests (gs.selectTests tests) = gs.selectTests (fs.selectTests tests) :=
    FilterSet.selectTests_comm gs fs tests
  have hlength : (gs.select (fs.selectTests tests)).length =
      (fs.select (gs.selectTests tests)).length := by
    rw [FilterSet.length_select, FilterSet.length_select, hsame]
  rw [resultsOf, resultsOf, hsame, Results.recordAll_default, Results.recordAll_default, hlength]
  exact ⟨rfl, rfl, rfl⟩

end Runner

/-- A filter set that is the one before it, or none at all, keeps a selection as it is. -/
theorem FilterSet.select_selectTests_of_isEmpty_or_eq {fs gs : FilterSet}
    (h : gs.isEmpty = true ∨ gs = fs) (tests : List Test) :
    gs.select (fs.selectTests tests) = (fs.selectTests tests).map fun t => ⟨t, false⟩ := by
  rcases h with hempty | rfl
  · exact select_of_isEmpty hempty _
  · exact select_selectTests gs tests

/-- **Filtered finders exchange with runs.**  A filtered finder finds a selection and passes errors
through.  Of two filter sets, either one can stand in front of the finder while the run is given the
other: the runner is given the same tests, ends in the same state, and the totals are the same.  The
partial tests of a run are those that it trims itself; if it has no filters or those of the finder,
there are none, and it runs what the finder finds. -/
theorem filtered_finders_exchange_with_runs :
    (∀ (finder : Finder) (fs : FilterSet) (moduleName : String),
      (finder.filtered fs).find moduleName = (finder.find moduleName).map fs.selectTests) ∧
    ∀ {σ : Type} (runner : Runner σ) (finder : Finder) (moduleName : String) (fs gs : FilterSet)
      (state : σ),
      (∀ e, finder.find moduleName = .error e →
        runner.runSelected (finder.filtered fs) moduleName gs state =
            (.error (.discovery e), state) ∧
          runner.runSelected (finder.filtered gs) moduleName fs state =
            (.error (.discovery e), state)) ∧
      ∀ tests, finder.find moduleName = .ok tests →
        let handed := gs.selectTests (fs.selectTests tests)
        ∃ r r' last,
          runner.runSelected (finder.filtered fs) moduleName gs state = (.ok r, last) ∧
          runner.runSelected (finder.filtered gs) moduleName fs state = (.ok r', last) ∧
          (∀ given,
            runner.recording.runSelected (finder.filtered fs) moduleName gs (state, given) =
                (.ok r, last, given ++ handed) ∧
              runner.recording.runSelected (finder.filtered gs) moduleName fs (state, given) =
                (.ok r', last, given ++ handed)) ∧
          r.SameTotals r' ∧
          r.partiallySelected = .ofNat ((fs.selectTests tests).countP fun t => gs.Trims t) ∧
          (gs.isEmpty = true ∨ gs = fs →
            r.partiallySelected = 0 ∧ handed = fs.selectTests tests) := by
  refine ⟨Finder.find_filtered, ?_⟩
  intro σ runner finder moduleName fs gs state
  constructor
  · intro e h
    constructor
    · rw [Runner.runSelected, Finder.find_filtered_of_error h]
    · rw [Runner.runSelected, Finder.find_filtered_of_error h]
  · intro tests h handed
    have hsame : fs.selectTests (gs.selectTests tests) = gs.selectTests (fs.selectTests tests) :=
      FilterSet.selectTests_comm gs fs tests
    have hpartial := runner.partiallySelected_resultsOf gs (fs.selectTests tests) state
    refine ⟨_, _, _, runner.runSelected_filtered h fs gs state, ?_, fun given => ⟨?_, ?_⟩,
      runner.sameTotals_of_exchange fs gs tests state, hpartial, fun hgs => ?_⟩
    · rw [runner.runSelected_filtered h gs fs state, hsame]
    · exact runner.runSelected_recording_filtered h fs gs state given
    · rw [runner.runSelected_recording_filtered h gs fs state given, hsame]
    · have hselect := FilterSet.select_selectTests_of_isEmpty_or_eq hgs tests
      have hnone : (fs.selectTests tests).countP (fun t => gs.Trims t) = 0 := by
        rw [← FilterSet.countP_isPartial_select, hselect, List.countP_eq_zero]
        simp
      constructor
      · rw [hpartial, hnone]
        rfl
      · exact FilterSet.selectTests_eq_self hselect

/-- Two dry runs of a test with three examples, of which the one filter set keeps the last two and
the other the first two.  Both run the second example; so does a run whose filters are the finder's,
and it has no partial tests. -/
theorem filtered_finders_exchange_with_runs_of_overlap :
    let finder : Finder := ⟨fun _ => .ok [Test.ofCount "m.f" 3, Test.ofCount "m.g" 2]⟩
    let fs : FilterSet := ⟨[⟨⟨"f", by decide, ⟨'f', by decide⟩⟩, some ⟨[⟨1, none⟩]⟩⟩]⟩
    let gs : FilterSet := ⟨[⟨⟨"f", by decide, ⟨'f', by decide⟩⟩, some ⟨[⟨0, some 1⟩]⟩⟩]⟩
    (∃ r r' last, Runner.dry.runSelected (finder.filtered fs) "m" gs [] = (.ok r, last) ∧
      Runner.dry.runSelected (finder.filtered gs) "m" fs [] = (.ok r', last) ∧
      r.SameTotals r' ∧ r.partiallySelected = 1) ∧
    (∃ r last, Runner.dry.runSelected (finder.filtered fs) "m" fs [] = (.ok r, last) ∧
      r.partiallySelected = 0) ∧
    Runner.dry.runSelected (Finder.broken "x" |>.filtered fs) "m" gs [] =
      (.error (.discovery (.discovery "m" "x")), []) := by
  intro finder fs gs
  obtain ⟨r, r', last, hrun, hrun', -, htotals, hpartial, -⟩ :=
    (filtered_finders_exchange_with_runs.2 Runner.dry finder "m" fs gs []).2 _ rfl
  obtain ⟨s, -, last', hagain, -, -, -, -, hself⟩ :=
    (filtered_finders_exchange_with_runs.2 Runner.dry finder "m" fs fs []).2 _ rfl
  have hbroken :=
    (filtered_finders_exchange_with_runs.2 Runner.dry (.broken "x") "m" fs gs []).1 _ rfl
  exact ⟨⟨r, r', last, hrun, hrun', htotals, hpartial.trans (by decide)⟩,
    ⟨s, last', hagain, (hself (.inr rfl)).1⟩, hbroken.1⟩

end DoctestSelection
