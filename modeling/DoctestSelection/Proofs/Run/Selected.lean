import DoctestSelection.Proofs.Selection.Counting
import DoctestSelection.Run

/-!
# Running is selecting

A run goes through the tests of a module by itself: it decides for each of them what is kept, and
hands that to the runner at once.  What comes of it is as if the selection had been made first, and
its tests had been handed to the runner one after the other.  The results are then the sums over
what the runner said and the counts of the selection, whatever the runner does with its state.

The sums are kept in 64 bits.  Wrapping around at each outcome comes to the same as wrapping around
once in the end, so the results are exact whenever the sum itself stays below `2 ^ 64`, and only
then does a count of zero mean that there was nothing to count.

The induction is on the tests, for any results and any state that the run goes on from.

## Main definitions

* `Runner.runAll` — hands tests to a runner one after the other.
* `Runner.recording` — a runner that also notes each test that it is given.
* `Results.recordAll` — results with the sums over some outcomes.
* `Results.ofSummary` — the results of a run without failures, from the counts of a selection.

## Main results

* `Runner.runTests_eq` — **a run is a selection that is handed to the runner.**
* `Results.passed_recordAll_iff` — when it can be told from the results that no example failed.
* `Runner.runSelected_dry` — the results of a dry run are the counts of the selection.
-/

namespace DoctestSelection

/-! ### Handing tests to a runner -/

namespace Runner

variable {σ : Type} (runner : Runner σ)

/-- What a runner says of tests that are handed to it one after the other, each in the state that
the one before it left, and the state in the end. -/
def runAll : List Test → σ → List Outcome × σ
  | [], state => ([], state)
  | t :: ts, state =>
    let (outcome, state) := runner.run state t
    let (outcomes, state) := runAll ts state
    (outcome :: outcomes, state)

@[simp] theorem runAll_nil (state : σ) : runner.runAll [] state = ([], state) := rfl

theorem runAll_cons (t : Test) (ts : List Test) (state : σ) :
    runner.runAll (t :: ts) state =
      ((runner.run state t).1 :: (runner.runAll ts (runner.run state t).2).1,
        (runner.runAll ts (runner.run state t).2).2) := rfl

theorem runAll_append (ts us : List Test) (state : σ) :
    runner.runAll (ts ++ us) state =
      ((runner.runAll ts state).1 ++ (runner.runAll us (runner.runAll ts state).2).1,
        (runner.runAll us (runner.runAll ts state).2).2) := by
  induction ts generalizing state with
  | nil => rfl
  | cons t ts ih =>
    rw [List.cons_append, runAll_cons, ih, runAll_cons]
    rfl

/-- The runner that notes each test that it is given, behind those that it was given before. -/
def recording : Runner (σ × List Test) where
  run := fun (state, given) t => ((runner.run state t).1, (runner.run state t).2, given ++ [t])

/-- A runner that notes its tests does nothing else differently. -/
theorem runAll_recording (ts : List Test) (state : σ) (given : List Test) :
    runner.recording.runAll ts (state, given) =
      ((runner.runAll ts state).1, (runner.runAll ts state).2, given ++ ts) := by
  induction ts generalizing state given with
  | nil => rw [runAll_nil, runAll_nil, List.append_nil]
  | cons t ts ih =>
    have hrun : runner.recording.run (state, given) t =
      ((runner.run state t).1, (runner.run state t).2, given ++ [t]) := rfl
    rw [runAll_cons, hrun, ih, List.append_assoc, runAll_cons]
    rfl

theorem runAll_dry (ts : List Test) (seen : List String) :
    dry.runAll ts seen = (ts.map fun t => ⟨0, .ofNat t.size⟩, seen ++ ts.map (·.name)) := by
  induction ts generalizing seen with
  | nil => rw [runAll_nil, List.map_nil, List.map_nil, List.append_nil]
  | cons t ts ih =>
    have hrun : dry.run seen t = (⟨0, .ofNat t.size⟩, seen ++ [t.name]) := rfl
    rw [runAll_cons, hrun, ih, List.append_assoc]
    rfl

end Runner

/-! ### Sums over outcomes -/

/-- Numbers that are cut to 64 bits one by one add up to the same 64 bits. -/
theorem ofNat_sum_toNat_ofNat (ns : List Nat) :
    UInt64.ofNat (ns.map fun n => (UInt64.ofNat n).toNat).sum = .ofNat ns.sum := by
  induction ns with
  | nil => rfl
  | cons n ns ih =>
    rw [List.map_cons, List.sum_cons, List.sum_cons, UInt64.ofNat_add, UInt64.ofNat_add, ih,
      UInt64.ofNat_toNat]

namespace Results

variable {selected : List Selected} {outcomes : List Outcome}

/-- The results after what is kept of some more tests was run, with the outcomes of that. -/
def recordAll (r : Results) (selected : List Selected) (outcomes : List Outcome) : Results where
  failed := r.failed + .ofNat (outcomes.map (·.failed.toNat)).sum
  attempted := r.attempted + .ofNat (outcomes.map (·.attempted.toNat)).sum
  testsRun := r.testsRun + .ofNat selected.length
  partiallySelected := r.partiallySelected + .ofNat (selected.countP (·.isPartial))

theorem recordAll_nil (r : Results) : r.recordAll [] [] = r := by
  simp [recordAll]

theorem recordAll_cons (r : Results) (s : Selected) (selected : List Selected) (o : Outcome)
    (outcomes : List Outcome) :
    r.recordAll (s :: selected) (o :: outcomes) =
      (r.record o s.isPartial).recordAll selected outcomes := by
  have htests : UInt64.ofNat (s :: selected).length = 1 + .ofNat selected.length := by
    rw [List.length_cons, Nat.add_comm, UInt64.ofNat_add]
    rfl
  have hpartial : UInt64.ofNat ((s :: selected).countP (·.isPartial)) =
      (if s.isPartial then 1 else 0) + .ofNat (selected.countP (·.isPartial)) := by
    rw [List.countP_cons, Nat.add_comm, UInt64.ofNat_add]
    cases s.isPartial <;> rfl
  unfold recordAll record
  simp only [List.map_cons, List.sum_cons, htests, hpartial, UInt64.ofNat_add, UInt64.ofNat_toNat,
    UInt64.add_assoc]

theorem recordAll_default (selected : List Selected) (outcomes : List Outcome) :
    recordAll {} selected outcomes = {
      failed := .ofNat (outcomes.map (·.failed.toNat)).sum
      attempted := .ofNat (outcomes.map (·.attempted.toNat)).sum
      testsRun := .ofNat selected.length
      partiallySelected := .ofNat (selected.countP (·.isPartial)) } := by
  simp only [recordAll, UInt64.zero_add]

/-- The results of a run that lets no example fail, from the counts of a selection. -/
def ofSummary (summary : Summary) : Results where
  failed := 0
  attempted := .ofNat summary.examplesSelected
  testsRun := .ofNat summary.testsSelected
  partiallySelected := .ofNat summary.testsPartial

theorem passed_iff (r : Results) : r.passed = true ↔ r.failed = 0 := by
  rw [passed, beq_iff_eq]

theorem toNat_failed_recordAll (h : (outcomes.map (·.failed.toNat)).sum < 2 ^ 64) :
    (recordAll {} selected outcomes).failed.toNat = (outcomes.map (·.failed.toNat)).sum := by
  rw [recordAll_default]
  exact UInt64.toNat_ofNat_of_lt' h

theorem toNat_attempted_recordAll (h : (outcomes.map (·.attempted.toNat)).sum < 2 ^ 64) :
    (recordAll {} selected outcomes).attempted.toNat =
      (outcomes.map (·.attempted.toNat)).sum := by
  rw [recordAll_default]
  exact UInt64.toNat_ofNat_of_lt' h

/-- A sum that does not wrap around tells whether anything was summed up. -/
theorem passed_recordAll_iff (h : (outcomes.map (·.failed.toNat)).sum < 2 ^ 64) :
    (recordAll {} selected outcomes).passed = true ↔ ∀ o ∈ outcomes, o.failed = 0 := by
  rw [passed_iff, ← UInt64.toNat_inj, toNat_failed_recordAll h]
  show (outcomes.map (·.failed.toNat)).sum = 0 ↔ _
  rw [List.sum_eq_zero_iff_forall_eq_nat, List.forall_mem_map]
  simp only [← UInt64.toNat_inj, UInt64.toNat_zero]

end Results

/-! ### A run is a selection that is handed to the runner -/

namespace Runner

variable {σ : Type} (runner : Runner σ)

/-- **A run is a selection that is handed to the runner.** -/
theorem runTests_eq (fs : FilterSet) (tests : List Test) (results : Results) (state : σ) :
    runner.runTests fs tests results state =
      (results.recordAll (fs.select tests) (runner.runAll (fs.selectTests tests) state).1,
        (runner.runAll (fs.selectTests tests) state).2) := by
  induction tests generalizing results state with
  | nil =>
    show _ = (results.recordAll [] [], state)
    rw [runTests_nil, Results.recordAll_nil]
  | cons t ts ih =>
    rw [runTests_cons]
    cases h : fs.keep? t with
    | none =>
      -- a dropped test hands its results and its state on untouched
      rw [FilterSet.selectTests_cons_of_none h, FilterSet.select_cons_of_none h]
      exact ih results state
    | some s =>
      show runner.runTests fs ts (results.record (runner.run state s.test).1 s.isPartial)
        (runner.run state s.test).2 = _
      rw [ih, FilterSet.selectTests_cons_of_some h, FilterSet.select_cons_of_some h, runAll_cons,
        Results.recordAll_cons]

variable {finder : Finder} {moduleName : String} {tests : List Test}

/-- A run of a module that is found. -/
theorem runSelected_of_find (h : finder.find moduleName = .ok tests) (fs : FilterSet) (state : σ) :
    runner.runSelected finder moduleName fs state =
      (.ok (Results.recordAll {} (fs.select tests) (runner.runAll (fs.selectTests tests) state).1),
        (runner.runAll (fs.selectTests tests) state).2) := by
  rw [runSelected, h]
  show (Except.ok (runner.runTests fs tests {} state).1, (runner.runTests fs tests {} state).2) = _
  rw [runTests_eq]

/-- A dry run attempts the selected examples and lets none fail. -/
theorem recordAll_runAll_dry (fs : FilterSet) (tests : List Test) (seen : List String) :
    Results.recordAll {} (fs.select tests) (dry.runAll (fs.selectTests tests) seen).1 =
      .ofSummary (fs.selectWithSummary tests).2 := by
  have hfailed : (((fs.selectTests tests).map fun t => (⟨0, .ofNat t.size⟩ : Outcome)).map
      (·.failed.toNat)).sum = 0 := by
    rw [List.map_map, List.sum_eq_zero_iff_forall_eq_nat, List.forall_mem_map]
    exact fun _ _ => rfl
  have hattempted : UInt64.ofNat (((fs.selectTests tests).map
      fun t => (⟨0, .ofNat t.size⟩ : Outcome)).map (·.attempted.toNat)).sum =
      .ofNat (Summary.totalSize (fs.selectTests tests)) := by
    have hsizes := ofNat_sum_toNat_ofNat ((fs.selectTests tests).map Test.size)
    rw [List.map_map] at hsizes
    rw [Summary.totalSize_eq_sum, List.map_map]
    exact hsizes
  rw [FilterSet.selectWithSummary_snd, runAll_dry, Results.recordAll_default, hfailed, hattempted]
  rfl

theorem runSelected_dry (h : finder.find moduleName = .ok tests) (fs : FilterSet)
    (seen : List String) :
    dry.runSelected finder moduleName fs seen =
      (.ok (.ofSummary (fs.selectWithSummary tests).2),
        seen ++ (fs.selectTests tests).map (·.name)) := by
  rw [runSelected_of_find dry h, recordAll_runAll_dry, runAll_dry]

end Runner

end DoctestSelection
