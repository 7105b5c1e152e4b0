import DoctestSelection.Selection.Summary
import Mathlib.Algebra.GroupWithZero.Nat

/-!
# The counts of a selection

The counts that are kept while the tests are gone through are those of the finished lists: how many
tests and examples there were, how many are left, and how many tests are left without some of their
examples.

## Main results

* `FilterSet.selectWithSummary_snd` — the counts, read off the lists.
-/

namespace DoctestSelection

theorem Summary.totalSize_eq_sum (tests : List Test) :
    totalSize tests = (tests.map Test.size).sum := by
  induction tests with
  | nil => rfl
  | cons t ts ih =>
    rw [List.map_cons, List.sum_cons, ← ih]
    rfl

namespace FilterSet

variable {fs : FilterSet} {t : Test}

theorem select_cons_of_none (h : fs.keep? t = none) (ts : List Test) :
    fs.select (t :: ts) = fs.select ts := List.filterMap_cons_none h

theorem select_cons_of_some {s : Selected} (h : fs.keep? t = some s) (ts : List Test) :
    fs.select (t :: ts) = s :: fs.select ts := List.filterMap_cons_some h

theorem selectTests_cons_of_none (h : fs.keep? t = none) (ts : List Test) :
    fs.selectTests (t :: ts) = fs.selectTests ts := by
  rw [selectTests, select_cons_of_none h]
  rfl

theorem selectTests_cons_of_some {s : Selected} (h : fs.keep? t = some s) (ts : List Test) :
    fs.selectTests (t :: ts) = s.test :: fs.selectTests ts := by
  rw [selectTests, select_cons_of_some h, List.map_cons]
  rfl

theorem map_test_selectWithSummary (fs : FilterSet) (tests : List Test) :
    (fs.selectWithSummary tests).1.map (·.test) = fs.selectTests tests := by
  rw [selectWithSummary_fst]
  rfl

/-- The counts that are kept along the way are those of the lists before and after. -/
theorem selectWithSummary_snd (fs : FilterSet) (tests : List Test) :
    (fs.selectWithSummary tests).2 = {
      testsDiscovered := tests.length
      testsSelected := (fs.select tests).length
      testsPartial := (fs.select tests).countP (·.isPartial)
      examplesDiscovered := Summary.totalSize tests
      examplesSelected := Summary.totalSize (fs.selectTests tests) } := by
  induction tests with
  | nil => rfl
  | cons t ts ih =>
    rw [selectWithSummary]
    have hsize : Summary.totalSize (t :: ts) = Summary.totalSize ts + t.size := Nat.add_comm _ _
    cases h : fs.keep? t with
    | none =>
      show (fs.selectWithSummary ts).2.addDropped t = _
      rw [ih, select_cons_of_none h, selectTests_cons_of_none h, List.length_cons, hsize]
      rfl
    | some s =>
      show (fs.selectWithSummary ts).2.addKept t s = _
      have hleft : Summary.totalSize (s.test :: fs.selectTests ts) =
          Summary.totalSize (fs.selectTests ts) + s.test.size := Nat.add_comm _ _
      rw [ih, select_cons_of_some h, selectTests_cons_of_some h, List.length_cons,
        List.length_cons, List.countP_cons, hsize, hleft]
      rfl

end FilterSet

end DoctestSelection
