import DoctestSelection.Selection.Basic

/-!
# Counting a selection

What a selection keeps is counted in two ways: while the tests are gone through, and afterwards
from the list before and the list after.

## Main definitions

* `Summary` — the counts.
* `FilterSet.selectWithSummary` — selects and counts at once.
* `Summary.totalSize` — the number of examples in a list of tests.
* `Summary.ofLists` — counts a list of tests and what is left of it.
-/

namespace DoctestSelection

/-- The counts of a selection. -/
structure Summary where
  testsDiscovered : Nat := 0
  testsSelected : Nat := 0
  /-- The tests that are left without some of their examples. -/
  testsPartial : Nat := 0
  examplesDiscovered : Nat := 0
  examplesSelected : Nat := 0
  deriving DecidableEq, Repr, Inhabited

namespace Summary

/-- One more test, of which nothing is left. -/
def addDropped (s : Summary) (t : Test) : Summary :=
  { s with
    testsDiscovered := s.testsDiscovered + 1
    examplesDiscovered := s.examplesDiscovered + t.size }

/-- One more test, and what is left of it. -/
def addKept (s : Summary) (t : Test) (kept : Selected) : Summary where
  testsDiscovered := s.testsDiscovered + 1
  testsSelected := s.testsSelected + 1
  testsPartial := s.testsPartial + if kept.isPartial then 1 else 0
  examplesDiscovered := s.examplesDiscovered + t.size
  examplesSelected := s.examplesSelected + kept.test.size

/-- The number of examples of all the tests of a list. -/
def totalSize (tests : List Test) : Nat := tests.foldr (fun t n => t.size + n) 0

/-- The counts of a list of tests and of what is left of it.  A test that is left and is not in the
list is one that lost some of its examples. -/
def ofLists (discovered selected : List Test) : Summary where
  testsDiscovered := discovered.length
  testsSelected := selected.length
  testsPartial := selected.countP fun t => !discovered.contains t
  examplesDiscovered := totalSize discovered
  examplesSelected := totalSize selected

end Summary

/-- What is kept of each test, in order, and the counts of it. -/
def FilterSet.selectWithSummary (fs : FilterSet) : List Test → List Selected × Summary
  | [] => ([], {})
  | t :: ts =>
    let (selected, summary) := fs.selectWithSummary ts
    match fs.keep? t with
    | none => (selected, summary.addDropped t)
    | some kept => (kept :: selected, summary.addKept t kept)

/-- Counting does not change what is kept. -/
theorem FilterSet.selectWithSummary_fst (fs : FilterSet) (tests : List Test) :
    (fs.selectWithSummary tests).1 = fs.select tests := by
  induction tests with
  | nil => rfl
  | cons t ts ih =>
    rw [selectWithSummary, select_cons, ← ih]
    cases fs.keep? t <;> rfl

end DoctestSelection
