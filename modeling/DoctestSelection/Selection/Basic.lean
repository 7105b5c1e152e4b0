import DoctestSelection.Filter.Basic
import DoctestSelection.Test.Basic

/-!
# Selecting tests and examples

A filter set keeps of a test the examples that some applicable filter wants, in their order; a test
of which nothing is kept is dropped, and one of which everything is kept is handed on as it is.  A
set without filters keeps every test, also one without examples.

## Main definitions

* `FilterSet.wants fs t e` — some filter of `fs` wants the example `e` of the test `t`.
* `FilterSet.keep? fs t` — what `fs` keeps of the test `t`.
* `FilterSet.select fs tests` — what `fs` keeps of each test, in order.
* `FilterSet.selectTests fs tests` — the tests that are left.

## Main results

* `FilterSet.select_cons` — selection goes test by test.
-/

namespace DoctestSelection

/-- A test as it was kept: itself, or a copy without some of its examples. -/
structure Selected where
  test : Test
  /-- Whether some examples were left out. -/
  isPartial : Bool
  deriving DecidableEq, Repr, Inhabited

namespace FilterSet

/-- Whether some filter applies to the test and wants the example. -/
def wants (fs : FilterSet) (t : Test) (e : Example) : Bool :=
  fs.filters.any fun f => f.acceptsName t.name && f.acceptsIndex e.index

/-- What is kept of a test: nothing, the test itself, or a copy with some of its examples. -/
def keep? (fs : FilterSet) (t : Test) : Option Selected :=
  if fs.isEmpty then some ⟨t, false⟩
  else
    let applicable := fs.matching t.name
    let kept := t.examples.filter fun e => applicable.any (·.acceptsIndex e.index)
    if kept.isEmpty then none
    -- examples are only left out, so as many as before are the same as before
    else if kept.length = t.examples.length then some ⟨t, false⟩
    else some ⟨t.withExamples kept, true⟩

/-- What is kept of each test, in order. -/
def select (fs : FilterSet) (tests : List Test) : List Selected := tests.filterMap fs.keep?

/-- The tests that are left, in order. -/
def selectTests (fs : FilterSet) (tests : List Test) : List Test :=
  (fs.select tests).map (·.test)

@[simp] theorem select_nil (fs : FilterSet) : fs.select [] = [] := rfl

theorem select_cons (fs : FilterSet) (t : Test) (ts : List Test) :
    fs.select (t :: ts) = (fs.keep? t).toList ++ fs.select ts := by
  rw [select, List.filterMap_cons]
  cases fs.keep? t <;> rfl

@[simp] theorem keep?_empty (t : Test) : empty.keep? t = some ⟨t, false⟩ := rfl

end FilterSet

end DoctestSelection
