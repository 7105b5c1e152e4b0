import DoctestSelection.Text.Decimal

/-!
# Lists of indices as runs

A list of example indices is shown as runs of consecutive indices, in the order of the list.
Indices that are out of order or repeated start a run of their own, and the greatest index has no
successor, so it ends its run.

## Main definitions

* `IndexRun` — consecutive indices, from a first to a last.
* `indexRuns` — the runs of a list, each as long as can be.
* `formatIndices` — the runs as text.
-/

namespace DoctestSelection

/-- Consecutive indices from `first` to `last`. -/
structure IndexRun where
  first : Index
  last : Index
  deriving DecidableEq, Repr, Inhabited

namespace IndexRun

/-- A run of more than one index is written with a dash. -/
def chars (r : IndexRun) : List Char :=
  if r.first = r.last then r.first.digits else r.first.digits ++ '-' :: r.last.digits

/-- An index in front of a list of runs: it extends the first run if that goes on from it. -/
def push (i : Index) : List IndexRun → List IndexRun
  | [] => [⟨i, i⟩]
  | r :: rs =>
    -- the successor of the greatest index would wrap around
    if i ≠ Index.greatest ∧ i + 1 = r.first then ⟨i, r.last⟩ :: rs else ⟨i, i⟩ :: r :: rs

end IndexRun

/-- The runs of a list of indices, in order, each as long as can be. -/
def indexRuns (is : List Index) : List IndexRun := is.foldr IndexRun.push []

/-- A list of indices as text: its runs, separated by commas. -/
def formatIndices (is : List Index) : String :=
  String.ofList ([','].intercalate ((indexRuns is).map IndexRun.chars))

@[simp] theorem indexRuns_nil : indexRuns [] = [] := rfl

@[simp] theorem indexRuns_cons (i : Index) (is : List Index) :
    indexRuns (i :: is) = IndexRun.push i (indexRuns is) := rfl

end DoctestSelection
