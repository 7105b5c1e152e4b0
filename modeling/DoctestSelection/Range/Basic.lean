import DoctestSelection.Text.Decimal

/-!
# Ranges of example indices

A range runs from a first index to a last one, both included; it may lack an end, and it may be
reversed, in which case it holds no index.  A range set is a list of ranges that stands for their
union; the order and the repetitions of the list are kept, because they show when it is written.

## Main definitions

* `IndexRange`, `IndexRange.contains`, `IndexRange.isEmpty` — one range.
* `RangeSet`, `RangeSet.contains`, `RangeSet.isEmpty` — a union of ranges.

## Main results

* `IndexRange.contains_iff`, `RangeSet.contains_iff` — what the members are.
* `IndexRange.contains_all`, `RangeSet.contains_all` — every index is in the range of all.
-/

namespace DoctestSelection

/-! ### One range -/

/-- The indices from `start` to `stop`, both included, or to the greatest index if there is no
`stop`. -/
structure IndexRange where
  start : Index
  /-- The last index, if there is one. -/
  stop : Option Index
  deriving DecidableEq, Repr, Inhabited

namespace IndexRange

/-- The range of one index. -/
def single (i : Index) : IndexRange := ⟨i, some i⟩

/-- The range of every index. -/
def all : IndexRange := ⟨0, none⟩

/-- Whether an index lies in the range. -/
def contains (r : IndexRange) (i : Index) : Bool :=
  decide (r.start ≤ i) && r.stop.all fun stop => decide (i ≤ stop)

/-- Whether the range lacks an end. -/
def isUnbounded (r : IndexRange) : Bool := r.stop.isNone

/-- Whether the range is reversed, so that no index lies in it. -/
def isEmpty (r : IndexRange) : Bool := r.stop.any fun stop => decide (stop < r.start)

theorem contains_iff {r : IndexRange} {i : Index} :
    r.contains i = true ↔ r.start ≤ i ∧ ∀ stop, r.stop = some stop → i ≤ stop := by
  rcases r with ⟨start, _ | stop⟩ <;> simp [contains]

@[simp] theorem contains_all (i : Index) : all.contains i = true := by
  simp [contains_iff, all]

@[simp] theorem contains_single {i j : Index} : (single i).contains j = true ↔ j = i := by
  simp only [contains_iff, single, Option.some.injEq, forall_eq']
  exact ⟨fun h => UInt64.le_antisymm h.2 h.1, fun h => by simp [h]⟩

end IndexRange

/-! ### A union of ranges -/

/-- A union of ranges, in the order in which they were written. -/
structure RangeSet where
  ranges : List IndexRange
  deriving DecidableEq, Repr, Inhabited

namespace RangeSet

/-- The set of every index, as one range. -/
def all : RangeSet := ⟨[IndexRange.all]⟩

/-- Whether an index lies in one of the ranges. -/
def contains (s : RangeSet) (i : Index) : Bool := s.ranges.any (·.contains i)

/-- Whether every range is reversed, so that no index lies in the set. -/
def isEmpty (s : RangeSet) : Bool := s.ranges.all (·.isEmpty)

theorem contains_iff {s : RangeSet} {i : Index} :
    s.contains i = true ↔ ∃ r ∈ s.ranges, r.contains i = true := by
  simp [contains]

@[simp] theorem contains_all (i : Index) : all.contains i = true := by
  simp [contains_iff, all]

end RangeSet

end DoctestSelection
