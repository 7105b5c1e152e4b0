import DoctestSelection.Range.Basic

/-!
# The written form of ranges

A range is written with as few bounds as tell it: a start of zero and a missing end are left out
around the dash, and a range of one index is that index alone.  The ranges of a set are separated
by commas.

## Main definitions

* `IndexRange.chars`, `IndexRange.text` — a range as text.
* `RangeSet.chars`, `RangeSet.text` — a range set as text.
-/

namespace DoctestSelection

/-- The characters of a range as it is written. -/
def IndexRange.chars (r : IndexRange) : List Char :=
  match r.stop with
  | none => if r.start = 0 then ['-'] else r.start.digits ++ ['-']
  | some stop =>
    if r.start = stop then r.start.digits
    else if r.start = 0 then '-' :: stop.digits
    else r.start.digits ++ '-' :: stop.digits

/-- A range as it is written. -/
def IndexRange.text (r : IndexRange) : String := String.ofList r.chars

/-- The characters of a range set as it is written. -/
def RangeSet.chars (s : RangeSet) : List Char := [','].intercalate (s.ranges.map IndexRange.chars)

/-- A range set as it is written. -/
def RangeSet.text (s : RangeSet) : String := String.ofList s.chars

@[simp] theorem IndexRange.toList_text (r : IndexRange) : r.text.toList = r.chars :=
  String.toList_ofList

@[simp] theorem RangeSet.toList_text (s : RangeSet) : s.text.toList = s.chars :=
  String.toList_ofList

@[simp] theorem IndexRange.chars_all : IndexRange.all.chars = ['-'] := rfl

@[simp] theorem IndexRange.chars_single (i : Index) : (single i).chars = i.digits := by
  simp [chars, single]

end DoctestSelection
