import DoctestSelection.Pattern.Basic
import DoctestSelection.Range.Printer

/-!
# Filters and filter sets

A filter names tests by a pattern and, if it has ranges, narrows down their examples.  The filters
of one expression form a filter set; a set without filters does not filter at all.

## Main definitions

* `Filter`, `Filter.acceptsName`, `Filter.acceptsIndex` — one filter.
* `FilterSet`, `FilterSet.matching` — the filters of an expression.
* `Filter.text`, `FilterSet.text` — the normalized form of an expression.
-/

namespace DoctestSelection

/-! ### One filter -/

/-- A filter: a name pattern, and the ranges of the examples it wants if that is not all of them. -/
structure Filter where
  name : NamePattern
  /-- The ranges of the examples, if they are narrowed down. -/
  ranges : Option RangeSet
  deriving DecidableEq

namespace Filter

/-- Whether the filter applies to the test of a name. -/
def acceptsName (f : Filter) (name : String) : Bool := f.name.accepts name

/-- Whether the filter wants the example of an index, in a test to which it applies. -/
def acceptsIndex (f : Filter) (i : Index) : Bool := f.ranges.all (·.contains i)

/-- The characters of a filter as it is written: the name, and the ranges after a colon. -/
def chars (f : Filter) : List Char :=
  f.name.text.toList ++ f.ranges.elim [] fun ranges => ':' :: ranges.chars

/-- A filter as it is written. -/
def text (f : Filter) : String := String.ofList f.chars

@[simp] theorem toList_text (f : Filter) : f.text.toList = f.chars := String.toList_ofList

end Filter

/-! ### The filters of an expression -/

/-- The filters of an expression, in order.  Without filters every example is wanted. -/
structure FilterSet where
  filters : List Filter
  deriving DecidableEq

namespace FilterSet

/-- The set without filters. -/
def empty : FilterSet := ⟨[]⟩

instance : Inhabited FilterSet := ⟨empty⟩

/-- Whether there is no filter. -/
def isEmpty (fs : FilterSet) : Bool := fs.filters.isEmpty

/-- The number of filters. -/
def size (fs : FilterSet) : Nat := fs.filters.length

/-- The filters that apply to the test of a name, in order. -/
def matching (fs : FilterSet) (name : String) : List Filter :=
  fs.filters.filter (·.acceptsName name)

/-- The characters of a filter set as it is written: the filters, separated by spaces. -/
def chars (fs : FilterSet) : List Char := [' '].intercalate (fs.filters.map Filter.chars)

/-- A filter set as it is written. -/
def text (fs : FilterSet) : String := String.ofList fs.chars

@[simp] theorem toList_text (fs : FilterSet) : fs.text.toList = fs.chars := String.toList_ofList

end FilterSet

end DoctestSelection
