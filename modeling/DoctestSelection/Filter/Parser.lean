import DoctestSelection.Filter.Basic
import DoctestSelection.Range.Parser

/-!
# Reading filter expressions

A filter is a name pattern, or a name pattern and ranges with a colon between them.  An expression
is cut into the texts of its filters, and these are read one by one; its error is that of the first
filter that has one.  How an expression is cut and how a filter is read are the two parts of an
expression parser.

## Main definitions

* `Filter.splitParts` — the name part and the ranges part of a filter.
* `Filter.parse` — one filter.
* `ExpressionParser`, `ExpressionParser.parse` — how expressions are read.
* `ExpressionParser.standard` — filters are the words of an expression.
-/

namespace DoctestSelection

open Text

/-! ### One filter -/

/-- The name part of a filter, and its ranges part if it has one, as they stand in the text. -/
def Filter.splitParts (text : String) : Except FilterError (String × Option String) :=
  match (trim text).toList.splitOn ':' with
  | [name] => .ok (String.ofList name, none)
  | [name, ranges] => .ok (String.ofList name, some (String.ofList ranges))
  | parts => .error (.tooManyParts (trim text) parts.length)

/-- An error about a name part, told about the whole filter where the part alone says little. -/
def FilterError.inFilter (filter : String) : FilterError → FilterError
  | .emptyName _ => .emptyName filter
  | e => e

/-- The ranges of a filter, from its ranges part if it has one. -/
def Filter.parseRanges : Option String → Except FilterError (Option RangeSet)
  | none => .ok none
  | some ranges => (RangeSet.parse ranges).map some

variable [PatternEngine]

/-- The filter that a text spells.  Its parts are told apart first; then the name is read, and
then the ranges. -/
def Filter.parse (text : String) : Except FilterError Filter := do
  let (name, ranges) ← splitParts text
  let name ← (NamePattern.compile name).mapError (·.inFilter (trim text))
  let ranges ← parseRanges ranges
  return ⟨name, ranges⟩

/-! ### Expressions -/

/-- A way to read filter expressions. -/
structure ExpressionParser where
  /-- The texts of the filters of an expression. -/
  split : String → List String
  /-- The filter that a text spells. -/
  parseFilter : String → Except FilterError Filter

namespace ExpressionParser

/-- The filters of an expression, in order, or the error of the first one that has an error. -/
def parse (p : ExpressionParser) (expression : String) : Except FilterError FilterSet :=
  ((p.split expression).mapM p.parseFilter).map FilterSet.mk

/-- The filters are the words of the expression. -/
def standard : ExpressionParser := ⟨words, Filter.parse⟩

end ExpressionParser

/-- The filters that an expression spells. -/
def FilterSet.parse (expression : String) : Except FilterError FilterSet :=
  ExpressionParser.standard.parse expression

end DoctestSelection
