import DoctestSelection.Filter.Error
import DoctestSelection.Range.Basic

/-!
# Reading ranges

A range is read from text as a number, or as two bounds around a dash, either of which may be
missing; nothing at all is the range of every index.  Any blank may surround the whole range, but
only spaces and tabs may stand beside the dash.  A range set is a comma-separated list of ranges.

Bounds are taken off the front of a text one after the other.  Where no number can be taken, because
no digits stand there or because they are too many, the bound counts as missing and nothing is
taken; a text is a range when nothing of it is left in the end.

## Main definitions

* `Index.take?` — a number off the front of a text.
* `IndexRange.take` — a range off the front of a text.
* `Index.parse` — a single number.
* `IndexRange.parse` — a single range.
* `RangeSet.parse` — a list of ranges; the error is that of the first range that has one.
* `IndexRange.blamed` — the part of a refused range that its error names.
-/

namespace DoctestSelection

open Text

/-! ### Numbers -/

/-- The blanks that may stand around a number within a range. -/
def IndexRange.isBoundBlank (c : Char) : Bool := c == ' ' || c == '\t'

namespace Index

open IndexRange (isBoundBlank)

/-- An index taken off the front of a text, together with the blanks around it, and what is left of
the text. -/
def take? (cs : List Char) : Option (Index × List Char) :=
  let unread := cs.dropWhile isBoundBlank
  (ofDigits? (unread.takeWhile Char.isDigit)).map fun i =>
    (i, (unread.dropWhile Char.isDigit).dropWhile isBoundBlank)

/-- A single index, with any blanks around it. -/
def parse (text : String) : Except FilterError Index :=
  match take? (trimList text.toList) with
  | some (i, []) => .ok i
  | _ => .error (.invalidNumber (trim text))

end Index

/-! ### Ranges -/

namespace IndexRange

/-- A bound taken off the front of a text, and what is left of the text: all of it, if the bound is
missing. -/
def takeBound (cs : List Char) : Option Index × List Char :=
  match Index.take? cs with
  | some (i, rest) => (some i, rest)
  | none => (none, cs)

/-- Two bounds around a dash, taken off the front of a text. -/
def takeBounds? (cs : List Char) : Option (IndexRange × List Char) :=
  match takeBound cs with
  | (start, '-' :: rest) =>
    let (stop, rest) := takeBound rest
    some (⟨start.getD 0, stop⟩, rest)
  | _ => none

/-- A range taken off the front of a text: two bounds around a dash or, if there is no dash behind
the first bound, that bound alone. -/
def take (cs : List Char) : IndexRange × List Char :=
  match takeBounds? cs with
  | some taken => taken
  | none =>
    let (bound, rest) := takeBound cs
    (bound.elim all single, rest)

/-- Whether a part of a range, without the blanks around it, is there but is not an index. -/
def isBadPart (part : List Char) : Bool := !part.isEmpty && (Index.ofDigits? part).isNone

/-- What the error about a refused range names: the first part that is not an index, or the whole
range if each part would do by itself. -/
def blamed (cs : List Char) : List Char :=
  (((cs.splitOn '-').map trimList).find? isBadPart).getD cs

/-- The range that trimmed text spells. -/
def parseTrimmed (cs : List Char) : Except FilterError IndexRange :=
  if 2 ≤ cs.count '-' then .error (.tooManyDashes (String.ofList cs))
  else match take cs with
    | (r, []) => .ok r
    | _ => .error (.invalidNumber (String.ofList (blamed cs)))

/-- The range that a text spells. -/
def parse (text : String) : Except FilterError IndexRange := parseTrimmed (trimList text.toList)

end IndexRange

/-! ### Range sets -/

/-- The range set that a comma-separated list of ranges spells. -/
def RangeSet.parse (text : String) : Except FilterError RangeSet :=
  ((text.toList.splitOn ',').mapM fun part => IndexRange.parse (String.ofList part)).map RangeSet.mk

end DoctestSelection
