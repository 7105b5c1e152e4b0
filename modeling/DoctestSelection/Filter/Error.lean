/-!
# Why a filter expression is refused

## Main definitions

* `FilterError` — the causes, each with the text it blames.
* `FilterError.message` — the wording of each cause.
-/

namespace DoctestSelection

/-- The cause for which a filter expression is refused. -/
inductive FilterError
  /-- The filter names no part of a test name. -/
  | emptyName (filter : String)
  /-- The filter has more than a name part and a ranges part. -/
  | tooManyParts (filter : String) (parts : Nat)
  /-- The range has more than one dash. -/
  | tooManyDashes (range : String)
  /-- A bound of a range is not an example index. -/
  | invalidNumber (text : String)
  /-- The name pattern cannot be used. -/
  | invalidPattern (pattern message : String)
  deriving DecidableEq, Repr, Inhabited

/-- The wording of a cause. -/
def FilterError.message : FilterError → String
  | .emptyName filter =>
    "filter '" ++ filter ++ "' must specify at least some part of the test name"
  | .tooManyParts filter parts =>
    "a filter has at most a name part and a ranges part, not " ++ toString parts ++ ": '" ++
      filter ++ "'"
  | .tooManyDashes range =>
    "ranges must be a single number (eg '512'), a range without start (eg '-512'), " ++
      "without end (eg '512-') or with start and end (eg '256-512'), not '" ++ range ++ "'"
  | .invalidNumber text =>
    "example indexes must be non-negative integers, not '" ++ text ++ "'"
  | .invalidPattern pattern message =>
    "invalid name pattern '" ++ pattern ++ "': " ++ message

end DoctestSelection
