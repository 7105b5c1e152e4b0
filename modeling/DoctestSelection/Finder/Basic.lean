import DoctestSelection.Selection.Basic

/-!
# Finding the tests of a module

A finder gives the tests of a module or says why it cannot.  One finder can stand behind another
that hands on only what a filter set keeps.

## Main definitions

* `FindError`, `FindError.message` — why the tests of a module cannot be found.
* `Finder` — a way to find the tests of a module.
* `Finder.filtered` — a finder behind a filter set.
* `Finder.broken` — a finder that never finds anything.
-/

namespace DoctestSelection

/-- The cause for which the tests of a module cannot be found. -/
inductive FindError
  | moduleNotFound (name : String)
  | invalidDocument (message : String)
  /-- The search itself failed. -/
  | discovery (name message : String)
  deriving DecidableEq, Repr, Inhabited

/-- The wording of a cause. -/
def FindError.message : FindError → String
  | .moduleNotFound name => "module not found: " ++ name
  | .invalidDocument message => "invalid test document: " ++ message
  | .discovery name message => "discovery failed for '" ++ name ++ "': " ++ message

/-- A way to find the tests of a module. -/
structure Finder where
  find : String → Except FindError (List Test)

namespace Finder

/-- The finder that hands on only what a filter set keeps.  Without filters there is nothing to
select. -/
def filtered (finder : Finder) (fs : FilterSet) : Finder where
  find name :=
    (finder.find name).map fun tests => if fs.isEmpty then tests else fs.selectTests tests

/-- The finder whose search always fails. -/
def broken (message : String) : Finder where
  find name := .error (.discovery name message)

end Finder

end DoctestSelection
