import DoctestSelection.Text.Decimal

/-!
# Tests and their examples

A test is a piece of documentation with examples in it.  Each example carries its index, which is
its number in the full test: a copy of the test with fewer examples keeps the indices.

## Main definitions

* `Example`, `Test` — the tests that are discovered, selected and run.
* `Test.withExamples` — a copy with other examples.
* `Test.ofCount` — a test with a given number of numbered examples.
-/

namespace DoctestSelection

/-- One example of a test: a piece of code and the output that it should have. -/
structure Example where
  /-- The number of the example within the full test. -/
  index : Index
  source : String
  /-- The output that the code should have. -/
  want : String := ""
  lineno : Option UInt64 := none
  deriving DecidableEq, Repr, Inhabited

/-- A piece of documentation with examples in it. -/
structure Test where
  name : String
  filename : Option String := none
  lineno : Option UInt64 := none
  examples : List Example
  deriving DecidableEq, Repr, Inhabited

namespace Test

/-- The number of examples. -/
def size (t : Test) : Nat := t.examples.length

/-- Whether there are no examples. -/
def isEmpty (t : Test) : Bool := t.examples.isEmpty

/-- The indices of the examples, in order. -/
def indices (t : Test) : List Index := t.examples.map (·.index)

/-- A copy of the test with other examples. -/
def withExamples (t : Test) (examples : List Example) : Test := { t with examples }

/-- A copy of the test that tells its place in a file. -/
def located (t : Test) (filename : String) (lineno : UInt64) : Test :=
  { t with filename := some filename, lineno := some lineno }

/-- A test with examples numbered from zero. -/
def ofCount (name : String) (count : Nat) : Test where
  name
  examples := (List.range count).map fun i =>
    { index := UInt64.ofNat i, source := "example_" ++ toString i }

@[simp] theorem withExamples_name (t : Test) (es : List Example) :
    (t.withExamples es).name = t.name := rfl

@[simp] theorem withExamples_examples (t : Test) (es : List Example) :
    (t.withExamples es).examples = es := rfl

@[simp] theorem withExamples_self (t : Test) : t.withExamples t.examples = t := rfl

@[simp] theorem withExamples_withExamples (t : Test) (es es' : List Example) :
    (t.withExamples es).withExamples es' = t.withExamples es' := rfl

end Test

end DoctestSelection
