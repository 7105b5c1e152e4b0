import DoctestSelection.Json.Value
import DoctestSelection.Test.Basic

/-!
# Tests as JSON

A test is written as an object with its fields in the order in which they are declared; a file or
a line that is not known is left out.  When it is read back, every example must tell its index and
its source.

## Main definitions

* `Example.toJson`, `Test.toJson` — examples and tests as values.
* `Example.ofJson?`, `Test.ofJson?` — the examples and tests that values stand for.
-/

namespace DoctestSelection

/-- The fields of an example, in order. -/
def Example.fieldNames : List String := ["index", "source", "want", "lineno"]

/-- The fields of a test, in order. -/
def Test.fieldNames : List String := ["name", "filename", "lineno", "examples"]

/-! ### Writing -/

/-- The member for a field that is left out when it is not known. -/
def Json.optionalMember {α : Type} (name : String) (encode : α → Json) (value? : Option α) :
    List (String × Json) :=
  value?.toList.map fun value => (name, encode value)

/-- An example as a value. -/
def Example.toJson (e : Example) : Json :=
  .object <| [("index", .index e.index), ("source", .string e.source), ("want", .string e.want)] ++
    Json.optionalMember "lineno" Json.index e.lineno

/-- A test as a value. -/
def Test.toJson (t : Test) : Json :=
  .object <| [("name", .string t.name)] ++ Json.optionalMember "filename" Json.string t.filename ++
    Json.optionalMember "lineno" Json.index t.lineno ++
    [("examples", .array (t.examples.map Example.toJson))]

/-! ### Reading -/

/-- The example that a value stands for.  The index and the source must be there. -/
def Example.ofJson? (v : Json) : Option Example :=
  match v.fields? fieldNames with
  | some [some index, some source, want, lineno] => do
    return {
      index := ← index.index?
      source := ← source.string?
      want := ← Json.orDefault? "" Json.string? want
      lineno := ← Json.orNull? Json.index? lineno }
  | _ => none

/-- The test that a value stands for.  The name and the examples must be there. -/
def Test.ofJson? (v : Json) : Option Test :=
  match v.fields? fieldNames with
  | some [some name, filename, lineno, some examples] => do
    return {
      name := ← name.string?
      filename := ← Json.orNull? Json.string? filename
      lineno := ← Json.orNull? Json.index? lineno
      examples := ← (← examples.items?).mapM Example.ofJson? }
  | _ => none

end DoctestSelection
