import DoctestSelection.Finder.ModuleTable
import DoctestSelection.Json.Reader
import DoctestSelection.Test.Json

/-!
# Test documents

A test document lists the tests of modules that were discovered elsewhere: an object whose member
`modules` gives an array of tests for each module, or an array of tests alone.  Most fields of a
test may be left out; an example without an index takes its position.

A document is refused as malformed if its text keeps not to the JSON grammar, holds an unreadable
value or nests too deeply; as misshapen if its value is not one of the two kinds; and as malformed
again if something follows the value.  The words in which a JSON reader complains about a malformed
text are left out.

## Main definitions

* `Document.example?`, `Document.test?`, `Document.tests?` — the entries of a document.
* `Document.modules?` — the modules of a document, as they are listed.
* `ModuleTable.ofDocument` — the table of a document.
-/

namespace DoctestSelection

namespace Document

/-! ### Entries -/

/-- The example that stands at a position of a test. -/
def example? (position : Nat) (v : Json) : Option Example :=
  match v.fields? Example.fieldNames with
  | some [index, source, want, lineno] => do
    return {
      index := (← Json.orNull? Json.index? index).getD (UInt64.ofNat position)
      source := ← Json.orDefault? "" Json.string? source
      want := ← Json.orDefault? "" Json.string? want
      lineno := ← Json.orNull? Json.index? lineno }
  | _ => none

/-- The examples of a test. -/
def examples? (v : Json) : Option (List Example) := do
  (← v.items?).zipIdx.mapM fun (item, position) => example? position item

/-- A test.  Its name must be there. -/
def test? (v : Json) : Option Test :=
  match v.fields? Test.fieldNames with
  | some [some name, filename, lineno, examples] => do
    return {
      name := ← name.string?
      filename := ← Json.orNull? Json.string? filename
      lineno := ← Json.orNull? Json.index? lineno
      examples := ← Json.orDefault? [] examples? examples }
  | _ => none

/-- The tests of a module. -/
def tests? (v : Json) : Option (List Test) := do
  (← v.items?).mapM test?

/-! ### Documents -/

/-- The modules of a document, as they are listed.  Tests alone are those of the default module. -/
def modules? : Json → Option (List (String × List Test))
  | .object members =>
    match Json.member? "modules" members with
    | some (some (.object modules)) =>
      modules.mapM fun (name, v) => (tests? v).map (name, ·)
    | _ => none
  | v@(.array _) => (tests? v).map fun tests => [(ModuleTable.defaultModule, tests)]
  | _ => none

/-- The cause for which a document is refused. -/
inductive Fault
  /-- The text is no single JSON value that can be read. -/
  | malformed
  /-- The value is no document. -/
  | misshapen
  deriving DecidableEq, Repr, Inhabited

/-- The wording of a cause.  What exactly is wrong with a malformed text, and where, is for the JSON
reader to tell; a placeholder stands for its words. -/
def Fault.message : Fault → String
  | .malformed => "<json syntax error>"
  | .misshapen => "data did not match any variant of untagged enum TestDocument"

/-- How deeply arrays and objects may be nested in a document. -/
def depthLimit : Nat := 127

/-- The value at the front of a text, if it can be read and is not nested too deeply, and the rest
of the text. -/
def readValue? (text : String) : Option (Json × List Char) :=
  (Json.read text).filter fun (v, _) => v.isReadable && v.depth ≤ depthLimit

/-- The modules of a document, as they are listed. -/
def parse (text : String) : Except Fault (List (String × List Test)) :=
  match readValue? text with
  | none => .error .malformed
  | some (v, rest) =>
    match modules? v with
    | none => .error .misshapen
    -- what follows the value counts only once the value will do
    | some modules => if (skipBlanks rest).isEmpty then .ok modules else .error .malformed

end Document

/-- The table of a document.  Of several lists for one module the last one counts. -/
def ModuleTable.ofDocument (text : String) : Except FindError ModuleTable :=
  match Document.parse text with
  | .ok modules => .ok (ofList modules)
  | .error fault => .error (.invalidDocument fault.message)

/-- The test that a JSON text stands for, and nothing but blanks after it. -/
def Test.parse? (text : String) : Option Test := do
  let (v, rest) ← Json.read text
  let test ← ofJson? v
  if (skipBlanks rest).isEmpty then some test else none

end DoctestSelection
