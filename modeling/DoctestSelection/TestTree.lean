import DoctestSelection.Document
import DoctestSelection.Failure

/-!
# Test trees

A test tree is a test document together with the place that it comes from.  Bytes that are no text
are the fault of whoever names a file, and a fault of the system on the standard input.

## Main definitions

* `pathSteps` — the steps of a path; two paths with the same steps are the same.
* `isStandardInput` — whether a path stands for the standard input.
* `TreeSource` — where a test tree comes from, and what is there.
* `TreeSource.table` — the modules of a test tree.
* `ModuleTable.resolve` — the module to work on.
-/

namespace DoctestSelection

/-! ### Paths -/

/-- The steps of a path, which stand between its slashes.  Behind the first one, an empty step and a
lone dot lead nowhere and do not count; an empty first step is the root. -/
def pathSteps (path : List Char) : List (List Char) :=
  match path.splitOn '/' with
  | [] => []
  | first :: rest => first :: rest.filter fun step => !step.isEmpty && step != ['.']

/-- Whether a path stands for the standard input: its only step is a dash. -/
def isStandardInput (path : String) : Bool := pathSteps path.toList == [['-']]

/-! ### Test trees -/

/-- Where a test tree comes from, and what is there. -/
inductive TreeSource
  /-- A file, and its bytes or why it cannot be read. -/
  | file (path : String) (content : Except String ByteArray)
  | standardInput (content : ByteArray)

namespace TreeSource

/-- The complaint about bytes that are no text. -/
def notTextMessage : String := "stream did not contain valid UTF-8"

/-- The failure to read a file. -/
def unreadable (path message : String) : Failure :=
  .invalidArguments ("cannot read " ++ path ++ ": " ++ message)

/-- The text of a test tree. -/
def text : TreeSource → Except Failure String
  | .file path (.error message) => .error (unreadable path message)
  | .file path (.ok bytes) =>
    match String.fromUTF8? bytes with
    | some text => .ok text
    | none => .error (unreadable path notTextMessage)
  | .standardInput bytes =>
    match String.fromUTF8? bytes with
    | some text => .ok text
    | none => .error (.io notTextMessage)

/-- The modules of a test tree. -/
def table (source : TreeSource) : Except Failure ModuleTable := do
  let text ← source.text
  (ModuleTable.ofDocument text).mapError .discovery

end TreeSource

/-- The module to work on: the one that is asked for, whether there is one of that name or not; or
else the only module; or else the default module. -/
def ModuleTable.resolve (table : ModuleTable) : Option String → Except Failure String
  | some name => .ok name
  | none =>
    match table.names with
    | [only] => .ok only
    | [] => .error (.invalidArguments "the test tree holds no modules")
    | names =>
      if defaultModule ∈ names then .ok defaultModule
      else .error (.invalidArguments
        ("the test tree holds several modules, pick one with --module: " ++
          ", ".intercalate names))

end DoctestSelection
