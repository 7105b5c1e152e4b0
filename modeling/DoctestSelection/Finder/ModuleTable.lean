import Std.Data.ExtTreeMap
import DoctestSelection.Finder.Basic

/-!
# Tables of modules

A table holds a list of tests for each of its modules.  The modules are ordered by their names,
code point by code point, so only what was registered last for a name counts, not when.

## Main definitions

* `ModuleTable`, `ModuleTable.insert`, `ModuleTable.names` — the tables.
* `ModuleTable.finder` — the finder that looks modules up.
* `ModuleTable.defaultModule` — the module of tests that come without one.

## Main results

* `ModuleTable.tests?_insert` — what a table holds after a registration.
* `ModuleTable.ext` — tables with the same tests for every name are equal.
-/

namespace DoctestSelection

/-- A list of tests for each of some modules. -/
structure ModuleTable where
  tests : Std.ExtTreeMap String (List Test)

namespace ModuleTable

/-- The name of the module of tests that come without one. -/
def defaultModule : String := "__main__"

/-- The table without modules. -/
def empty : ModuleTable := ⟨∅⟩

instance : Inhabited ModuleTable := ⟨empty⟩

/-- The table with the tests of one module registered anew. -/
def insert (table : ModuleTable) (name : String) (tests : List Test) : ModuleTable :=
  ⟨table.tests.insert name tests⟩

/-- The table of a list of modules, of which a later one replaces an earlier one of its name. -/
def ofList (modules : List (String × List Test)) : ModuleTable :=
  modules.foldl (fun table (name, tests) => table.insert name tests) empty

/-- The tests of a module, if it is registered. -/
def tests? (table : ModuleTable) (name : String) : Option (List Test) := table.tests[name]?

/-- The names of the modules, in order. -/
def names (table : ModuleTable) : List String := table.tests.keys

/-- The finder that looks modules up. -/
def finder (table : ModuleTable) : Finder where
  find name :=
    match table.tests? name with
    | some tests => .ok tests
    | none => .error (.moduleNotFound name)

/-- Tables with the same tests for every name are equal. -/
@[ext] theorem ext {s t : ModuleTable} (h : ∀ name, s.tests? name = t.tests? name) : s = t :=
  congrArg ModuleTable.mk (Std.ExtTreeMap.ext_getElem? h)

@[simp] theorem tests?_empty (name : String) : empty.tests? name = none :=
  Std.ExtTreeMap.getElem?_empty

/-- A registration replaces the tests of its module and leaves the others alone. -/
theorem tests?_insert (table : ModuleTable) (name other : String) (tests : List Test) :
    (table.insert name tests).tests? other =
      if name = other then some tests else table.tests? other := by
  simp only [tests?, insert, Std.ExtTreeMap.getElem?_insert, Std.LawfulEqCmp.compare_eq_iff_eq]

/-- The names of a table are those of its modules. -/
theorem mem_names {table : ModuleTable} {name : String} :
    name ∈ table.names ↔ (table.tests? name).isSome := by
  rw [names, Std.ExtTreeMap.mem_keys, tests?, Std.ExtTreeMap.isSome_getElem?_iff_mem]

end ModuleTable

end DoctestSelection
