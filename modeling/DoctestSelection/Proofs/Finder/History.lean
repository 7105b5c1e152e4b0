import DoctestSelection.Proofs.Document.Source
import DoctestSelection.Proofs.Text.ByteOrder

/-!
# Tables with a history

A table comes about step by step: modules are registered, and documents are loaded, which starts
anew with the modules of the document.  After any number of steps the table is that of the modules
registered since then, in order, so it holds for each name what was registered last for it, and no
more can be found out about its history.

The names of a table are those of its modules, once each, in the order of their bytes.  The module
that is picked without a name is one of them: the only one, or the default module among several.

## Main definitions

* `TableStep`, `TableStep.perform` — the steps, and what a step makes of a table.
* `TableStep.register` — the modules registered after a step.
* `ModuleTable.after`, `registered` — the table after some steps, and what is registered then.
* `StandsLast modules name tests` — the tests that stand last for a name.
* `ModuleTable.Reflects table modules` — a table that shows what was registered last, and no more.

## Main results

* `TableStep.perform_ofList` — **what a step makes of a table of registered modules.**
* `ModuleTable.after_eq_ofList` — **the table after some steps is that of the registered modules.**
* `tables_show_last_registrations` — all of this, and which module is picked.
-/

namespace DoctestSelection

open Text

/-! ### Steps -/

/-- A step in the history of a table. -/
inductive TableStep
  /-- The tests of a module are registered, in place of earlier ones of its name; whether the table
  itself is changed or a copy is made does not matter. -/
  | insert (name : String) (tests : List Test)
  /-- A document is loaded, in place of all modules. -/
  | load (text : String)

namespace TableStep

/-- What a step makes of a table.  A document that is refused leaves it as it is. -/
def perform (table : ModuleTable) : TableStep → ModuleTable
  | .insert name tests => table.insert name tests
  | .load text =>
    match ModuleTable.ofDocument text with
    | .ok loaded => loaded
    | .error _ => table

/-- The modules that are registered after a step, in order. -/
def register (earlier : List (String × List Test)) : TableStep → List (String × List Test)
  | .insert name tests => earlier ++ [(name, tests)]
  | .load text =>
    match Document.parse text with
    | .ok modules => modules
    | .error _ => earlier

/-- **What a step makes of a table of registered modules.** -/
theorem perform_ofList (earlier : List (String × List Test)) (step : TableStep) :
    step.perform (.ofList earlier) = .ofList (step.register earlier) := by
  cases step with
  | insert name tests => exact (ModuleTable.ofList_append_singleton earlier name tests).symm
  | load text =>
    show (match ModuleTable.ofDocument text with
      | .ok loaded => loaded
      | .error _ => .ofList earlier) = _
    rw [ModuleTable.ofDocument, register]
    cases Document.parse text <;> rfl

end TableStep

/-- The modules that are registered after some steps, in order. -/
def registered (steps : List TableStep) : List (String × List Test) :=
  steps.foldl TableStep.register []

/-- The tests that stand last for a name in a list of modules. -/
def StandsLast (modules : List (String × List Test)) (name : String) (tests : List Test) : Prop :=
  ∃ before after, modules = before ++ (name, tests) :: after ∧ ∀ m ∈ after, m.1 ≠ name

theorem standsLast_iff_lookup {modules : List (String × List Test)} {name : String}
    {tests : List Test} :
    StandsLast modules name tests ↔ modules.reverse.lookup name = some tests := by
  rw [← ModuleTable.tests?_ofList_eq_lookup, ModuleTable.tests?_ofList, StandsLast]

namespace ModuleTable

/-- The table after some steps, which starts without modules. -/
def after (steps : List TableStep) : ModuleTable := steps.foldl TableStep.perform empty

/-- **The table after some steps is that of the registered modules.** -/
theorem after_eq_ofList (steps : List TableStep) : after steps = ofList (registered steps) := by
  have hrun : ∀ earlier, steps.foldl TableStep.perform (ofList earlier) =
      ofList (steps.foldl TableStep.register earlier) := by
    induction steps with
    | nil => exact fun earlier => rfl
    | cons step steps ih =>
      intro earlier
      rw [List.foldl_cons, List.foldl_cons, TableStep.perform_ofList, ih]
  exact hrun []

/-! ### Names -/

variable {table : ModuleTable} {modules modules' : List (String × List Test)} {name : String}

/-- The names of a table are in the order of their bytes. -/
theorem pairwise_bytes_names (table : ModuleTable) :
    table.names.Pairwise fun a b => bytes a < bytes b := by
  refine (Std.ExtTreeMap.ordered_keys (t := table.tests)).imp ?_
  intro a b hab
  exact bytes_lt_bytes (compareOfLessAndEq_eq_lt.1 hab)

theorem nodup_names (table : ModuleTable) : table.names.Nodup := Std.ExtTreeMap.nodup_keys

/-! ### What a table shows -/

/-- A table that shows which modules were registered and what was registered last for each of them,
and no more. -/
structure Reflects (table : ModuleTable) (modules : List (String × List Test)) : Prop where
  /-- The names are in the order of their bytes. -/
  increasing : table.names.Pairwise fun a b => bytes a < bytes b
  /-- No name is there twice. -/
  nodup : table.names.Nodup
  mem_names : ∀ name, name ∈ table.names ↔ ∃ tests, (name, tests) ∈ modules
  find_ok : ∀ name tests, table.finder.find name = .ok tests ↔ StandsLast modules name tests
  find_error : ∀ name e, table.finder.find name = .error e ↔
    (∀ tests, (name, tests) ∉ modules) ∧ e = .moduleNotFound name

theorem mem_names_ofList_iff :
    name ∈ (ofList modules).names ↔ ∃ tests, (name, tests) ∈ modules := by
  rw [mem_names_ofList, List.mem_map]
  simp only [Prod.exists, exists_and_right, exists_eq_right]

theorem reflects_ofList (modules : List (String × List Test)) :
    (ofList modules).Reflects modules where
  increasing := pairwise_bytes_names _
  nodup := nodup_names _
  mem_names name := mem_names_ofList_iff
  find_ok name tests := by rw [find_finder_eq_ok_iff, tests?_ofList, StandsLast]
  find_error name e := by rw [find_finder_eq_error_iff, mem_names_ofList_iff, not_exists]

/-- Only what stands last for each name counts. -/
theorem ofList_congr
    (h : ∀ name tests, StandsLast modules name tests ↔ StandsLast modules' name tests) :
    ofList modules = ofList modules' := by
  refine ModuleTable.ext fun name => Option.ext fun tests => ?_
  rw [tests?_ofList, tests?_ofList]
  exact h name tests

/-- A registration leaves the other modules alone. -/
theorem find_finder_insert_of_ne {other : String} (h : other ≠ name) (tests : List Test) :
    (table.insert name tests).finder.find other = table.finder.find other := by
  have hother : (table.insert name tests).tests? other = table.tests? other := by
    rw [tests?_insert, if_neg h.symm]
  simp only [finder, hother]

/-- The module that is picked without a name is found. -/
theorem exists_find_of_resolve_none (h : table.resolve none = .ok name) :
    ∃ tests, table.finder.find name = .ok tests := by
  obtain ⟨tests, htests⟩ :=
    Option.isSome_iff_exists.1 (ModuleTable.mem_names.1 (mem_names_of_resolve_none h))
  exact ⟨tests, find_finder_eq_ok_iff.2 htests⟩

end ModuleTable

/-- **A table shows what was registered last for each name.**  After any steps its names are those of
the registered modules, once each and in the order of their bytes; what was registered last for a
name is found, and nothing is found for another name.  A registration leaves the other modules alone,
and steps with the same last registrations lead to the same table.  Without a name the only module
is picked, or the default module among several, and it is found; otherwise the failure says that
there are no modules or lists their names.  A name that is given is taken as it is. -/
theorem tables_show_last_registrations (steps : List TableStep) :
    let table := ModuleTable.after steps
    table.Reflects (registered steps) ∧
    (∀ name tests other, other ≠ name →
      (table.insert name tests).finder.find other = table.finder.find other) ∧
    (∀ steps',
      (∀ name tests,
        StandsLast (registered steps') name tests ↔ StandsLast (registered steps) name tests) →
      ModuleTable.after steps' = table) ∧
    (∀ name, table.resolve none = .ok name ↔
      table.names = [name] ∨
        (2 ≤ table.names.length ∧ "__main__" ∈ table.names ∧ name = "__main__")) ∧
    (∀ name, table.resolve none = .ok name → ∃ tests, table.finder.find name = .ok tests) ∧
    (∀ e, table.resolve none = .error e ↔ table.ChoiceFault e) ∧
    ∀ name, table.resolve (some name) = .ok name := by
  intro table
  refine ⟨?_, fun name tests other h => ModuleTable.find_finder_insert_of_ne h tests,
    fun steps' h => ?_, fun name => ModuleTable.resolve_none_eq_ok_iff,
    fun name => ModuleTable.exists_find_of_resolve_none,
    fun e => ModuleTable.resolve_none_eq_error_iff, fun name => rfl⟩
  · show (ModuleTable.after steps).Reflects (registered steps)
    rw [ModuleTable.after_eq_ofList]
    exact ModuleTable.reflects_ofList _
  · show ModuleTable.after steps' = ModuleTable.after steps
    rw [ModuleTable.after_eq_ofList, ModuleTable.after_eq_ofList]
    exact ModuleTable.ofList_congr h

/-- A document with a repeated name that replaces what was registered before, one that is refused, and
a module that is registered again; other steps with the same last registrations; and the default
module as one of several. -/
theorem tables_show_last_registrations_of_reload :
    let g : Test := { name := "g", examples := [] }
    let text := "\x7b\"modules\":\x7b\"b\":[],\"a\":[[\"f\"]],\"b\":[[\"g\"]]\x7d\x7d"
    let steps : List TableStep := [.insert "old" [g], .load text, .load "[", .insert "a" []]
    let steps' : List TableStep := [.insert "b" [], .insert "a" [], .insert "b" [g]]
    ModuleTable.after steps' = ModuleTable.after steps ∧
    (ModuleTable.after steps).finder.find "b" = .ok [g] ∧
    (ModuleTable.after steps).finder.find "old" = .error (.moduleNotFound "old") ∧
    (ModuleTable.after steps).resolve none = .error (.invalidArguments
      "the test tree holds several modules, pick one with --module: a, b") ∧
    ∃ tests, (ModuleTable.after (steps ++ [.insert "__main__" []])).finder.find "__main__" =
      .ok tests := by
  intro g text steps steps'
  have hregistered : registered steps =
      [("b", []), ("a", [{ name := "f", examples := [] }]), ("b", [g]), ("a", [])] := by
    decide +kernel
  have hsame : ∀ name tests,
      StandsLast (registered steps') name tests ↔ StandsLast (registered steps) name tests := by
    intro name tests
    rw [hregistered, standsLast_iff_lookup, standsLast_iff_lookup]
    show List.lookup name [("b", [g]), ("a", []), ("b", [])] = some tests ↔
      List.lookup name [("a", []), ("b", [g]), ("a", [{ name := "f", examples := [] }]), ("b", [])] =
        some tests
    by_cases ha : name = "a"
    · rw [ha]
      exact Iff.rfl
    · by_cases hb : name = "b"
      · rw [hb]
        exact Iff.rfl
      · simp [List.lookup_cons, beq_eq_false_iff_ne.2 ha, beq_eq_false_iff_ne.2 hb]
  obtain ⟨hreflects, -, hagree, -, -, hfault, -⟩ := tables_show_last_registrations steps
  have hnames : (ModuleTable.after steps).names = ["a", "b"] := by decide +kernel
  refine ⟨hagree steps' hsame, ?_, ?_, ?_, ?_⟩
  · exact (hreflects.find_ok "b" [g]).2
      ⟨[("b", []), ("a", [{ name := "f", examples := [] }])], [("a", [])], hregistered, by decide⟩
  · refine (hreflects.find_error "old" _).2 ⟨?_, rfl⟩
    rw [hregistered]
    simp
  · have hseveral := (hfault _).2 (.several (by rw [hnames]; decide) (by rw [hnames]; decide))
    rw [hnames] at hseveral
    exact hseveral
  · have hpick := (tables_show_last_registrations (steps ++ [.insert "__main__" []])).2.2.2.2.1
    exact hpick "__main__" (by decide +kernel)

end DoctestSelection
