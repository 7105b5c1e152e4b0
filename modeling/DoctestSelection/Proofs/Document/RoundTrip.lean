import DoctestSelection.Proofs.Command.Agreement
import DoctestSelection.Proofs.Document.Shape
import DoctestSelection.Proofs.Document.Source
import DoctestSelection.Proofs.Run.Filtered

/-!
# Written tests read back

Tests are written by one set of rules and read by two others: those of a document, which fills in
what is missing, and those of a single test, which does not.  What is written leaves out only what
both know to be absent, so both read the test again.  The examples tell their indices, so those are
kept also where examples were left out, and what was selected can be selected again.

Writing and reading of values is settled before.  What is left are the fields: each member that is
written is the one that is looked for by its name.

## Main definitions

* `Document.testsJson`, `Document.modulesJson` — tests and modules as values.

## Main results

* `Document.test?_toJson`, `Test.ofJson?_toJson` — a written test is decoded by either rules.
* `Document.ofDocument_testsJson`, `Document.ofDocument_modulesJson` — written documents are loaded.
* `Command.select_again` — what was selected is selected again.
* `written_tests_read_back` — **written tests read back.**
-/

namespace DoctestSelection

open Json Text

/-! ### Fields -/

/-- What a written field that may be missing is read as. -/
theorem Json.orNull?_map {α : Type} {encode : α → Json} {decode : Json → Option α}
    (h : ∀ a, decode (encode a) = some a) (hnull : ∀ a, encode a ≠ .null) (a? : Option α) :
    orNull? decode (a?.map encode) = some a? := by
  cases a? with
  | none => rfl
  | some a =>
    show orNull? decode (some (encode a)) = some (some a)
    rw [orNull?.eq_def]
    split
    · rename_i heq
      exact nomatch heq
    · rename_i heq
      exact absurd (Option.some.inj heq) (hnull a)
    · rename_i v _ heq
      rw [← Option.some.inj heq, h]
      rfl

theorem Json.orNull?_map_index (i? : Option Index) : orNull? index? (i?.map Json.index) = some i? :=
  orNull?_map index?_index (fun _ => nofun) i?

theorem Json.orNull?_map_string (s? : Option String) :
    orNull? string? (s?.map Json.string) = some s? :=
  orNull?_map string?_string (fun _ => nofun) s?

theorem Example.fields?_toJson (e : Example) :
    e.toJson.fields? fieldNames =
      some [some (.index e.index), some (.string e.source), some (.string e.want),
        e.lineno.map Json.index] := by
  obtain ⟨index, source, want, lineno⟩ := e
  cases lineno <;> simp [toJson, fields?, fieldNames, member?, valuesOf, optionalMember]

theorem Test.fields?_toJson (t : Test) :
    t.toJson.fields? fieldNames =
      some [some (.string t.name), t.filename.map Json.string, t.lineno.map Json.index,
        some (.array (t.examples.map Example.toJson))] := by
  obtain ⟨name, filename, lineno, examples⟩ := t
  cases filename <;> cases lineno <;>
    simp [toJson, fields?, fieldNames, member?, valuesOf, optionalMember]

/-! ### Decoding -/

theorem Example.ofJson?_toJson (e : Example) : ofJson? e.toJson = some e := by
  rw [ofJson?, fields?_toJson]
  simp [orDefault?, orNull?_map_index]

/-- A written test is decoded as itself. -/
theorem Test.ofJson?_toJson (t : Test) : ofJson? t.toJson = some t := by
  rw [ofJson?, fields?_toJson]
  simp [orNull?_map_index, orNull?_map_string, items?, mapM_map_eq_some Example.ofJson?_toJson]

namespace Document

/-- A written example tells its index, so the position at which it stands does not matter. -/
theorem example?_toJson (position : Nat) (e : Example) : example? position e.toJson = some e := by
  have hindex : orNull? index? (some (.index e.index)) = some (some e.index) :=
    orNull?_map_index (some e.index)
  rw [example?, Example.fields?_toJson]
  simp [orDefault?, hindex, orNull?_map_index]

theorem examples?_toJson (es : List Example) :
    examples? (.array (es.map Example.toJson)) = some es := by
  have hfrom : ∀ n, ((es.map Example.toJson).zipIdx n).mapM
      (fun item => example? item.2 item.1) = some es := by
    induction es with
    | nil => exact fun _ => rfl
    | cons e es ih =>
      intro n
      rw [List.map_cons, List.zipIdx_cons, List.mapM_cons, example?_toJson, ih]
      rfl
  exact hfrom 0

/-- A written test is the test of a document. -/
theorem test?_toJson (t : Test) : test? t.toJson = some t := by
  rw [test?, Test.fields?_toJson]
  simp [orDefault?, orNull?_map_index, orNull?_map_string, examples?_toJson]

theorem tests?_toJson (tests : List Test) :
    tests? (.array (tests.map Test.toJson)) = some tests :=
  mapM_map_eq_some test?_toJson tests

/-! ### Documents as values -/

/-- Tests as a value. -/
def testsJson (tests : List Test) : Json := .array (tests.map Test.toJson)

/-- Modules as a value. -/
def modulesJson (modules : List (String × List Test)) : Json :=
  .object [("modules", .object (modules.map fun m => (m.1, testsJson m.2)))]

theorem modulesAre_testsJson (tests : List Test) :
    ModulesAre (testsJson tests) [("__main__", tests)] :=
  .tests (tests?_eq_some_iff.1 (tests?_toJson tests))

theorem modulesAre_modulesJson (modules : List (String × List Test)) :
    ModulesAre (modulesJson modules) modules := by
  rw [← modules?_eq_some_iff]
  have hmember : member? "modules" [("modules", .object (modules.map fun m => (m.1, testsJson m.2)))] =
      some (some (.object (modules.map fun m => (m.1, testsJson m.2)))) := rfl
  rw [modulesJson, modules?, hmember]
  apply mapM_map_eq_some
  intro m
  show (tests? (testsJson m.2)).map (m.1, ·) = some m
  rw [testsJson, tests?_toJson]
  rfl

/-! ### Written values are plain -/

theorem plain_optionalMember {α : Type} {encode : α → Json} {n : Nat} (h : ∀ a, (encode a).Plain n)
    (name : String) (a? : Option α) : ∀ m ∈ optionalMember name encode a?, m.2.Plain n := by
  intro m hm
  obtain ⟨a, -, rfl⟩ := List.mem_map.1 hm
  exact h a

theorem plain_example (e : Example) : e.toJson.Plain 1 := by
  apply Plain.object
  simp only [List.forall_mem_append, List.forall_mem_cons]
  exact ⟨⟨.index e.index, .string e.source, .string e.want, List.forall_mem_nil _⟩,
    plain_optionalMember Plain.index "lineno" e.lineno⟩

theorem plain_test (t : Test) : t.toJson.Plain 3 := by
  have hexamples : (Json.array (t.examples.map Example.toJson)).Plain 2 :=
    .array (List.forall_mem_map.2 fun e _ => plain_example e)
  apply Plain.object
  simp only [List.forall_mem_append, List.forall_mem_singleton]
  exact ⟨⟨⟨.string t.name, plain_optionalMember Plain.string "filename" t.filename⟩,
    plain_optionalMember Plain.index "lineno" t.lineno⟩, hexamples⟩

theorem plain_testsJson (tests : List Test) : (testsJson tests).Plain 4 :=
  .array (List.forall_mem_map.2 fun t _ => plain_test t)

theorem plain_modulesJson (modules : List (String × List Test)) : (modulesJson modules).Plain 6 := by
  have hmodules : (Json.object (modules.map fun m => (m.1, testsJson m.2))).Plain 5 :=
    .object (List.forall_mem_map.2 fun m _ => plain_testsJson m.2)
  exact .object (List.forall_mem_singleton.2 hmodules)

/-! ### Written documents are loaded -/

variable {l : JsonLayout}

theorem ofDocument_modulesJson (hl : l.Blank) (level : Nat) (modules : List (String × List Test)) :
    ModuleTable.ofDocument (String.ofList ((modulesJson modules).write l level)) =
      .ok (.ofList modules) :=
  ModuleTable.ofDocument_eq_ok_iff.2 ⟨_, modules,
    reads_write hl (plain_modulesJson modules) (by decide) level, modulesAre_modulesJson modules, rfl⟩

theorem ofDocument_testsJson (hl : l.Blank) (level : Nat) (tests : List Test) :
    ModuleTable.ofDocument (String.ofList ((testsJson tests).write l level)) =
      .ok (.ofList [("__main__", tests)]) :=
  ModuleTable.ofDocument_eq_ok_iff.2 ⟨_, _,
    reads_write hl (plain_testsJson tests) (by decide) level, modulesAre_testsJson tests, rfl⟩

theorem find_ofList_main (tests : List Test) :
    (ModuleTable.ofList [("__main__", tests)]).finder.find "__main__" = .ok tests :=
  ((ModuleTable.holds_ofList (by simp)).find _ _).2 List.mem_cons_self

end Document

/-- The text of a written test is read as the test. -/
theorem Test.parse?_write {l : JsonLayout} (hl : l.Blank) (level : Nat) (t : Test) :
    parse? (String.ofList (t.toJson.write l level)) = some t := by
  have hread : Json.read (String.ofList (t.toJson.write l level)) = some (t.toJson, []) :=
    Json.read_write hl (Document.plain_test t) level
  rw [parse?, hread]
  show (ofJson? t.toJson).bind _ = _
  rw [ofJson?_toJson]
  rfl

/-! ### Reports of selections -/

/-- The tests stand at the end of the report of a selection. -/
theorem Report.render_selected (moduleName expression : String) (summary : Summary) :
    ∃ before, ∀ tests, (Report.selected moduleName expression summary tests).render .json =
      before ++ "\"tests\": " ++
        String.ofList ((Document.testsJson tests).write .pretty 1) ++ "\n\x7d\n" := by
  obtain ⟨front, hfront⟩ := Json.exists_write_object_concat .pretty 0
    [("status", .string "ok"), ("schema_version", .string layoutVersion),
      ("module", .string moduleName), ("expression", .string expression),
      ("summary", summary.toJson)] "tests"
  refine ⟨String.ofList front, ?_⟩
  intro tests
  have hname : quoted "tests".toList ++ JsonLayout.pretty.afterName = "\"tests\": ".toList := by
    decide
  have hline : (Report.selected moduleName expression summary tests).render .json =
      (Report.selected moduleName expression summary tests).toJson.pretty ++ "\n" :=
    unlines_singleton _
  have hpretty : (Report.selected moduleName expression summary tests).toJson.pretty =
      String.ofList (front ++ ("\"tests\": ".toList ++
        (Document.testsJson tests).write .pretty 1 ++ ['\n'] ++ ['\x7d'])) := by
    rw [← hname]
    exact congrArg String.ofList (hfront (Document.testsJson tests))
  rw [hline, hpretty]
  apply String.toList_injective
  simp

/-! ### Selecting again -/

theorem TreeSource.table_standardInput (text : String) :
    table (.standardInput text.toUTF8) = (ModuleTable.ofDocument text).mapError .discovery := by
  rw [table, text_eq_ok_iff.2 (.standardInput text)]
  rfl

/-- Of a selection no test is trimmed by the same filters, so its counts are the same before and
after. -/
theorem FilterSet.selectWithSummary_selectTests (fs : FilterSet) (tests : List Test) :
    (fs.selectWithSummary (fs.selectTests tests)).2 =
      .ofLists (fs.selectTests tests) (fs.selectTests tests) := by
  have hnone : (fs.selectTests tests).countP (fun t => !(fs.selectTests tests).contains t) = 0 := by
    simp [List.countP_eq_zero]
  rw [selectWithSummary_snd, selectTests_selectTests_self, select_selectTests, Summary.ofLists, hnone]
  simp [List.countP_eq_zero]

namespace Command

variable [PatternEngine] {settings : Settings} {source : TreeSource} {name? : Option String}

/-- What was selected is selected again, all of it. -/
theorem select_again {moduleName expression : String} {summary : Summary} {tests : List Test}
    (h : select settings source name? = .ok (.selected moduleName expression summary tests))
    {l : JsonLayout} (hl : l.Blank) (level : Nat) :
    select settings
        (.standardInput (String.ofList ((Document.testsJson tests).write l level)).toUTF8) none =
      .ok (.selected "__main__" expression (.ofLists tests tests) tests) := by
  obtain ⟨fs, table, name, found, hfound, hreport⟩ := select_eq_ok_iff.1 h
  obtain ⟨-, rfl, -, rfl⟩ := Report.selected.inj hreport
  refine select_eq_ok_iff.2 ⟨fs, .ofList [("__main__", fs.selectTests found)], "__main__",
    fs.selectTests found, ⟨hfound.filters_eq, ?_, ?_, Document.find_ofList_main _⟩, ?_⟩
  · rw [TreeSource.table_standardInput, Document.ofDocument_testsJson hl]
    rfl
  · rw [ModuleTable.resolve, ModuleTable.names_ofList_singleton]
  · rw [FilterSet.selectTests_selectTests_self, FilterSet.selectWithSummary_selectTests]

end Command

/-- **Written tests read back.**  On one line and over several, tests are loaded as those of the
default module, modules of different names as these modules, and a test by itself is read as itself.
Of a selection the examples keep their indices, so filters keep all of it when it is loaded.  The
report of a selection shows the selected tests in this form at its end; what it shows is selected
again by the same settings, without a partial test. -/
theorem written_tests_read_back :
    (∀ l ∈ [JsonLayout.compact, JsonLayout.pretty], ∀ level : Nat,
      (∀ tests, ∃ table,
        ModuleTable.ofDocument (String.ofList ((Document.testsJson tests).write l level)) = .ok table ∧
          table.Holds [("__main__", tests)]) ∧
      (∀ modules, (modules.map (·.1)).Nodup → ∃ table,
        ModuleTable.ofDocument (String.ofList ((Document.modulesJson modules).write l level)) =
            .ok table ∧
          table.Holds modules) ∧
      (∀ t : Test, Test.parse? (String.ofList (t.toJson.write l level)) = some t) ∧
      ∀ (fs : FilterSet) (tests : List Test), ∃ table,
        ModuleTable.ofDocument
            (String.ofList ((Document.testsJson (fs.selectTests tests)).write l level)) = .ok table ∧
          (table.finder.filtered fs).find "__main__" = .ok (fs.selectTests tests)) ∧
    (∀ (moduleName expression : String) (summary : Summary), ∃ before, ∀ tests,
      (Report.selected moduleName expression summary tests).render .json =
        before ++ "\"tests\": " ++
          String.ofList ((Document.testsJson tests).write .pretty 1) ++ "\n\x7d\n") ∧
    ∀ [PatternEngine] (settings : Settings) (source : TreeSource) (name? : Option String)
      (moduleName expression : String) (summary : Summary) (tests : List Test),
      Command.select settings source name? = .ok (.selected moduleName expression summary tests) →
        Command.select settings
            (.standardInput (String.ofList ((Document.testsJson tests).write .pretty 1)).toUTF8) none =
          .ok (.selected "__main__" expression (.ofLists tests tests) tests) := by
  refine ⟨?_, Report.render_selected, ?_⟩
  · intro l hmem level
    have hl : l.Blank := by
      rw [List.mem_pair] at hmem
      rcases hmem with rfl | rfl
      · exact JsonLayout.blank_compact
      · exact JsonLayout.blank_pretty
    refine ⟨?_, ?_, Test.parse?_write hl level, ?_⟩
    · intro tests
      exact ⟨_, Document.ofDocument_testsJson hl level tests, ModuleTable.holds_ofList (by simp)⟩
    · intro modules hnodup
      exact ⟨_, Document.ofDocument_modulesJson hl level modules, ModuleTable.holds_ofList hnodup⟩
    · intro fs tests
      refine ⟨_, Document.ofDocument_testsJson hl level _, ?_⟩
      rw [Finder.find_filtered_of_ok (Document.find_ofList_main _),
        FilterSet.selectTests_selectTests_self]
  · intro _ settings source name? moduleName expression summary tests h
    exact Command.select_again h JsonLayout.blank_pretty 1

attribute [local instance] PatternEngine.bySize

/-- Two modules with a text that needs escapes and with indices out of order, and a test that was
trimmed to its last example. -/
theorem written_tests_read_back_of_trimmed_test :
    let quote : Test :=
      { name := "é\"\\\n\x01", examples := [⟨7, "s", "", some 3⟩, ⟨2, "", "w", none⟩] }
    let text := String.ofList ((Document.modulesJson [("b", [quote]), ("a", [])]).write .compact 0)
    let settings : Settings := { Settings.defaults with filterExpression := ⟨"f:2", .flag⟩ }
    let source (tests : List Test) : TreeSource :=
      .standardInput (String.ofList ((Document.testsJson tests).write .pretty 1)).toUTF8
    let trimmed : Test := { name := "f", examples := [⟨2, "example_2", "", none⟩] }
    (∃ table, ModuleTable.ofDocument text = .ok table ∧
      table.Holds [("b", [quote]), ("a", [])]) ∧
    Command.select settings (source [Test.ofCount "f" 3, Test.ofCount "g" 3]) none =
        .ok (.selected "__main__" "f:2" ⟨2, 1, 1, 6, 1⟩ [trimmed]) ∧
      Command.select settings (source [trimmed]) none =
        .ok (.selected "__main__" "f:2" (.ofLists [trimmed] [trimmed]) [trimmed]) := by
  intro quote text settings source trimmed
  refine ⟨(written_tests_read_back.1 .compact (by simp) 0).2.1 _ (by decide), ?_⟩
  have hselect : Command.select settings (source [Test.ofCount "f" 3, Test.ofCount "g" 3]) none =
      .ok (.selected "__main__" "f:2" ⟨2, 1, 1, 6, 1⟩ [trimmed]) := by
    refine Command.select_eq_ok_iff.2 ⟨⟨[⟨⟨"f", by decide, ⟨'f', by decide⟩⟩, some ⟨[.single 2]⟩⟩]⟩,
      .ofList [("__main__", [Test.ofCount "f" 3, Test.ofCount "g" 3])], "__main__", _,
      ⟨?_, ?_, ?_, Document.find_ofList_main _⟩, ?_⟩
    · decide
    · rw [TreeSource.table_standardInput, Document.ofDocument_testsJson JsonLayout.blank_pretty]
      rfl
    · rw [ModuleTable.resolve, ModuleTable.names_ofList_singleton]
    · rfl
  exact ⟨hselect, written_tests_read_back.2.2 settings _ none _ _ _ _ hselect⟩

end DoctestSelection
