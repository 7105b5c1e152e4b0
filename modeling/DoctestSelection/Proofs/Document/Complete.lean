import DoctestSelection.Proofs.Document.Shape

/-!
# Complete tests

A test by itself is read by stricter rules than a test in a document: its examples must be there,
and each of them must have a source and an index of its own.  Nothing else is different.  So a test
by itself is a test that a document may hold and that is complete, and both readings find the same,
whichever way its records are spelled.

The position of an example only matters when its index is missing or null.  The rule for a complete
example therefore holds at every position, which carries it through the list of the examples.

## Main definitions

* `Json.Supplies names name v field` — what a record has in a field, in either of its spellings.
* `Document.ExampleComplete v`, `Document.TestComplete v` — nothing is missing that a test by itself
  needs.

## Main results

* `Json.RecordIs.supplies_iff` — what a record has in a field is what is found there.
* `Example.ofJson?_eq_some_iff`, `Test.ofJson?_eq_some_iff` — **what is read by the strict rules.**
* `strict_and_lenient_readings_agree` — **the two readings of a test agree.**
-/

namespace DoctestSelection

open Json

/-! ### Fields that are there -/

namespace Json

variable {names : List String} {name : String} {v field : Json}

/-- What a record has in the field of a name: the value of a member with that name, or the item at
the place of the field. -/
inductive Supplies (names : List String) (name : String) : Json → Json → Prop
  | member {members : List (String × Json)} {field : Json} :
    (name, field) ∈ members → Supplies names name (.object members) field
  | item {items : List Json} {field : Json} {i : Nat} :
    names[i]? = some name → items[i]? = some field → Supplies names name (.array items) field

theorem MemberIs.mem_iff {members : List (String × Json)} {field? : Option Json}
    (h : MemberIs name members field?) : (name, field) ∈ members ↔ field? = some field := by
  cases h with
  | missing hnone => exact iff_of_false (fun hmem => hnone _ hmem rfl) nofun
  | @present before after v hmembers hbefore hafter =>
    rw [Option.some.injEq, hmembers, List.mem_append, List.mem_cons]
    constructor
    · rintro (hmem | heq | hmem)
      · exact absurd rfl (hbefore _ hmem)
      · exact (Prod.mk.inj heq).2.symm
      · exact absurd rfl (hafter _ hmem)
    · rintro rfl
      exact .inr (.inl rfl)

/-- What a record has in a field is what is found there, if no two fields have the same name. -/
theorem RecordIs.supplies_iff {fields : List (Option Json)} (h : RecordIs names v fields)
    (hnames : names.Nodup) {i : Nat} (hi : names[i]? = some name) :
    Supplies names name v field ↔ fields[i]? = some (some field) := by
  obtain ⟨hlt, hname⟩ := List.getElem?_eq_some_iff.1 hi
  cases h with
  | @object members _ hfields =>
    have hlt' : i < fields.length := hfields.length_eq ▸ hlt
    have hmember : MemberIs name members fields[i] := hname ▸ hfields.get hlt hlt'
    rw [List.getElem?_eq_getElem hlt', Option.some.injEq, ← hmember.mem_iff]
    constructor
    · rintro ⟨hmem⟩
      exact hmem
    · exact .member
  | @array items left hlength =>
    have hplace : (items.map some ++ List.replicate left none)[i]? = some (some field) ↔
        items[i]? = some field := by
      rw [List.getElem?_append, List.length_map, List.getElem?_map, List.getElem?_replicate]
      split
      · simp
      · rename_i hge
        rw [List.getElem?_eq_none (Nat.not_lt.1 hge)]
        split <;> simp
    rw [hplace]
    constructor
    · intro hsupplies
      cases hsupplies with
      | @item _ _ j hj hitem =>
        -- the names differ, so the field has one place only
        obtain rfl : i = j := (List.getElem?_inj hlt hnames).1 (hi.trans hj.symm)
        exact hitem
    · exact .item hi

end Json

/-! ### Complete examples and tests -/

namespace Document

/-- An example has a source, and an index that is not null. -/
def ExampleComplete (v : Json) : Prop :=
  (∃ source, Supplies Example.fieldNames "source" v source) ∧
    ∃ index, Supplies Example.fieldNames "index" v index ∧ index ≠ .null

/-- A test has examples, and each of them is complete. -/
def TestComplete (v : Json) : Prop :=
  ∃ items, Supplies Test.fieldNames "examples" v (.array items) ∧ ∀ item ∈ items, ExampleComplete item

theorem exampleComplete_iff {v : Json} {index source want lineno : Option Json}
    (h : RecordIs Example.fieldNames v [index, source, want, lineno]) :
    ExampleComplete v ↔ (∃ s, source = some s) ∧ ∃ i, index = some i ∧ i ≠ .null := by
  have hsource : ∀ s, Supplies Example.fieldNames "source" v s ↔ source = some s := fun s =>
    (h.supplies_iff (by decide) (i := 1) rfl).trans Option.some_inj
  have hindex : ∀ i, Supplies Example.fieldNames "index" v i ↔ index = some i := fun i =>
    (h.supplies_iff (by decide) (i := 0) rfl).trans Option.some_inj
  unfold ExampleComplete
  simp only [hsource, hindex]

theorem testComplete_iff {v : Json} {name filename lineno examples : Option Json}
    (h : RecordIs Test.fieldNames v [name, filename, lineno, examples]) :
    TestComplete v ↔
      ∃ items, examples = some (.array items) ∧ ∀ item ∈ items, ExampleComplete item := by
  have hexamples : ∀ field, Supplies Test.fieldNames "examples" v field ↔ examples = some field :=
    fun field => (h.supplies_iff (by decide) (i := 3) rfl).trans Option.some_inj
  unfold TestComplete
  simp only [hexamples]

end Document

/-! ### The strict rules -/

open Document

/-- An example by itself: the index and the source must be there. -/
theorem Example.ofJson?_eq_some_iff_recordIs {v : Json} {e : Example} :
    Example.ofJson? v = some e ↔
      ∃ index source want lineno,
        RecordIs Example.fieldNames v [some index, some source, want, lineno] ∧
        IndexIs index e.index ∧ StringIs source e.source ∧ DefaultedIs "" StringIs want e.want ∧
        OptionalIs IndexIs lineno e.lineno := by
  constructor
  · intro h
    unfold Example.ofJson? at h
    split at h
    · rename_i index source want lineno hfields
      simp only [bind, Option.bind_eq_some_iff, pure, Option.some.injEq] at h
      obtain ⟨i, hindex, s, hsource, w, hwant, l, hlineno, rfl⟩ := h
      exact ⟨index, source, want, lineno, fields?_eq_some_iff.1 hfields,
        index?_eq_some_iff.1 hindex, string?_eq_some_iff.1 hsource,
        orDefault?_string?_eq_some_iff.1 hwant, orNull?_index?_eq_some_iff.1 hlineno⟩
    · exact nomatch h
  · intro h
    obtain ⟨index, source, want, lineno, hfields, hindex, hsource, hwant, hlineno⟩ := h
    rw [Example.ofJson?, fields?_eq_some_iff.2 hfields]
    simp only [index?_eq_some_iff.2 hindex, string?_eq_some_iff.2 hsource,
      orDefault?_string?_eq_some_iff.2 hwant, orNull?_index?_eq_some_iff.2 hlineno, bind,
      Option.bind_some, pure]

/-- **An example by itself is a complete example of a document**, whatever its position is. -/
theorem Example.ofJson?_eq_some_iff {v : Json} {e : Example} (position : Nat) :
    Example.ofJson? v = some e ↔ ExampleIs position v e ∧ ExampleComplete v := by
  rw [Example.ofJson?_eq_some_iff_recordIs]
  constructor
  · intro h
    obtain ⟨index, source, want, lineno, hfields, hindex, hsource, hwant, hlineno⟩ := h
    have hnull : index ≠ .null := by
      rintro rfl
      cases hindex
    exact ⟨⟨_, _, _, _, hfields, ⟨some e.index, .value hindex, rfl⟩, .value hsource, hwant, hlineno⟩,
      (exampleComplete_iff hfields).2 ⟨⟨source, rfl⟩, index, rfl, hnull⟩⟩
  · intro h
    obtain ⟨⟨index?, source?, want, lineno, hfields, ⟨given, hgiven, hindex⟩, hsource, hwant,
      hlineno⟩, hcomplete⟩ := h
    obtain ⟨⟨source, rfl⟩, index, rfl, hnull⟩ := (exampleComplete_iff hfields).1 hcomplete
    refine ⟨index, source, want, lineno, hfields, ?_, ?_, hwant, hlineno⟩
    · cases hgiven with
      | null => exact absurd rfl hnull
      | @value _ i hi => exact hindex ▸ hi
    · cases hsource with
      | value hs => exact hs

/-- Examples by themselves are complete examples of a document, at their positions. -/
theorem Example.forall₂_ofJson?_iff {items : List Json} {es : List Example} :
    List.Forall₂ (fun item e => Example.ofJson? item = some e) items es ↔
      List.Forall₂ (fun item e => ExampleIs item.2 item.1 e) items.zipIdx es ∧
        ∀ item ∈ items, ExampleComplete item := by
  have hpositions : List.Forall₂ (fun item e => Example.ofJson? item = some e) items es ↔
      List.Forall₂ (fun item e => ExampleComplete item.1 ∧ ExampleIs item.2 item.1 e)
        items.zipIdx es := by
    conv_lhs => rw [← List.zipIdx_map_fst 0 items, List.forall₂_map_left_iff]
    have hrule : ∀ (item : Json × Nat) (e : Example), Example.ofJson? item.1 = some e ↔
        ExampleComplete item.1 ∧ ExampleIs item.2 item.1 e :=
      fun item e => (Example.ofJson?_eq_some_iff item.2).trans and_comm
    simp only [hrule]
  have hall : (∀ item ∈ items.zipIdx, ExampleComplete item.1) ↔
      ∀ item ∈ items, ExampleComplete item := by
    conv_rhs => rw [← List.zipIdx_map_fst 0 items, List.forall_mem_map]
  have hboth := List.forall₂_and_left (p := fun item : Json × Nat => ExampleComplete item.1)
    (R := fun item e => ExampleIs item.2 item.1 e) items.zipIdx es
  rw [hpositions, hboth, hall, and_comm]

/-- A test by itself: the name and the examples must be there. -/
theorem Test.ofJson?_eq_some_iff_recordIs {v : Json} {t : Test} :
    Test.ofJson? v = some t ↔
      ∃ name filename lineno items,
        RecordIs Test.fieldNames v [some name, filename, lineno, some (.array items)] ∧
        StringIs name t.name ∧ OptionalIs StringIs filename t.filename ∧
        OptionalIs IndexIs lineno t.lineno ∧
        List.Forall₂ (fun item e => Example.ofJson? item = some e) items t.examples := by
  constructor
  · intro h
    unfold Test.ofJson? at h
    split at h
    · rename_i name filename lineno examples hfields
      simp only [bind, Option.bind_eq_some_iff, pure, Option.some.injEq] at h
      obtain ⟨n, hname, f, hfilename, l, hlineno, items, hitems, es, hes, rfl⟩ := h
      obtain rfl := items?_eq_some_iff.1 hitems
      exact ⟨name, filename, lineno, items, fields?_eq_some_iff.1 hfields,
        string?_eq_some_iff.1 hname, orNull?_string?_eq_some_iff.1 hfilename,
        orNull?_index?_eq_some_iff.1 hlineno, mapM_eq_some_iff.1 hes⟩
    · exact nomatch h
  · intro h
    obtain ⟨name, filename, lineno, items, hfields, hname, hfilename, hlineno, hes⟩ := h
    rw [Test.ofJson?, fields?_eq_some_iff.2 hfields]
    simp only [string?_eq_some_iff.2 hname, orNull?_string?_eq_some_iff.2 hfilename,
      orNull?_index?_eq_some_iff.2 hlineno, items?_eq_some_iff.2 rfl, mapM_eq_some_iff.2 hes, bind,
      Option.bind_some, pure]

/-- **A test by itself is a complete test of a document.** -/
theorem Test.ofJson?_eq_some_iff {v : Json} {t : Test} :
    Test.ofJson? v = some t ↔ TestIs v t ∧ TestComplete v := by
  rw [Test.ofJson?_eq_some_iff_recordIs]
  constructor
  · intro h
    obtain ⟨name, filename, lineno, items, hfields, hname, hfilename, hlineno, hes⟩ := h
    obtain ⟨hexamples, hcomplete⟩ := Example.forall₂_ofJson?_iff.1 hes
    exact ⟨⟨_, _, _, _, hfields, hname, hfilename, hlineno, .value (.items hexamples)⟩,
      (testComplete_iff hfields).2 ⟨items, rfl, hcomplete⟩⟩
  · intro h
    obtain ⟨⟨name, filename, lineno, examples, hfields, hname, hfilename, hlineno, hes⟩,
      hcomplete⟩ := h
    obtain ⟨items, rfl, hitems⟩ := (testComplete_iff hfields).1 hcomplete
    refine ⟨name, filename, lineno, items, hfields, hname, hfilename, hlineno, ?_⟩
    cases hes with
    | value hspelled =>
      cases hspelled with
      | items hexamples => exact Example.forall₂_ofJson?_iff.2 ⟨hexamples, hitems⟩

/-! ### A test alone and a document of one test -/

/-- A document of one test is that test, in the default module. -/
theorem Document.modules?_array_singleton_eq_some_iff {v : Json}
    {modules : List (String × List Test)} :
    modules? (.array [v]) = some modules ↔ ∃ t, TestIs v t ∧ modules = [("__main__", [t])] := by
  rw [modules?_eq_some_iff]
  constructor
  · intro h
    cases h with
    | tests hts =>
      cases hts with
      | items hitems =>
        obtain ⟨t, rest, ht, hrest, rfl⟩ := List.forall₂_cons_left_iff.1 hitems
        obtain rfl := List.forall₂_nil_left_iff.1 hrest
        exact ⟨t, ht, rfl⟩
  · rintro ⟨t, ht, rfl⟩
    exact .tests (.items (.cons ht .nil))

theorem Document.TestIs.unique {v : Json} {t t' : Test} (h : TestIs v t) (h' : TestIs v t') :
    t = t' := by
  rw [← test?_eq_some_iff] at h h'
  exact Option.some.inj (h.symm.trans h')

theorem Test.parse?_of_read {text : String} {v : Json} {rest : List Char}
    (hread : Json.read text = some (v, rest)) (hrest : skipBlanks rest = []) :
    Test.parse? text = Test.ofJson? v := by
  rw [Test.parse?, hread]
  show ((Test.ofJson? v).bind fun t => if (skipBlanks rest).isEmpty then some t else none) = _
  rw [hrest]
  exact Option.bind_fun_some _

/-- **The two readings of a test agree.**  A value that is read as a test by itself is that test in
a document of nothing else.  If such a document is accepted, its value is read as a test by itself
exactly when it is complete, and then as the same test.  So it is for the text of the value and the
text of the document, whatever blanks stand in them. -/
theorem strict_and_lenient_readings_agree (v : Json) :
    (∀ t, Test.ofJson? v = some t → modules? (.array [v]) = some [("__main__", [t])]) ∧
    (∀ t, modules? (.array [v]) = some [("__main__", [t])] →
      ((∃ t', Test.ofJson? v = some t') ↔ TestComplete v) ∧
        ∀ t', Test.ofJson? v = some t' → t' = t) ∧
    ∀ (alone listed : String) (rest : List Char), Json.read alone = some (v, rest) →
      skipBlanks rest = [] → Reads listed (.array [v]) →
      (∀ t, Test.parse? alone = some t →
        ∃ table, ModuleTable.ofDocument listed = .ok table ∧ table.Holds [("__main__", [t])]) ∧
      ∀ table, ModuleTable.ofDocument listed = .ok table →
        ∃ t, table.Holds [("__main__", [t])] ∧
          ((∃ t', Test.parse? alone = some t') ↔ TestComplete v) ∧
          ∀ t', Test.parse? alone = some t' → t' = t := by
  have hcomplete : ∀ t, TestIs v t → ((∃ t', Test.ofJson? v = some t') ↔ TestComplete v) ∧
      ∀ t', Test.ofJson? v = some t' → t' = t := by
    intro t ht
    simp only [Test.ofJson?_eq_some_iff]
    constructor
    · constructor
      · rintro ⟨t', -, hcomplete⟩
        exact hcomplete
      · intro hcomplete
        exact ⟨t, ht, hcomplete⟩
    · rintro t' ⟨ht', -⟩
      exact ht'.unique ht
  refine ⟨?_, ?_, ?_⟩
  · intro t h
    exact modules?_array_singleton_eq_some_iff.2 ⟨t, (Test.ofJson?_eq_some_iff.1 h).1, rfl⟩
  · intro t h
    obtain ⟨t', ht', heq⟩ := modules?_array_singleton_eq_some_iff.1 h
    obtain rfl : t = t' := by simpa using heq
    exact hcomplete t ht'
  · intro alone listed rest hread hrest hlisted
    rw [Test.parse?_of_read hread hrest]
    have hholds : ∀ t, (ModuleTable.ofList [("__main__", [t])]).Holds [("__main__", [t])] :=
      fun t => ModuleTable.holds_ofList (by simp)
    constructor
    · intro t h
      have hmodules := modules?_array_singleton_eq_some_iff.2
        ⟨t, (Test.ofJson?_eq_some_iff.1 h).1, rfl⟩
      exact ⟨_, ModuleTable.ofDocument_eq_ok_iff.2
        ⟨_, _, hlisted, modules?_eq_some_iff.1 hmodules, rfl⟩, hholds t⟩
    · intro table htable
      obtain ⟨v', modules, hreads, hshape, rfl⟩ := ModuleTable.ofDocument_eq_ok_iff.1 htable
      obtain rfl := hlisted.unique hreads
      obtain ⟨t, ht, rfl⟩ := modules?_array_singleton_eq_some_iff.1 (modules?_eq_some_iff.2 hshape)
      exact ⟨t, hholds t, hcomplete t ht⟩

/-- A test whose examples are spelled by name and by position, with members that do not matter, one
of which is unreadable; and a test that a document may hold, whose only example has no index. -/
theorem strict_and_lenient_readings_agree_of_missing_index :
    let whole := Json.object [("name", .string "f"), ("skipped", .unreadable), ("lineno", .null),
      ("examples", .array [.array [.index 7, .string "s"],
        .object [("source", .string ""), ("index", .index 2), ("more", .bool true)]])]
    let f : Test := { name := "f", examples := [⟨7, "s", "", none⟩, ⟨2, "", "", none⟩] }
    let lacking := Json.array [.string "g", .null, .null, .array [.array [.null, .string "s"]]]
    let g : Test := { name := "g", examples := [⟨0, "s", "", none⟩] }
    let alone := "[\"g\",null,null,[[null,\"s\"]]]"
    let listed := "[[\"g\",null,null,[[null,\"s\"]]]]"
    (Test.ofJson? whole = some f ∧ modules? (.array [whole]) = some [("__main__", [f])]) ∧
      (modules? (.array [lacking]) = some [("__main__", [g])] ∧ ¬ TestComplete lacking) ∧
      (∃ table, ModuleTable.ofDocument listed = .ok table) ∧ ∀ t, Test.parse? alone ≠ some t := by
  intro whole f lacking g alone listed
  have hlacking : modules? (.array [lacking]) = some [("__main__", [g])] := rfl
  have hincomplete : ¬ TestComplete lacking := by
    intro hcomplete
    obtain ⟨t, ht⟩ := ((strict_and_lenient_readings_agree lacking).2.1 g hlacking).1.2 hcomplete
    exact nomatch ht
  have hexample : (Json.array [.null, .string "s"]).Plain 1 :=
    .array (List.forall_mem_cons.2 ⟨.null, List.forall_mem_singleton.2 (.string "s")⟩)
  have hplain : lacking.Plain 3 :=
    .array (List.forall_mem_cons.2 ⟨.string "g", List.forall_mem_cons.2 ⟨.null,
      List.forall_mem_cons.2 ⟨.null,
        List.forall_mem_singleton.2 (.array (List.forall_mem_singleton.2 hexample))⟩⟩⟩)
  have halone : String.ofList (lacking.write .compact 0) = alone := by decide +kernel
  have hlisted : String.ofList ((Json.array [lacking]).write .compact 0) = listed := by
    decide +kernel
  have hread : Json.read alone = some (lacking, []) :=
    halone ▸ Json.read_write JsonLayout.blank_compact hplain 0
  have hreads : Reads listed (.array [lacking]) :=
    hlisted ▸ reads_write JsonLayout.blank_compact (.array (List.forall_mem_singleton.2 hplain))
      (by decide) 0
  have htexts := (strict_and_lenient_readings_agree lacking).2.2 alone listed [] hread rfl hreads
  have htable : ModuleTable.ofDocument listed = .ok (.ofList [("__main__", [g])]) :=
    ModuleTable.ofDocument_eq_ok_iff.2 ⟨_, _, hreads, modules?_eq_some_iff.1 hlacking, rfl⟩
  obtain ⟨-, -, hiff, -⟩ := htexts.2 _ htable
  exact ⟨⟨rfl, (strict_and_lenient_readings_agree whole).1 f rfl⟩, ⟨hlacking, hincomplete⟩,
    ⟨_, htable⟩, fun t ht => hincomplete (hiff.1 ⟨t, ht⟩)⟩

end DoctestSelection
