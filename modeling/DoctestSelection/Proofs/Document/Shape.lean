import DoctestSelection.Document
import DoctestSelection.Proofs.Finder.Table
import DoctestSelection.Proofs.Json.Record
import DoctestSelection.Proofs.Json.RoundTrip

/-!
# The shapes of a document

A document is an object with one member for its modules, or an array of tests.  Tests and examples
are records, so each of them can be spelled by name or by position.  The rules for what they spell
are stated level by level, from the example at a position up to the modules of a document, and the
decoders of a document are shown to follow exactly these rules; so a text that is read is a document
when its value has one of the shapes, and its table holds what the value spells.

## Main definitions

* `Document.ExampleIs position v e`, `Document.ExamplesAre v es` — what examples are spelled.
* `Document.TestIs v t` — what test is spelled.
* `Document.ModulesAre v modules` — what modules are spelled, in either shape of a document.
* `Document.Reads text v` — a text is the text of a value and of nothing else.

## Main results

* `Document.example?_eq_some_iff`, `Document.test?_eq_some_iff`, `Document.modules?_eq_some_iff` —
  each level is decoded by its rules.
* `Document.parse_eq_ok_iff` — when a text is a document, and of which modules.
* `document_loads_iff_shaped` — **a document is loaded exactly when it has one of the shapes.**
-/

namespace DoctestSelection

open Json

namespace Document

variable {v : Json}

/-! ### Examples -/

/-- The example that a value spells at a position: a record without obligatory fields.  The position
stands in for an index that is missing or null, and the empty text for a missing source or want. -/
def ExampleIs (position : Nat) (v : Json) (e : Example) : Prop :=
  ∃ index source want lineno, RecordIs Example.fieldNames v [index, source, want, lineno] ∧
    (∃ given, OptionalIs IndexIs index given ∧ e.index = given.getD (UInt64.ofNat position)) ∧
    DefaultedIs "" StringIs source e.source ∧ DefaultedIs "" StringIs want e.want ∧
    OptionalIs IndexIs lineno e.lineno

/-- The examples that an array spells, each at its position. -/
inductive ExamplesAre : Json → List Example → Prop
  | items {items : List Json} {es : List Example} :
    List.Forall₂ (fun item e => ExampleIs item.2 item.1 e) items.zipIdx es →
    ExamplesAre (.array items) es

theorem example?_eq_some_iff {position : Nat} {e : Example} :
    example? position v = some e ↔ ExampleIs position v e := by
  constructor
  · intro h
    unfold example? at h
    split at h
    · rename_i index source want lineno hfields
      simp only [bind, Option.bind_eq_some_iff, pure, Option.some.injEq] at h
      obtain ⟨given, hindex, s, hsource, w, hwant, l, hlineno, rfl⟩ := h
      exact ⟨index, source, want, lineno, fields?_eq_some_iff.1 hfields,
        ⟨given, orNull?_index?_eq_some_iff.1 hindex, rfl⟩,
        orDefault?_string?_eq_some_iff.1 hsource, orDefault?_string?_eq_some_iff.1 hwant,
        orNull?_index?_eq_some_iff.1 hlineno⟩
    · exact nomatch h
  · intro h
    obtain ⟨index, source, want, lineno, hfields, ⟨given, hindex, hgiven⟩, hsource, hwant,
      hlineno⟩ := h
    rw [example?, fields?_eq_some_iff.2 hfields]
    simp only [orNull?_index?_eq_some_iff.2 hindex, orDefault?_string?_eq_some_iff.2 hsource,
      orDefault?_string?_eq_some_iff.2 hwant, orNull?_index?_eq_some_iff.2 hlineno, bind,
      Option.bind_some, pure, ← hgiven]

theorem examples?_eq_some_iff {es : List Example} : examples? v = some es ↔ ExamplesAre v es := by
  unfold examples?
  simp only [bind, Option.bind_eq_some_iff, items?_eq_some_iff, mapM_eq_some_iff,
    example?_eq_some_iff]
  constructor
  · intro h
    obtain ⟨items, rfl, hitems⟩ := h
    exact .items hitems
  · intro h
    cases h with
    | items hitems => exact ⟨_, rfl, hitems⟩

/-! ### Tests -/

/-- The test that a value spells: a record with a name.  A test without examples is one whose
examples are missing. -/
def TestIs (v : Json) (t : Test) : Prop :=
  ∃ name filename lineno examples, RecordIs Test.fieldNames v [some name, filename, lineno, examples] ∧
    StringIs name t.name ∧ OptionalIs StringIs filename t.filename ∧
    OptionalIs IndexIs lineno t.lineno ∧ DefaultedIs [] ExamplesAre examples t.examples

theorem test?_eq_some_iff {t : Test} : test? v = some t ↔ TestIs v t := by
  have hexamples : ∀ (field : Option Json) (es : List Example),
      orDefault? [] examples? field = some es ↔ DefaultedIs [] ExamplesAre field es :=
    fun field es => orDefault?_eq_some_iff fun _ _ => examples?_eq_some_iff
  constructor
  · intro h
    unfold test? at h
    split at h
    · rename_i name filename lineno examples hfields
      simp only [bind, Option.bind_eq_some_iff, pure, Option.some.injEq] at h
      obtain ⟨n, hname, f, hfilename, l, hlineno, es, hes, rfl⟩ := h
      exact ⟨name, filename, lineno, examples, fields?_eq_some_iff.1 hfields,
        string?_eq_some_iff.1 hname, orNull?_string?_eq_some_iff.1 hfilename,
        orNull?_index?_eq_some_iff.1 hlineno, (hexamples _ _).1 hes⟩
    · exact nomatch h
  · intro h
    obtain ⟨name, filename, lineno, examples, hfields, hname, hfilename, hlineno, hes⟩ := h
    rw [test?, fields?_eq_some_iff.2 hfields]
    simp only [string?_eq_some_iff.2 hname, orNull?_string?_eq_some_iff.2 hfilename,
      orNull?_index?_eq_some_iff.2 hlineno, (hexamples _ _).2 hes, bind, Option.bind_some, pure]

theorem tests?_eq_some_iff {ts : List Test} : tests? v = some ts ↔ ArrayIs TestIs v ts :=
  items?_bind_mapM_eq_some_iff fun _ _ => test?_eq_some_iff

/-! ### Documents -/

/-- The modules that the value of a document spells, as they are listed. -/
inductive ModulesAre : Json → List (String × List Test) → Prop
  /-- An object with a single member for the modules, an object of arrays of tests.  Its other
  members do not matter. -/
  | modules {members entries : List (String × Json)} {modules : List (String × List Test)} :
    MemberIs "modules" members (some (.object entries)) →
    List.Forall₂ (fun entry m => m.1 = entry.1 ∧ ArrayIs TestIs entry.2 m.2) entries modules →
    ModulesAre (.object members) modules
  /-- An array of tests, which are those of the default module. -/
  | tests {v : Json} {ts : List Test} : ArrayIs TestIs v ts → ModulesAre v [("__main__", ts)]

theorem modules?_object_eq_some_iff {members : List (String × Json)}
    {modules : List (String × List Test)} :
    modules? (.object members) = some modules ↔
      ∃ entries, MemberIs "modules" members (some (.object entries)) ∧
        List.Forall₂ (fun entry m => m.1 = entry.1 ∧ ArrayIs TestIs entry.2 m.2) entries modules := by
  have hentry : ∀ (entry : String × Json) (m : String × List Test),
      (tests? entry.2).map (entry.1, ·) = some m ↔
        m.1 = entry.1 ∧ ArrayIs TestIs entry.2 m.2 := by
    intro entry m
    rw [Option.map_eq_some_iff, ← tests?_eq_some_iff]
    constructor
    · intro h
      obtain ⟨ts, hts, rfl⟩ := h
      exact ⟨rfl, hts⟩
    · intro h
      exact ⟨m.2, h.2, Prod.ext h.1.symm rfl⟩
  constructor
  · intro h
    unfold modules? at h
    dsimp only at h
    split at h
    · rename_i entries hmember
      rw [mapM_eq_some_iff] at h
      exact ⟨entries, member?_eq_some_iff.1 hmember, h.imp fun entry m => (hentry entry m).1⟩
    · exact nomatch h
  · intro h
    obtain ⟨entries, hmember, hentries⟩ := h
    have hmodules : modules? (.object members) =
        entries.mapM fun entry => (tests? entry.2).map (entry.1, ·) := by
      simp only [modules?, member?_eq_some_iff.2 hmember]
    rw [hmodules]
    exact mapM_eq_some_iff.2 (hentries.imp fun entry m => (hentry entry m).2)

theorem modules?_eq_some_iff {modules : List (String × List Test)} :
    modules? v = some modules ↔ ModulesAre v modules := by
  constructor
  · intro h
    cases v with
    | object members =>
      obtain ⟨entries, hmember, hentries⟩ := modules?_object_eq_some_iff.1 h
      exact .modules hmember hentries
    | array items =>
      obtain ⟨ts, hts, rfl⟩ := Option.map_eq_some_iff.1 h
      exact .tests (tests?_eq_some_iff.1 hts)
    | _ => exact nomatch h
  · intro h
    cases h with
    | modules hmember hentries => exact modules?_object_eq_some_iff.2 ⟨_, hmember, hentries⟩
    | @tests _ ts hts =>
      cases hts with
      | @items items _ hitems =>
        have htests : tests? (.array items) = some ts := tests?_eq_some_iff.2 (.items hitems)
        show (tests? (.array items)).map _ = _
        rw [htests]
        rfl

/-! ### Texts -/

/-- A text is the text of a value: the value stands at its front, where it can be read and is not
nested too deeply, and nothing but blanks follows. -/
def Reads (text : String) (v : Json) : Prop :=
  ∃ rest, readValue? text = some (v, rest) ∧ skipBlanks rest = []

/-- A written plain value is the value of its text, if it is not nested too deeply. -/
theorem reads_write {l : JsonLayout} (hl : l.Blank) {n : Nat} {v : Json} (h : v.Plain n)
    (hn : n ≤ depthLimit) (level : Nat) : Reads (String.ofList (v.write l level)) v := by
  have hdepth : v.depth ≤ depthLimit := Nat.le_trans (Json.depth_le_of_plain h) hn
  refine ⟨[], ?_, rfl⟩
  rw [readValue?, Json.read_write hl h]
  exact Option.filter_some_pos (by simp [Json.isReadable_of_plain h, hdepth])

theorem reads_iff_of_readValue? {text : String} {v : Json} {rest : List Char}
    (h : readValue? text = some (v, rest)) (v' : Json) :
    Reads text v' ↔ v' = v ∧ skipBlanks rest = [] := by
  unfold Reads
  rw [h]
  constructor
  · intro hex
    obtain ⟨rest', hsome, hblank⟩ := hex
    obtain ⟨hv, hrest⟩ := Prod.mk.inj (Option.some.inj hsome)
    exact ⟨hv.symm, hrest ▸ hblank⟩
  · intro hboth
    exact ⟨rest, by rw [hboth.1], hboth.2⟩

/-- When a text is a document, and of which modules. -/
theorem parse_eq_ok_iff {text : String} {modules : List (String × List Test)} :
    parse text = .ok modules ↔ ∃ v, Reads text v ∧ ModulesAre v modules := by
  cases hread : readValue? text with
  | none =>
    have hparse : parse text = .error .malformed := by rw [parse, hread]
    rw [hparse]
    refine iff_of_false nofun ?_
    intro h
    obtain ⟨v, ⟨rest, hsome, -⟩, -⟩ := h
    rw [hread] at hsome
    exact nomatch hsome
  | some read =>
    obtain ⟨v, rest⟩ := read
    simp only [reads_iff_of_readValue? hread, ← modules?_eq_some_iff, and_assoc, exists_eq_left]
    cases hmodules : modules? v with
    | none =>
      have hparse : parse text = .error .misshapen := by simp only [parse, hread, hmodules]
      rw [hparse]
      exact iff_of_false nofun fun h => nomatch h.2
    | some modules' =>
      have hparse : parse text =
          if (skipBlanks rest).isEmpty then .ok modules' else .error .malformed := by
        simp only [parse, hread, hmodules]
      rw [hparse]
      by_cases hblank : skipBlanks rest = []
      · simp [hblank]
      · simp [hblank]

theorem Reads.unique {text : String} {v v' : Json} (h : Reads text v) (h' : Reads text v') :
    v = v' := by
  obtain ⟨rest, hread, -⟩ := h
  obtain ⟨rest', hread', -⟩ := h'
  rw [hread] at hread'
  exact (Prod.mk.inj (Option.some.inj hread')).1

theorem ModulesAre.unique {modules modules' : List (String × List Test)} (h : ModulesAre v modules)
    (h' : ModulesAre v modules') : modules = modules' := by
  rw [← modules?_eq_some_iff] at h h'
  exact Option.some.inj (h.symm.trans h')

end Document

/-- A text is loaded when it is a document, and its table is that of the listed modules. -/
theorem ModuleTable.ofDocument_eq_ok_iff {text : String} {table : ModuleTable} :
    ModuleTable.ofDocument text = .ok table ↔
      ∃ v modules, Document.Reads text v ∧ Document.ModulesAre v modules ∧ table = ofList modules := by
  unfold ofDocument
  cases hparse : Document.parse text with
  | error fault =>
    refine iff_of_false nofun ?_
    intro h
    obtain ⟨v, modules, hreads, hshape, -⟩ := h
    rw [Document.parse_eq_ok_iff.2 ⟨v, hreads, hshape⟩] at hparse
    exact nomatch hparse
  | ok modules =>
    obtain ⟨v, hreads, hshape⟩ := Document.parse_eq_ok_iff.1 hparse
    constructor
    · intro h
      exact ⟨v, modules, hreads, hshape, (Except.ok.inj h).symm⟩
    · intro h
      obtain ⟨v', modules', hreads', hshape', rfl⟩ := h
      obtain rfl := hreads.unique hreads'
      rw [hshape.unique hshape']

/-- **A document is loaded exactly when it has one of the shapes.**  The text of a value is loaded
when the value spells modules, in the one way in which it does.  The modules of the table are then
those that are spelled, and its finder finds for a name what was spelled last for it.  A text that is
not the text of a value is not loaded. -/
theorem document_loads_iff_shaped :
    (∀ (text : String) (v : Json), Document.Reads text v →
      ((∃ table, ModuleTable.ofDocument text = .ok table) ↔
        ∃ modules, Document.ModulesAre v modules) ∧
      ∀ table, ModuleTable.ofDocument text = .ok table →
        ∃ modules, (∀ modules', Document.ModulesAre v modules' ↔ modules' = modules) ∧
          (∀ name, name ∈ table.names ↔ name ∈ modules.map (·.1)) ∧
          ∀ name tests, table.finder.find name = .ok tests ↔
            ∃ before after, modules = before ++ (name, tests) :: after ∧
              ∀ m ∈ after, m.1 ≠ name) ∧
    ∀ text : String, (∀ v, ¬ Document.Reads text v) →
      ∀ table, ModuleTable.ofDocument text ≠ .ok table := by
  constructor
  · intro text v hreads
    constructor
    · constructor
      · intro h
        obtain ⟨table, htable⟩ := h
        obtain ⟨v', modules, hreads', hshape, -⟩ := ModuleTable.ofDocument_eq_ok_iff.1 htable
        obtain rfl := hreads.unique hreads'
        exact ⟨modules, hshape⟩
      · intro h
        obtain ⟨modules, hshape⟩ := h
        exact ⟨.ofList modules, ModuleTable.ofDocument_eq_ok_iff.2 ⟨v, modules, hreads, hshape, rfl⟩⟩
    · intro table htable
      obtain ⟨v', modules, hreads', hshape, rfl⟩ := ModuleTable.ofDocument_eq_ok_iff.1 htable
      obtain rfl := hreads.unique hreads'
      refine ⟨modules, ?_, fun name => ModuleTable.mem_names_ofList,
        fun name tests => ModuleTable.find_finder_eq_ok_iff.trans ModuleTable.tests?_ofList⟩
      intro modules'
      constructor
      · intro hshape'
        exact hshape'.unique hshape
      · rintro rfl
        exact hshape
  · intro text hnone table htable
    obtain ⟨v, modules, hreads, -⟩ := ModuleTable.ofDocument_eq_ok_iff.1 htable
    exact hnone v hreads

/-- A test by name, whose examples are spelled by position and one of which tells its index, and a
test by position; and a text that is cut off. -/
theorem document_loads_iff_shaped_of_two_spellings :
    let text := "[\x7b\"name\":\"f\",\"examples\":[[],[7,\"s\"],[null]]\x7d,[\"g\"]]"
    let examples := Json.array [.array [], .array [.index 7, .string "s"], .array [.null]]
    let v := Json.array [.object [("name", .string "f"), ("examples", examples)],
      .array [.string "g"]]
    let f : Test := { name := "f", examples := [⟨0, "", "", none⟩, ⟨7, "s", "", none⟩,
      ⟨2, "", "", none⟩] }
    (Document.Reads text v ∧ ∃ table, ModuleTable.ofDocument text = .ok table ∧
      table.finder.find "__main__" = .ok [f, { name := "g", examples := [] }]) ∧
    (∀ v, ¬ Document.Reads "[" v) ∧ ∀ table, ModuleTable.ofDocument "[" ≠ .ok table := by
  intro text examples v f
  constructor
  · have hseven : (Json.array [.index 7, .string "s"]).Plain 1 :=
      .array (List.forall_mem_cons.2 ⟨.index 7, List.forall_mem_singleton.2 (.string "s")⟩)
    have hexamples : examples.Plain 2 :=
      .array (List.forall_mem_cons.2 ⟨.array (List.forall_mem_nil _),
        List.forall_mem_cons.2 ⟨hseven,
          List.forall_mem_singleton.2 (.array (List.forall_mem_singleton.2 .null))⟩⟩)
    have hplain : v.Plain 4 :=
      .array (List.forall_mem_cons.2 ⟨
        .object (List.forall_mem_cons.2 ⟨.string "f", List.forall_mem_singleton.2 hexamples⟩),
        List.forall_mem_singleton.2 (.array (List.forall_mem_singleton.2 (.string "g")))⟩)
    have htext : String.ofList (v.write .compact 0) = text := by decide +kernel
    have hreads : Document.Reads text v :=
      htext ▸ Document.reads_write JsonLayout.blank_compact hplain (by decide) 0
    have hshape : Document.ModulesAre v [("__main__", [f, { name := "g", examples := [] }])] :=
      Document.modules?_eq_some_iff.1 rfl
    have hloads := document_loads_iff_shaped.1 text v hreads
    obtain ⟨table, htable⟩ := hloads.1.2 ⟨_, hshape⟩
    obtain ⟨modules, hmodules, -, htests⟩ := hloads.2 table htable
    have hlisted := (hmodules _).1 hshape
    exact ⟨hreads, table, htable, (htests _ _).2 ⟨[], [], hlisted.symm, by simp⟩⟩
  · have hnone : ∀ v, ¬ Document.Reads "[" v := by
      intro v h
      obtain ⟨rest, hread, -⟩ := h
      exact nomatch hread
    exact ⟨hnone, document_loads_iff_shaped.2 "[" hnone⟩

end DoctestSelection
