import DoctestSelection.Proofs.Finder.Table
import DoctestSelection.Proofs.Text.Pieces
import DoctestSelection.TestTree

/-!
# Where test trees come from

A test tree is read in stages: first there must be a text at its place, then the text must be a
document, and then one of the modules of the document is picked.  For each of these there is either
what it gives or a fault that says why not, and never both.

## Main definitions

* `IsText` — bytes that are a text.
* `TreeSource.Holds` — the text at the place of a test tree.
* `FileFault` — why a file holds no text.
* `ModuleTable.ChoiceFault` — why no module of a table can be picked.

## Main results

* `TreeSource.text_eq_ok_iff`, `TreeSource.table_eq_ok_iff`, `TreeSource.table_eq_error_iff` — what
  comes of reading a test tree.
* `ModuleTable.resolve_none_eq_ok_iff`, `ModuleTable.resolve_none_eq_error_iff` — what comes of
  picking a module.
* `ModuleTable.eq_some_of_resolve` — a module that is not there was asked for.
-/

namespace DoctestSelection

open Text

/-! ### Bytes -/

/-- Bytes that are a text. -/
def IsText (bytes : ByteArray) : Prop := ∃ text : String, text.toUTF8 = bytes

theorem fromUTF8?_eq_some_iff {bytes : ByteArray} {text : String} :
    String.fromUTF8? bytes = some text ↔ text.toUTF8 = bytes := by
  unfold String.fromUTF8?
  constructor
  · intro h
    split at h
    · rw [← Option.some.inj h]
      rfl
    · exact nomatch h
  · rintro rfl
    have hvalid : text.toUTF8.IsValidUTF8 := text.isValidUTF8
    rw [dif_pos hvalid]
    rfl

theorem fromUTF8?_eq_none_iff {bytes : ByteArray} :
    String.fromUTF8? bytes = none ↔ ¬ IsText bytes := by
  simp only [IsText, ← fromUTF8?_eq_some_iff, not_exists, Option.eq_none_iff_forall_ne_some, ne_eq]

/-! ### Places -/

/-- The text at the place of a test tree. -/
inductive TreeSource.Holds : TreeSource → String → Prop
  | file (path text : String) : Holds (.file path (.ok text.toUTF8)) text
  | standardInput (text : String) : Holds (.standardInput text.toUTF8) text

/-- Why a file holds no text. -/
inductive FileFault : Except String ByteArray → String → Prop
  | unreadable (reason : String) : FileFault (.error reason) reason
  | notText {bytes : ByteArray} : ¬ IsText bytes →
      FileFault (.ok bytes) "stream did not contain valid UTF-8"

namespace TreeSource

variable {source : TreeSource} {text : String}

/-- Reading a place gives the text that is there. -/
theorem text_eq_ok_iff : source.text = .ok text ↔ source.Holds text := by
  constructor
  · intro h
    unfold TreeSource.text at h
    split at h
    · exact nomatch h
    · split at h
      · rename_i htext
        rw [← fromUTF8?_eq_some_iff.1 htext, Except.ok.inj h]
        exact .file _ _
      · exact nomatch h
    · split at h
      · rename_i htext
        rw [← fromUTF8?_eq_some_iff.1 htext, Except.ok.inj h]
        exact .standardInput _
      · exact nomatch h
  · intro h
    cases h with
    | file path => rw [TreeSource.text, fromUTF8?_eq_some_iff.2 rfl]
    | standardInput => rw [TreeSource.text, fromUTF8?_eq_some_iff.2 rfl]

theorem text_file_eq_error_iff {path : String} {content : Except String ByteArray} {e : Failure} :
    TreeSource.text (.file path content) = .error e ↔
      ∃ reason, FileFault content reason ∧
        e = .invalidArguments ("cannot read " ++ path ++ ": " ++ reason) := by
  cases content with
  | error message =>
    show Except.error (unreadable path message) = Except.error e ↔ _
    rw [Except.error.injEq]
    constructor
    · intro h
      exact ⟨message, .unreadable message, h.symm⟩
    · rintro ⟨_, ⟨⟩, rfl⟩
      rfl
  | ok bytes =>
    cases htext : String.fromUTF8? bytes with
    | some text =>
      have hok : TreeSource.text (.file path (.ok bytes)) = .ok text := by
        rw [TreeSource.text, htext]
      rw [hok]
      refine iff_of_false nofun ?_
      rintro ⟨_, ⟨⟩ | hnot, -⟩
      exact hnot ⟨text, fromUTF8?_eq_some_iff.1 htext⟩
    | none =>
      have herror : TreeSource.text (.file path (.ok bytes)) =
          .error (unreadable path notTextMessage) := by
        rw [TreeSource.text, htext]
      rw [herror, Except.error.injEq]
      constructor
      · intro h
        exact ⟨_, .notText (fromUTF8?_eq_none_iff.1 htext), h.symm⟩
      · rintro ⟨_, ⟨⟩, rfl⟩
        rfl

theorem text_standardInput_eq_error_iff {bytes : ByteArray} {e : Failure} :
    TreeSource.text (.standardInput bytes) = .error e ↔
      ¬ IsText bytes ∧ e = .io "stream did not contain valid UTF-8" := by
  cases htext : String.fromUTF8? bytes with
  | some text =>
    have hok : TreeSource.text (.standardInput bytes) = .ok text := by
      rw [TreeSource.text, htext]
    rw [hok]
    exact iff_of_false nofun fun h => h.1 ⟨text, fromUTF8?_eq_some_iff.1 htext⟩
  | none =>
    have herror : TreeSource.text (.standardInput bytes) = .error (.io notTextMessage) := by
      rw [TreeSource.text, htext]
    rw [herror, Except.error.injEq]
    constructor
    · intro h
      exact ⟨fromUTF8?_eq_none_iff.1 htext, h.symm⟩
    · intro h
      exact h.2.symm

/-! ### Documents -/

variable {table : ModuleTable} {e : Failure}

/-- A test tree is read when the text at its place is a document. -/
theorem table_eq_ok_iff :
    source.table = .ok table ↔
      ∃ text modules, source.Holds text ∧ Document.parse text = .ok modules ∧
        table = .ofList modules := by
  rw [TreeSource.table, bind_eq_ok_iff]
  simp only [mapError_eq_ok_iff, text_eq_ok_iff, ModuleTable.ofDocument]
  constructor
  · rintro ⟨text, htext, htable⟩
    split at htable
    · rename_i modules hmodules
      exact ⟨text, modules, htext, hmodules, (Except.ok.inj htable).symm⟩
    · exact nomatch htable
  · rintro ⟨text, modules, htext, hmodules, rfl⟩
    exact ⟨text, htext, by rw [hmodules]⟩

/-- Reading a test tree fails when there is no text at its place or the text is no document. -/
theorem table_eq_error_iff :
    source.table = .error e ↔
      source.text = .error e ∨
        ∃ text fault, source.Holds text ∧ Document.parse text = .error fault ∧
          e = .discovery (.invalidDocument fault.message) := by
  rw [TreeSource.table, bind_eq_error_iff]
  simp only [mapError_eq_error_iff, text_eq_ok_iff, ModuleTable.ofDocument]
  refine or_congr_right ?_
  constructor
  · rintro ⟨text, htext, error, htable, rfl⟩
    split at htable
    · exact nomatch htable
    · rename_i fault hfault
      exact ⟨text, fault, htext, hfault, congrArg _ (Except.error.inj htable).symm⟩
  · rintro ⟨text, fault, htext, hfault, rfl⟩
    exact ⟨text, htext, _, by rw [hfault], rfl⟩

end TreeSource

/-! ### Modules -/

namespace ModuleTable

variable {table : ModuleTable} {name : String} {e : Failure}

theorem find_finder_eq_error_iff {e : FindError} :
    table.finder.find name = .error e ↔ name ∉ table.names ∧ e = .moduleNotFound name := by
  rw [mem_names]
  unfold finder
  dsimp only
  cases table.tests? name with
  | none =>
    rw [Except.error.injEq]
    constructor
    · intro h
      exact ⟨Bool.false_ne_true, h.symm⟩
    · intro h
      exact h.2.symm
  | some tests => exact iff_of_false nofun fun h => h.1 rfl

/-- Why no module of a table can be picked: there is none, or there are several and none of them is
the default module. -/
inductive ChoiceFault (table : ModuleTable) : Failure → Prop
  | none : table.names = [] →
      ChoiceFault table (.invalidArguments "the test tree holds no modules")
  | several : 2 ≤ table.names.length → "__main__" ∉ table.names →
      ChoiceFault table (.invalidArguments
        ("the test tree holds several modules, pick one with --module: " ++
          ", ".intercalate table.names))

theorem resolve_none_of_two_le_length (h : 2 ≤ table.names.length) :
    table.resolve none =
      if "__main__" ∈ table.names then .ok "__main__"
      else .error (.invalidArguments
        ("the test tree holds several modules, pick one with --module: " ++
          ", ".intercalate table.names)) := by
  unfold resolve
  dsimp only
  split
  · rename_i hnames
    simp [hnames] at h
  · rename_i hnames
    simp [hnames] at h
  · rfl

/-- Without a name, picking a module fails when none can be picked. -/
theorem resolve_none_eq_error_iff : table.resolve none = .error e ↔ table.ChoiceFault e := by
  constructor
  · intro h
    match hnames : table.names with
    | [] =>
      rw [resolve, hnames] at h
      rw [← Except.error.inj h]
      exact .none hnames
    | [only] =>
      rw [resolve, hnames] at h
      exact nomatch h
    | first :: second :: rest =>
      have hlength : 2 ≤ table.names.length := by
        rw [hnames]
        exact Nat.le_add_left 2 rest.length
      rw [resolve_none_of_two_le_length hlength] at h
      split at h
      · exact nomatch h
      · rename_i hmem
        rw [← Except.error.inj h]
        exact .several hlength hmem
  · rintro (hnames | ⟨hlength, hmem⟩)
    · rw [resolve, hnames]
    · rw [resolve_none_of_two_le_length hlength, if_neg hmem]

/-- Without a name, a module is picked when it is the only one, or the default module among
several. -/
theorem resolve_none_eq_ok_iff :
    table.resolve none = .ok name ↔
      table.names = [name] ∨
        (2 ≤ table.names.length ∧ "__main__" ∈ table.names ∧ name = "__main__") := by
  match hnames : table.names with
  | [] =>
    rw [resolve, hnames]
    simp
  | [only] =>
    have hone : table.resolve none = .ok only := by rw [resolve, hnames]
    rw [hone, Except.ok.injEq]
    simp
  | first :: second :: rest =>
    have hlength : 2 ≤ table.names.length := by
      rw [hnames]
      exact Nat.le_add_left 2 rest.length
    rw [resolve_none_of_two_le_length hlength, ← hnames]
    have hseveral : table.names ≠ [name] := by simp [hnames]
    split
    · rename_i hmem
      rw [Except.ok.injEq, or_iff_right hseveral, and_iff_right hlength, and_iff_right hmem]
      exact eq_comm
    · rename_i hmem
      simp only [reduceCtorEq, false_iff]
      exact fun h => h.elim hseveral fun hmain => hmem hmain.2.1

/-- Without a name, the module that is picked is one of the table. -/
theorem mem_names_of_resolve_none (h : table.resolve none = .ok name) : name ∈ table.names := by
  obtain hone | ⟨-, hmain, rfl⟩ := resolve_none_eq_ok_iff.1 h
  · rw [hone]
    exact List.mem_singleton_self name
  · exact hmain

/-- Only a name that is given can be one that is not there. -/
theorem eq_some_of_resolve {name? : Option String} (h : table.resolve name? = .ok name)
    (hname : name ∉ table.names) : name? = some name := by
  cases name? with
  | none => exact absurd (mem_names_of_resolve_none h) hname
  | some given => rw [Except.ok.inj h]

end ModuleTable

end DoctestSelection
