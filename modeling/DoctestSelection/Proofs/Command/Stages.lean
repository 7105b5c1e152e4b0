import DoctestSelection.Proofs.Command.Agreement
import DoctestSelection.Proofs.Document.Source

/-!
# The stages of a command

A selection and a run go through the same stages in the same order: the expression is read, then the
text at the place of the test tree, then the document; then a module is picked if none is given, and
then it is looked up.  Several of the stages can be at fault at once, and the command fails with the
fault of the first of them.  The last fault is found only for a module that is given, since one that
is picked is there.

## Main definitions

* `Command.Stage`, `Command.Stage.position` — the stages, and their order.
* `Command.FaultAt` — what a stage is at fault for, whatever the other stages are.
* `Command.FirstFault` — the fault that comes first.

## Main results

* `Command.select_eq_error_iff` — a selection fails with its first fault.
* `Command.FirstFault.unique` — there is no other first fault.
* `commands_fail_at_first_fault` — **selections and runs fail alike, with the first fault, and write
  nothing then.**
-/

namespace DoctestSelection

open Text

namespace Command

/-! ### Stages and faults -/

/-- The stages of a selection or a run.  The text of a test tree is read from a file or from the
standard input; only one of these two stages can be at fault. -/
inductive Stage
  | expression
  | file
  | standardInput
  | document
  | choice
  | lookup
  deriving DecidableEq, Repr

/-- The position of a stage. -/
def Stage.position : Stage → Nat
  | .expression => 0
  | .file => 1
  | .standardInput => 2
  | .document => 3
  | .choice => 4
  | .lookup => 5

theorem Stage.eq_of_position_eq {s t : Stage} (h : s.position = t.position) : s = t := by
  cases s <;> cases t <;> first | rfl | exact absurd h (by decide)

variable [PatternEngine]

/-- What a stage is at fault for, whatever the stages before it are. -/
inductive FaultAt (settings : Settings) (source : TreeSource) (name? : Option String) :
    Stage → Failure → Prop
  | expression {e : FilterError} : FilterSet.parse settings.filterExpression.value = .error e →
      FaultAt settings source name? .expression (.invalidFilter e)
  | file {path reason : String} {content : Except String ByteArray} :
      source = .file path content → FileFault content reason →
      FaultAt settings source name? .file
        (.invalidArguments ("cannot read " ++ path ++ ": " ++ reason))
  | standardInput {bytes : ByteArray} : source = .standardInput bytes → ¬ IsText bytes →
      FaultAt settings source name? .standardInput (.io "stream did not contain valid UTF-8")
  | document {text : String} {fault : Document.Fault} :
      source.Holds text → Document.parse text = .error fault →
      FaultAt settings source name? .document (.discovery (.invalidDocument fault.message))
  | choice {text : String} {modules : List (String × List Test)} {e : Failure} :
      source.Holds text → Document.parse text = .ok modules →
      name? = none → (ModuleTable.ofList modules).ChoiceFault e →
      FaultAt settings source name? .choice e
  | lookup {text : String} {modules : List (String × List Test)} {name : String} :
      source.Holds text → Document.parse text = .ok modules →
      name? = some name → name ∉ modules.map (·.1) →
      FaultAt settings source name? .lookup (.discovery (.moduleNotFound name))

/-- The fault of a stage before which no stage is at fault. -/
structure FirstFault (settings : Settings) (source : TreeSource) (name? : Option String)
    (stage : Stage) (e : Failure) : Prop where
  faultAt : FaultAt settings source name? stage e
  before : ∀ other, other.position < stage.position → ∀ e', ¬ FaultAt settings source name? other e'

variable {settings : Settings} {source : TreeSource} {name? : Option String} {e : Failure}

/-! ### What the stages come to -/

theorem filters_eq_error_iff :
    filters settings = .error e ↔ FaultAt settings source name? .expression e := by
  rw [filters, mapError_eq_error_iff]
  constructor
  · rintro ⟨error, herror, rfl⟩
    exact .expression herror
  · intro h
    cases h with
    | expression herror => exact ⟨_, herror, rfl⟩

theorem text_eq_error_iff :
    source.text = .error e ↔
      FaultAt settings source name? .file e ∨ FaultAt settings source name? .standardInput e := by
  constructor
  · intro h
    cases source with
    | file path content =>
      obtain ⟨reason, hfault, rfl⟩ := TreeSource.text_file_eq_error_iff.1 h
      exact .inl (.file rfl hfault)
    | standardInput bytes =>
      obtain ⟨hnot, rfl⟩ := TreeSource.text_standardInput_eq_error_iff.1 h
      exact .inr (.standardInput rfl hnot)
  · rintro (h | h)
    · cases h with
      | file hsource hfault =>
        rw [hsource, TreeSource.text_file_eq_error_iff]
        exact ⟨_, hfault, rfl⟩
    · cases h with
      | standardInput hsource hnot =>
        rw [hsource, TreeSource.text_standardInput_eq_error_iff]
        exact ⟨hnot, rfl⟩

theorem table_eq_error_iff :
    source.table = .error e ↔
      (FaultAt settings source name? .file e ∨ FaultAt settings source name? .standardInput e) ∨
        FaultAt settings source name? .document e := by
  rw [TreeSource.table_eq_error_iff, ← text_eq_error_iff]
  refine or_congr_right ?_
  constructor
  · rintro ⟨text, fault, htext, hfault, rfl⟩
    exact .document htext hfault
  · intro h
    cases h with
    | document htext hfault => exact ⟨_, _, htext, hfault, rfl⟩

theorem not_faultAt_expression {fs : FilterSet} (h : filters settings = .ok fs) (e : Failure) :
    ¬ FaultAt settings source name? .expression e := by
  rw [← filters_eq_error_iff, h]
  exact nofun

theorem not_faultAt_text {text : String} (h : source.Holds text) (e : Failure) :
    ¬ FaultAt settings source name? .file e ∧ ¬ FaultAt settings source name? .standardInput e := by
  rw [← not_or, ← text_eq_error_iff, TreeSource.text_eq_ok_iff.2 h]
  exact nofun

variable {table : ModuleTable} {name : String}

theorem not_faultAt_document (h : source.table = .ok table) (e : Failure) :
    ¬ FaultAt settings source name? .document e := by
  intro hfault
  have herror : source.table = .error e := table_eq_error_iff.2 (.inr hfault)
  exact nomatch h.symm.trans herror

theorem resolve_eq_error_iff (h : source.table = .ok table) :
    table.resolve name? = .error e ↔ FaultAt settings source name? .choice e := by
  constructor
  · intro hresolve
    obtain ⟨text, modules, htext, hmodules, rfl⟩ := TreeSource.table_eq_ok_iff.1 h
    cases name? with
    | none => exact .choice htext hmodules rfl (ModuleTable.resolve_none_eq_error_iff.1 hresolve)
    | some name => exact nomatch hresolve
  · intro hfault
    cases hfault with
    | choice htext hmodules hnone hchoice =>
      have htable := TreeSource.table_eq_ok_iff.2 ⟨_, _, htext, hmodules, rfl⟩
      rw [hnone, Except.ok.inj (h.symm.trans htable)]
      exact ModuleTable.resolve_none_eq_error_iff.2 hchoice

/-! ### The first fault -/

/-- No stage before the document is at fault if there is a text and the expression is read. -/
theorem not_faultAt_before_document {fs : FilterSet} {text : String}
    (hfilters : filters settings = .ok fs) (htext : source.Holds text) (other : Stage)
    (hother : other.position < Stage.document.position) (e : Failure) :
    ¬ FaultAt settings source name? other e := by
  cases other with
  | expression => exact not_faultAt_expression hfilters e
  | file => exact (not_faultAt_text htext e).1
  | standardInput => exact (not_faultAt_text htext e).2
  | document | choice | lookup => exact absurd hother (by decide)

theorem not_faultAt_before_choice {fs : FilterSet} (hfilters : filters settings = .ok fs)
    (htable : source.table = .ok table) (other : Stage)
    (hother : other.position < Stage.choice.position) (e : Failure) :
    ¬ FaultAt settings source name? other e := by
  obtain ⟨text, -, htext, -⟩ := TreeSource.table_eq_ok_iff.1 htable
  cases other with
  | document => exact not_faultAt_document htable e
  | expression | file | standardInput =>
    exact not_faultAt_before_document hfilters htext _ (by decide) e
  | choice | lookup => exact absurd hother (by decide)

theorem firstFault_file {fs : FilterSet} (hfilters : filters settings = .ok fs)
    (hfault : FaultAt settings source name? .file e) :
    FirstFault settings source name? .file e where
  faultAt := hfault
  before other hother e' := by
    cases other with
    | expression => exact not_faultAt_expression hfilters e'
    | file | standardInput | document | choice | lookup => exact absurd hother (by decide)

theorem firstFault_standardInput {fs : FilterSet} (hfilters : filters settings = .ok fs)
    (hfault : FaultAt settings source name? .standardInput e) :
    FirstFault settings source name? .standardInput e where
  faultAt := hfault
  before other hother e' := by
    cases other with
    | expression => exact not_faultAt_expression hfilters e'
    | file =>
      intro hfile
      cases hfault with
      | standardInput hsource _ =>
        cases hfile with
        | file hsource' _ => exact nomatch hsource.symm.trans hsource'
    | standardInput | document | choice | lookup => exact absurd hother (by decide)

/-- A test tree that is not read is the first fault if the expression is read. -/
theorem exists_firstFault_of_table {fs : FilterSet} (hfilters : filters settings = .ok fs)
    (htable : source.table = .error e) : ∃ stage, FirstFault settings source name? stage e := by
  obtain (hfile | hinput) | hdocument := table_eq_error_iff.1 htable
  · exact ⟨.file, firstFault_file hfilters hfile⟩
  · exact ⟨.standardInput, firstFault_standardInput hfilters hinput⟩
  · cases hdocument with
    | document htext hfault =>
      exact ⟨.document, .document htext hfault, not_faultAt_before_document hfilters htext⟩

theorem firstFault_lookup {fs : FilterSet} (hfilters : filters settings = .ok fs)
    (htable : source.table = .ok table) (hname : table.resolve name? = .ok name)
    (hnot : name ∉ table.names) :
    FirstFault settings source name? .lookup (.discovery (.moduleNotFound name)) where
  faultAt := by
    -- a module that was picked would be there
    have hgiven : name? = some name := ModuleTable.eq_some_of_resolve hname hnot
    obtain ⟨text, modules, htext, hmodules, rfl⟩ := TreeSource.table_eq_ok_iff.1 htable
    exact .lookup htext hmodules hgiven (mt ModuleTable.mem_names_ofList.2 hnot)
  before other hother e' := by
    cases other with
    | choice =>
      rw [← resolve_eq_error_iff htable, hname]
      exact nofun
    | expression | file | standardInput | document =>
      exact not_faultAt_before_choice hfilters htable _ (by decide) e'
    | lookup => exact absurd hother (by decide)

/-- A selection that fails does so with its first fault. -/
theorem exists_firstFault_of_select (h : select settings source name? = .error e) :
    ∃ stage, FirstFault settings source name? stage e := by
  -- the stages come in the order of their positions, and the first that fails is at fault
  unfold select at h
  cases hfilters : filters settings with
  | error e' =>
    rw [hfilters, error_bind] at h
    obtain rfl := Except.error.inj h
    exact ⟨.expression, filters_eq_error_iff.1 hfilters,
      fun _ hother => absurd hother (Nat.not_lt_zero _)⟩
  | ok fs =>
    rw [hfilters, ok_bind] at h
    cases htable : source.table with
    | error e' =>
      rw [htable, error_bind] at h
      obtain rfl := Except.error.inj h
      exact exists_firstFault_of_table hfilters htable
    | ok table =>
      rw [htable, ok_bind] at h
      cases hname : table.resolve name? with
      | error e' =>
        rw [hname, error_bind] at h
        obtain rfl := Except.error.inj h
        exact ⟨.choice, (resolve_eq_error_iff htable).1 hname,
          not_faultAt_before_choice hfilters htable⟩
      | ok name =>
        rw [hname, ok_bind] at h
        cases hfind : table.finder.find name with
        | error error =>
          rw [hfind, mapError_error, error_bind] at h
          obtain rfl := Except.error.inj h
          obtain ⟨hnot, rfl⟩ := ModuleTable.find_finder_eq_error_iff.1 hfind
          exact ⟨.lookup, firstFault_lookup hfilters htable hname hnot⟩
        | ok tests =>
          rw [hfind] at h
          exact nomatch h

variable {stage : Stage}

theorem FirstFault.exists_filters (h : FirstFault settings source name? stage e)
    (hstage : 0 < stage.position) : ∃ fs, filters settings = .ok fs := by
  cases hfilters : filters settings with
  | ok fs => exact ⟨fs, rfl⟩
  | error e' => exact absurd (filters_eq_error_iff.1 hfilters) (h.before .expression hstage e')

theorem FirstFault.select_eq_of_table (h : FirstFault settings source name? stage e)
    (hstage : 0 < stage.position) (htable : source.table = .error e) :
    select settings source name? = .error e := by
  obtain ⟨fs, hfilters⟩ := h.exists_filters hstage
  rw [select, hfilters, ok_bind, htable, error_bind]

/-- A selection with a first fault fails with it. -/
theorem FirstFault.select_eq (h : FirstFault settings source name? stage e) :
    select settings source name? = .error e := by
  have hfault := h.faultAt
  -- behind the expression, each fault tells itself that the stages before it come to something
  cases hfault with
  | expression herror => rw [select, filters, herror, mapError_error, error_bind]
  | file => exact h.select_eq_of_table (by decide) (table_eq_error_iff.2 (.inl (.inl h.faultAt)))
  | standardInput =>
    exact h.select_eq_of_table (by decide) (table_eq_error_iff.2 (.inl (.inr h.faultAt)))
  | document => exact h.select_eq_of_table (by decide) (table_eq_error_iff.2 (.inr h.faultAt))
  | choice htext hmodules hnone hchoice =>
    obtain ⟨fs, hfilters⟩ := h.exists_filters (by decide)
    have htable := TreeSource.table_eq_ok_iff.2 ⟨_, _, htext, hmodules, rfl⟩
    rw [select, hfilters, ok_bind, htable, ok_bind, (resolve_eq_error_iff htable).2 h.faultAt,
      error_bind]
  | lookup htext hmodules hgiven hnot =>
    obtain ⟨fs, hfilters⟩ := h.exists_filters (by decide)
    have htable := TreeSource.table_eq_ok_iff.2 ⟨_, _, htext, hmodules, rfl⟩
    rw [← ModuleTable.mem_names_ofList] at hnot
    have hfind := ModuleTable.find_finder_eq_error_iff.2 ⟨hnot, rfl⟩
    rw [select, hfilters, ok_bind, htable, ok_bind, hgiven, ModuleTable.resolve, ok_bind, hfind]
    rfl

/-- **A selection fails with its first fault.** -/
theorem select_eq_error_iff :
    select settings source name? = .error e ↔ ∃ stage, FirstFault settings source name? stage e :=
  ⟨exists_firstFault_of_select, fun h => h.choose_spec.select_eq⟩

/-- There is no other first fault. -/
theorem FirstFault.unique {other : Stage} {e' : Failure}
    (h : FirstFault settings source name? stage e)
    (h' : FirstFault settings source name? other e') : other = stage ∧ e' = e := by
  have hle : stage.position ≤ other.position :=
    Nat.le_of_not_lt fun hlt => h.before other hlt e' h'.faultAt
  have hge : other.position ≤ stage.position :=
    Nat.le_of_not_lt fun hlt => h'.before stage hlt e h.faultAt
  exact ⟨Stage.eq_of_position_eq (Nat.le_antisymm hge hle),
    Except.error.inj (h'.select_eq.symm.trans h.select_eq)⟩

/-- The command that reads an expression has the first of the stages only. -/
theorem parse_eq_error_iff :
    parse settings = .error e ↔
      ∃ error, FilterSet.parse settings.filterExpression.value = .error error ∧
        e = .invalidFilter error := by
  rw [parse, bind_eq_error_iff, filters, mapError_eq_error_iff]
  exact or_iff_left fun h => nomatch h.choose_spec.2

/-- A run fails as a selection does. -/
theorem run_eq_error_iff :
    run settings source name? = .error e ↔ select settings source name? = .error e := by
  obtain ⟨fs, table, name, tests, hfound⟩ | ⟨e', hselect, hrun⟩ :=
    found_or_fails settings source name?
  · rw [hfound.select_eq, hfound.run_eq]
    exact iff_of_false nofun nofun
  · rw [hselect, hrun]

/-- A run that succeeds lets no example fail. -/
theorem passed_of_run {report : Report} (h : run settings source name? = .ok report) :
    report.passed = true := by
  obtain ⟨fs, table, name, tests, hfound⟩ | ⟨e, -, hrun⟩ := found_or_fails settings source name?
  · obtain rfl := Except.ok.inj (h.symm.trans hfound.run_eq)
    rfl
  · exact nomatch h.symm.trans hrun

end Command

/-- **Selections and runs fail alike, with the first fault, and write nothing then.**  For all
settings, wherever the test tree comes from and whatever is there, and whether a module is given or
not, a selection and a run either both succeed, the run without a failed example, or both fail with
the fault of the first stage that has one.  A module is not found only if it was given.  Whenever
one of the commands fails, what has been written is what had been written before it, in either
format. -/
theorem commands_fail_at_first_fault [PatternEngine] (settings : Settings) (source : TreeSource)
    (name? : Option String) (written : String) :
    let parse := (Command.writeParse settings).after written
    let select := (Command.writeSelect settings source name?).after written
    let run := (Command.writeRun settings source name?).after written
    ((select.1 = .ok () ∧ run.1 = .ok true) ∨
      ∃ stage e, Command.FirstFault settings source name? stage e ∧
        select = (.error e, written) ∧ run = (.error e, written)) ∧
    (∀ stage e, Command.FirstFault settings source name? stage e →
      select = (.error e, written) ∧ run = (.error e, written) ∧
        ∀ other e', Command.FirstFault settings source name? other e' → other = stage ∧ e' = e) ∧
    (∀ name, select.1 = .error (.discovery (.moduleNotFound name)) → name? = some name) ∧
    (∀ passed, run.1 = .ok passed → passed = true) ∧
    (∀ e, parse.1 = .error e → parse.2 = written) ∧
    (∀ e, select.1 = .error e → select.2 = written) ∧
    (∀ e, run.1 = .error e → run.2 = written) := by
  intro parse select run
  have hparse : parse = _ := Command.after_writeParse settings written
  have hselect : select = _ := Command.after_writeSelect settings source name? written
  have hrun : run = _ := Command.after_writeRun settings source name? written
  have hpassed : ∀ passed, run.1 = .ok passed → passed = true := by
    intro passed h
    rw [hrun, Writing.reported_eq_ok_iff] at h
    obtain ⟨report, hreport, rfl⟩ := h
    exact Command.passed_of_run hreport
  -- a command that fails has not written its report
  have hfail : ∀ {e}, Command.select settings source name? = .error e →
      select = (.error e, written) ∧ run = (.error e, written) := by
    intro e h
    rw [hselect, hrun]
    exact ⟨Writing.reported_of_error h,
      Writing.reported_of_error (Command.run_eq_error_iff.2 h)⟩
  refine ⟨?_, ?_, ?_, hpassed, ?_, ?_, ?_⟩
  · cases h : Command.select settings source name? with
    | error e =>
      obtain ⟨stage, hfirst⟩ := Command.select_eq_error_iff.1 h
      exact .inr ⟨stage, e, hfirst, hfail h⟩
    | ok report =>
      refine .inl ⟨?_, ?_⟩
      · rw [hselect, Writing.reported_eq_ok_iff]
        exact ⟨report, h, rfl⟩
      · cases hresult : run.1 with
        | ok passed => rw [hpassed passed hresult]
        | error e =>
          rw [hrun, Writing.reported_eq_error_iff, Command.run_eq_error_iff, h] at hresult
          exact nomatch hresult
  · intro stage e hfirst
    obtain ⟨hselection, hrunning⟩ := hfail hfirst.select_eq
    exact ⟨hselection, hrunning, fun other e' hother => hfirst.unique hother⟩
  · intro name h
    rw [hselect, Writing.reported_eq_error_iff, Command.select_eq_error_iff] at h
    obtain ⟨stage, hfault, -⟩ := h
    cases hfault with
    | lookup _ _ hgiven _ => exact hgiven
    | choice _ _ _ hchoice => exact nomatch hchoice
  · intro e h
    rw [hparse, Writing.reported_eq_error_iff] at h
    rw [hparse, Writing.reported_of_error h]
  · intro e h
    rw [hselect, Writing.reported_eq_error_iff] at h
    rw [hselect, Writing.reported_of_error h]
  · intro e h
    rw [hrun, Writing.reported_eq_error_iff] at h
    rw [hrun, Writing.reported_of_error h]

attribute [local instance] PatternEngine.bySize

/-- A file that cannot be read and a module that is given, with an expression that is not read
either, and with one that is. -/
theorem commands_fail_at_first_fault_of_missing_file :
    let settings (expression : String) : Settings :=
      { Settings.defaults with filterExpression := ⟨expression, .flag⟩ }
    let source : TreeSource := .file "tree.json" (.error "No such file or directory (os error 2)")
    let unread : Failure := .invalidFilter (.tooManyParts "a:1:2" 3)
    let missing : Failure := .invalidArguments
      "cannot read tree.json: No such file or directory (os error 2)"
    ((Command.writeSelect (settings "a:1:2") source (some "m")).after "" = (.error unread, "") ∧
      (Command.writeRun (settings "a:1:2") source (some "m")).after "" = (.error unread, "")) ∧
    ((Command.writeSelect (settings "a:1") source (some "m")).after "" = (.error missing, "") ∧
      (Command.writeRun (settings "a:1") source (some "m")).after "" = (.error missing, "")) := by
  intro settings source unread missing
  constructor
  · have hfirst : Command.FirstFault (settings "a:1:2") source (some "m") .expression unread :=
      ⟨.expression (by decide), fun _ hother => absurd hother (Nat.not_lt_zero _)⟩
    obtain ⟨hselect, hrun, -⟩ :=
      (commands_fail_at_first_fault (settings "a:1:2") source (some "m") "").2.1 _ _ hfirst
    exact ⟨hselect, hrun⟩
  · have hfilters : Command.filters (settings "a:1") =
        .ok ⟨[⟨⟨"a", by decide, ⟨'a', by decide⟩⟩, some ⟨[.single 1]⟩⟩]⟩ := by decide
    have hfirst : Command.FirstFault (settings "a:1") source (some "m") .file missing :=
      Command.firstFault_file hfilters (.file rfl (.unreadable _))
    obtain ⟨hselect, hrun, -⟩ :=
      (commands_fail_at_first_fault (settings "a:1") source (some "m") "").2.1 _ _ hfirst
    exact ⟨hselect, hrun⟩

end DoctestSelection
