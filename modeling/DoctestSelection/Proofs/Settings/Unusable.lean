import DoctestSelection.Proofs.Text.Pieces
import DoctestSelection.Settings

/-!
# Variables that cannot be used

Of the variables of the environment two have few values.  Both are read before any flag is looked
at, so settling the settings fails exactly when one of them has a value that it cannot have,
whatever the flags say.  If both have one, the variable for the log level is blamed.

## Main definitions

* `LogLevel.spellings`, `OutputFormat.spellings` — the values that are possible.
* `Settings.Unusable` — the variable that is blamed.

## Main results

* `Settings.resolve_eq_error_iff` — **the settings are settled unless a variable is unusable.**
-/

namespace DoctestSelection

open Text

/-! ### Values that are possible -/

/-- The values that stand for a log level. -/
def LogLevel.spellings : List String := ["warning", "trace", "debug", "info", "warn", "error"]

/-- The values that stand for an output format. -/
def OutputFormat.spellings : List String := ["json", "text"]

theorem LogLevel.ofName?_eq_none_iff {name : String} :
    ofName? name = none ↔ name ∉ ["trace", "debug", "info", "warn", "error"] := by
  unfold ofName?
  split <;> simp_all

theorem LogLevel.parse_eq_error_iff {s message : String} :
    parse s = .error message ↔ normalized s ∉ spellings ∧ message = expected := by
  rw [spellings, List.mem_cons, not_or, ← ofName?_eq_none_iff]
  unfold parse
  split
  · rename_i hwarning
    exact iff_of_false nofun fun h => h.1.1 hwarning
  · rename_i name hname
    cases ofName? (normalized s) with
    | none =>
      show Except.error expected = Except.error message ↔ _
      rw [Except.error.injEq]
      exact ⟨fun h => ⟨⟨hname, rfl⟩, h.symm⟩, fun h => h.2.symm⟩
    | some level => exact iff_of_false nofun fun h => nomatch h.1.2

theorem OutputFormat.ofName?_eq_none_iff {name : String} :
    ofName? name = none ↔ name ∉ spellings := by
  unfold ofName? spellings
  split <;> simp_all

theorem OutputFormat.parse_eq_error_iff {s message : String} :
    parse s = .error message ↔ normalized s ∉ spellings ∧ message = expected := by
  rw [parse, ← ofName?_eq_none_iff]
  cases ofName? (normalized s) with
  | none =>
    show Except.error expected = Except.error message ↔ _
    rw [Except.error.injEq]
    exact ⟨fun h => ⟨rfl, h.symm⟩, fun h => h.2.symm⟩
  | some format => exact iff_of_false nofun fun h => nomatch h.1

namespace Settings

variable {env : String → Option String} {flags : Flags} {e : SettingError}

/-! ### Variables -/

theorem readVariable_eq_error_iff {α : Type} {variableName : String}
    {parse : String → Except String α} :
    readVariable env variableName parse = .error e ↔
      ∃ value expected, env variableName = some value ∧ parse value = .error expected ∧
        e = ⟨variableName, value, expected⟩ := by
  unfold readVariable
  cases env variableName with
  | none => exact iff_of_false nofun fun ⟨_, _, h, _⟩ => nomatch h
  | some value =>
    dsimp only
    cases hparse : parse value with
    | ok a =>
      refine iff_of_false nofun ?_
      rintro ⟨_, _, ⟨⟩, herror, -⟩
      exact nomatch hparse.symm.trans herror
    | error expected =>
      rw [Except.error.injEq]
      constructor
      · intro h
        exact ⟨value, expected, rfl, hparse, h.symm⟩
      · rintro ⟨_, _, ⟨⟩, herror, rfl⟩
        rw [Except.error.inj (hparse.symm.trans herror)]

/-- A variable is read unless it has a value that it cannot have. -/
theorem exists_readVariable_iff {α : Type} {variableName : String}
    {parse : String → Except String α} :
    (∃ a, readVariable env variableName parse = .ok a) ↔
      ∀ value, env variableName = some value → ∀ expected, parse value ≠ .error expected := by
  cases h : readVariable env variableName parse with
  | ok a =>
    refine iff_of_true ⟨a, rfl⟩ ?_
    intro value hvalue expected herror
    have hunread : readVariable env variableName parse = .error ⟨variableName, value, expected⟩ :=
      readVariable_eq_error_iff.2 ⟨value, expected, hvalue, herror, rfl⟩
    exact nomatch h.symm.trans hunread
  | error e =>
    obtain ⟨value, expected, hvalue, herror, -⟩ := readVariable_eq_error_iff.1 h
    exact iff_of_false nofun fun hall => hall value hvalue expected herror

/-- The variable that is blamed, and its value. -/
inductive Unusable (env : String → Option String) : SettingError → Prop
  | level {value : String} : env "DOCSEL_LOG" = some value →
      normalized value ∉ LogLevel.spellings →
      Unusable env ⟨"DOCSEL_LOG", value, "trace, debug, info, warn or error"⟩
  | format {value : String} :
      (∀ v, env "DOCSEL_LOG" = some v → normalized v ∈ LogLevel.spellings) →
      env "DOCSEL_FORMAT" = some value → normalized value ∉ OutputFormat.spellings →
      Unusable env ⟨"DOCSEL_FORMAT", value, "json or text"⟩

/-- **The settings are settled unless a variable is unusable**, whatever the flags say. -/
theorem resolve_eq_error_iff : resolve env flags = .error e ↔ Unusable env e := by
  unfold resolve
  simp only [bind_eq_error_iff]
  constructor
  · rintro (h | ⟨level, hlevel, h | ⟨format, -, h⟩⟩)
    · obtain ⟨value, message, hvalue, hparse, rfl⟩ := readVariable_eq_error_iff.1 h
      obtain ⟨hnot, rfl⟩ := LogLevel.parse_eq_error_iff.1 hparse
      exact .level hvalue hnot
    · obtain ⟨value, message, hvalue, hparse, rfl⟩ := readVariable_eq_error_iff.1 h
      obtain ⟨hnot, rfl⟩ := OutputFormat.parse_eq_error_iff.1 hparse
      refine .format (fun v hv => ?_) hvalue hnot
      have hread : ∀ expected, LogLevel.parse v ≠ .error expected :=
        exists_readVariable_iff.1 ⟨level, hlevel⟩ v hv
      by_contra hv
      exact hread _ (LogLevel.parse_eq_error_iff.2 ⟨hv, rfl⟩)
    · exact nomatch h
  · intro h
    cases h with
    | level hvalue hnot =>
      exact .inl (readVariable_eq_error_iff.2
        ⟨_, _, hvalue, LogLevel.parse_eq_error_iff.2 ⟨hnot, rfl⟩, rfl⟩)
    | format hlevel hvalue hnot =>
      obtain ⟨level, hread⟩ := exists_readVariable_iff.2 fun v hv expected herror =>
        (LogLevel.parse_eq_error_iff.1 herror).1 (hlevel v hv)
      exact .inr ⟨level, hread, .inl (readVariable_eq_error_iff.2
        ⟨_, _, hvalue, OutputFormat.parse_eq_error_iff.2 ⟨hnot, rfl⟩, rfl⟩)⟩

end Settings

end DoctestSelection
