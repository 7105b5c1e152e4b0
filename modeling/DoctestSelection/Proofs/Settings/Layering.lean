import DoctestSelection.Proofs.Settings.FilterFlags
import DoctestSelection.Proofs.Settings.Unusable

/-!
# Settings by layer

A setting takes the value of the highest layer that gives one, and its source is that layer.  It
asks for its own flags and its own variable only, so no setting has an influence on another one.

A variable is not left unread where a flag overrides it: it can still be unusable, and then nothing
is settled.  But among environments in which nothing is unusable, what a variable says makes no
difference to a setting that has a flag.  A variable that is set to nothing is set, and flags that
hold nothing but blanks are flags; both hide the layers below them.

## Main definitions

* `LogLevel.IsSpelledBy`, `OutputFormat.IsSpelledBy` — the texts that stand for a value.
* `Layered.highest flag environment default` — the value of the highest layer that gives one.
* `Settings.Says env variableName IsSpelledBy a?` — what a variable says, if it is set.

## Main results

* `Settings.override_override` — **a value that is overridden layer by layer is that of the highest
  one.**
* `Settings.resolve_eq_ok_iff` — the settings that are settled.
* `settings_take_highest_layer` — **each setting takes the value of the highest layer**, and which
  variables can be to blame if nothing is settled.
-/

namespace DoctestSelection

open Text

/-! ### Values and their texts -/

namespace LogLevel

/-- The texts that stand for a level, up to blanks around them and upper case: its name, and for one
level a second name. -/
def IsSpelledBy (level : LogLevel) (text : String) : Prop :=
  normalized text = level.name ∨ normalized text = "warning" ∧ level = .warn

theorem ofName?_eq_some_iff {name : String} {level : LogLevel} :
    ofName? name = some level ↔ name = level.name := by
  constructor
  · intro h
    unfold ofName? at h
    split at h <;> cases h <;> rfl
  · rintro rfl
    cases level <;> rfl

theorem parse_eq_ok_iff {s : String} {level : LogLevel} :
    parse s = .ok level ↔ level.IsSpelledBy s := by
  unfold parse IsSpelledBy
  split
  · rename_i hwarning
    have hname : "warning" ≠ level.name := by cases level <;> decide
    rw [hwarning, Except.ok.injEq]
    constructor
    · rintro rfl
      exact .inr ⟨rfl, rfl⟩
    · rintro (hsame | ⟨-, rfl⟩)
      · exact absurd hsame hname
      · rfl
  · rename_i hwarning
    rw [← ofName?_eq_some_iff]
    cases ofName? (normalized s) with
    | none => exact iff_of_false nofun fun h => h.elim nofun fun h => hwarning h.1
    | some found =>
      show Except.ok found = Except.ok level ↔ _
      rw [Except.ok.injEq, Option.some.injEq]
      exact ⟨.inl, fun h => h.elim id fun h => absurd h.1 hwarning⟩

end LogLevel

namespace OutputFormat

/-- The text that stands for a format, up to blanks around it and upper case. -/
def IsSpelledBy (format : OutputFormat) (text : String) : Prop := normalized text = format.name

theorem ofName?_eq_some_iff {name : String} {format : OutputFormat} :
    ofName? name = some format ↔ name = format.name := by
  constructor
  · intro h
    unfold ofName? at h
    split at h <;> cases h <;> rfl
  · rintro rfl
    cases format <;> rfl

theorem parse_eq_ok_iff {s : String} {format : OutputFormat} :
    parse s = .ok format ↔ format.IsSpelledBy s := by
  rw [parse, IsSpelledBy, ← ofName?_eq_some_iff]
  cases ofName? (normalized s) with
  | none => simp
  | some found =>
    show Except.ok found = Except.ok format ↔ _
    rw [Except.ok.injEq, Option.some.injEq]

end OutputFormat

/-- A text stands for no value when it is not one of those that are possible. -/
theorem forall_not_spelled_iff {α : Type} {parse : String → Except String α}
    {IsSpelledBy : α → String → Prop} {spellings : List String} {expected : String}
    (hok : ∀ {s a}, parse s = .ok a ↔ IsSpelledBy a s)
    (herror : ∀ {s message},
      parse s = .error message ↔ normalized s ∉ spellings ∧ message = expected) {s : String} :
    (∀ a, ¬ IsSpelledBy a s) ↔ normalized s ∉ spellings := by
  simp only [← hok]
  cases hparse : parse s with
  | ok a =>
    refine iff_of_false (fun hnone => hnone a rfl) fun hnot => ?_
    exact nomatch hparse.symm.trans (herror.2 ⟨hnot, rfl⟩)
  | error message => exact iff_of_true (fun a => nofun) (herror.1 hparse).1

/-! ### Layers -/

/-- The value of the highest layer that gives one, with that layer.  The lowest layer always gives
one. -/
def Layered.highest {α : Type} (flag environment : Option α) (default : α) : Layered α :=
  match flag, environment with
  | some value, _ => ⟨value, .flag⟩
  | none, some value => ⟨value, .environment⟩
  | none, none => ⟨default, .default⟩

theorem Layered.highest_congr {α : Type} {flag environment environment' : Option α} {default : α}
    (h : flag = none → environment = environment') :
    highest flag environment default = highest flag environment' default := by
  cases flag with
  | some value => rfl
  | none => rw [h rfl]

namespace Settings

variable {env env' : String → Option String} {flags : Flags} {settings settings' : Settings}

/-- **A value that is overridden layer by layer is that of the highest one.** -/
theorem override_override {α : Type} (flag environment : Option α) (default : α) :
    override (override ⟨default, .default⟩ .environment environment) .flag flag =
      .highest flag environment default := by
  cases flag with
  | some value => exact override_flag _ value
  | none => cases environment <;> rfl

/-! ### Variables -/

/-- What a variable says, if it is set: a value that its text stands for. -/
inductive Says {α : Type} (env : String → Option String) (variableName : String)
    (IsSpelledBy : α → String → Prop) : Option α → Prop
  | unset : env variableName = none → Says env variableName IsSpelledBy none
  | set {text : String} {a : α} : env variableName = some text → IsSpelledBy a text →
      Says env variableName IsSpelledBy (some a)

theorem readVariable_eq_ok_iff {α : Type} {variableName : String}
    {parse : String → Except String α} {IsSpelledBy : α → String → Prop}
    (hparse : ∀ {s a}, parse s = .ok a ↔ IsSpelledBy a s) {a? : Option α} :
    readVariable env variableName parse = .ok a? ↔ Says env variableName IsSpelledBy a? := by
  unfold readVariable
  cases henv : env variableName with
  | none =>
    rw [Except.ok.injEq]
    constructor
    · rintro rfl
      exact .unset henv
    · rintro (- | ⟨htext, -⟩)
      · rfl
      · exact nomatch henv.symm.trans htext
  | some text =>
    dsimp only
    have hvalue : Says env variableName IsSpelledBy a? ↔ ∃ a, parse text = .ok a ∧ a? = some a := by
      simp only [hparse]
      constructor
      · rintro (hunset | @⟨text', a, htext, hspells⟩)
        · exact nomatch henv.symm.trans hunset
        · obtain rfl : text = text' := Option.some.inj (henv.symm.trans htext)
          exact ⟨a, hspells, rfl⟩
      · rintro ⟨a, hspells, rfl⟩
        exact .set henv hspells
    rw [hvalue]
    cases parse text with
    | error expected => exact iff_of_false nofun nofun
    | ok a =>
      simp only [Except.ok.injEq, exists_eq_left']
      exact eq_comm

/-- What a variable says depends on the variable alone. -/
theorem readVariable_congr {α : Type} {variableName : String}
    (h : env variableName = env' variableName) (parse : String → Except String α) :
    readVariable env variableName parse = readVariable env' variableName parse := by
  rw [readVariable, h, readVariable]

/-! ### All settings -/

theorem resolve_eq_ok_iff_readVariable :
    resolve env flags = .ok settings ↔
      ∃ level format,
        readVariable env "DOCSEL_LOG" LogLevel.parse = .ok level ∧
        readVariable env "DOCSEL_FORMAT" OutputFormat.parse = .ok format ∧
        settings = {
          filterExpression := .highest flags.filterExpression? (env "DOCSEL_FILTER") ""
          logLevel := .highest flags.logLevel level .warn
          outputFormat := .highest flags.outputFormat format .json } := by
  unfold resolve
  simp only [bind_eq_ok_iff]
  constructor
  · rintro ⟨level, hlevel, format, hformat, hsettings⟩
    refine ⟨level, format, hlevel, hformat, ?_⟩
    rw [← Except.ok.inj hsettings, ← override_override, ← override_override, ← override_override]
    rfl
  · rintro ⟨level, format, hlevel, hformat, rfl⟩
    refine ⟨level, hlevel, format, hformat, ?_⟩
    rw [← override_override, ← override_override, ← override_override]
    rfl

/-- The settings that are settled: each takes the value of the highest layer that gives one, if no
variable is unusable. -/
theorem resolve_eq_ok_iff :
    resolve env flags = .ok settings ↔
      ∃ level format,
        Says env "DOCSEL_LOG" LogLevel.IsSpelledBy level ∧
        Says env "DOCSEL_FORMAT" OutputFormat.IsSpelledBy format ∧
        settings = {
          filterExpression := .highest flags.filterExpression? (env "DOCSEL_FILTER") ""
          logLevel := .highest flags.logLevel level .warn
          outputFormat := .highest flags.outputFormat format .json } := by
  simp only [resolve_eq_ok_iff_readVariable, readVariable_eq_ok_iff LogLevel.parse_eq_ok_iff,
    readVariable_eq_ok_iff OutputFormat.parse_eq_ok_iff]

/-- A variable that a flag overrides makes no difference. -/
theorem eq_of_resolve (h : resolve env flags = .ok settings)
    (h' : resolve env' flags = .ok settings')
    (hfilter : flags.filters = [] → env "DOCSEL_FILTER" = env' "DOCSEL_FILTER")
    (hlevel : flags.logLevel = none → env "DOCSEL_LOG" = env' "DOCSEL_LOG")
    (hformat : flags.outputFormat = none → env "DOCSEL_FORMAT" = env' "DOCSEL_FORMAT") :
    settings = settings' := by
  obtain ⟨level, format, hread, hread', rfl⟩ := resolve_eq_ok_iff_readVariable.1 h
  obtain ⟨level', format', hread₁, hread₁', rfl⟩ := resolve_eq_ok_iff_readVariable.1 h'
  have hfilters : flags.filterExpression? = none → env "DOCSEL_FILTER" = env' "DOCSEL_FILTER" := by
    intro hnone
    refine hfilter ?_
    by_contra hne
    exact nomatch hnone.symm.trans (Flags.filterExpression?_of_ne_nil hne)
  have hlevels : flags.logLevel = none → level = level' := by
    intro hnone
    rw [readVariable_congr (hlevel hnone), hread₁] at hread
    exact (Except.ok.inj hread).symm
  have hformats : flags.outputFormat = none → format = format' := by
    intro hnone
    rw [readVariable_congr (hformat hnone), hread₁'] at hread'
    exact (Except.ok.inj hread').symm
  rw [Layered.highest_congr hfilters, Layered.highest_congr hlevels, Layered.highest_congr hformats]

/-- Something is unusable when one of the two variables with few values has none of them. -/
theorem exists_unusable_iff :
    (∃ e, Unusable env e) ↔
      (∃ value, env "DOCSEL_LOG" = some value ∧ ∀ level : LogLevel, ¬ level.IsSpelledBy value) ∨
        ∃ value, env "DOCSEL_FORMAT" = some value ∧
          ∀ format : OutputFormat, ¬ format.IsSpelledBy value := by
  simp only [forall_not_spelled_iff LogLevel.parse_eq_ok_iff LogLevel.parse_eq_error_iff,
    forall_not_spelled_iff OutputFormat.parse_eq_ok_iff OutputFormat.parse_eq_error_iff]
  constructor
  · rintro ⟨e, ⟨hvalue, hnot⟩ | ⟨-, hvalue, hnot⟩⟩
    · exact .inl ⟨_, hvalue, hnot⟩
    · exact .inr ⟨_, hvalue, hnot⟩
  · rintro (⟨value, hvalue, hnot⟩ | ⟨value, hvalue, hnot⟩)
    · exact ⟨_, .level hvalue hnot⟩
    · -- the variable for the log level is to blame if it is unusable too
      by_cases hgood : ∀ v, env "DOCSEL_LOG" = some v → normalized v ∈ LogLevel.spellings
      · exact ⟨_, .format hgood hvalue hnot⟩
      · simp only [not_forall] at hgood
        obtain ⟨v, hv, hbad⟩ := hgood
        exact ⟨_, .level hv hbad⟩

end Settings

/-- **Each setting takes the value of the highest layer that gives one**, with that layer, from its
own flags and its own variable.  Nothing is settled when one of the two variables with few values
has none of them, whatever the flags say; the error tells the variable that is looked at first, with
the value as it was written.  Where the settings are settled, a variable makes no difference to a
setting that has a flag. -/
theorem settings_take_highest_layer (env : String → Option String) (flags : Flags) :
    ((∃ e, Settings.resolve env flags = .error e) ↔
      (∃ value, env "DOCSEL_LOG" = some value ∧ ∀ level : LogLevel, ¬ level.IsSpelledBy value) ∨
        ∃ value, env "DOCSEL_FORMAT" = some value ∧
          ∀ format : OutputFormat, ¬ format.IsSpelledBy value) ∧
    (∀ e, Settings.resolve env flags = .error e ↔ Settings.Unusable env e) ∧
    (∀ settings, Settings.resolve env flags = .ok settings ↔
      ∃ level format,
        Settings.Says env "DOCSEL_LOG" LogLevel.IsSpelledBy level ∧
        Settings.Says env "DOCSEL_FORMAT" OutputFormat.IsSpelledBy format ∧
        settings.filterExpression =
          .highest (if flags.filters = [] then none else some (" ".intercalate flags.filters))
            (env "DOCSEL_FILTER") "" ∧
        settings.logLevel = .highest flags.logLevel level .warn ∧
        settings.outputFormat = .highest flags.outputFormat format .json) ∧
    ∀ env' settings settings', Settings.resolve env flags = .ok settings →
      Settings.resolve env' flags = .ok settings' →
      (flags.filters = [] → env "DOCSEL_FILTER" = env' "DOCSEL_FILTER") →
      (flags.logLevel = none → env "DOCSEL_LOG" = env' "DOCSEL_LOG") →
      (flags.outputFormat = none → env "DOCSEL_FORMAT" = env' "DOCSEL_FORMAT") →
      settings = settings' := by
  refine ⟨?_, fun e => Settings.resolve_eq_error_iff, fun settings => ?_,
    fun env' settings settings' => Settings.eq_of_resolve⟩
  · simp only [Settings.resolve_eq_error_iff]
    exact Settings.exists_unusable_iff
  · have hfilters : flags.filterExpression? =
        if flags.filters = [] then none else some (" ".intercalate flags.filters) := by
      rw [Flags.filterExpression?]
      exact if_congr List.isEmpty_iff rfl rfl
    rw [Settings.resolve_eq_ok_iff, hfilters]
    obtain ⟨expression, logLevel, outputFormat⟩ := settings
    simp only [Settings.mk.injEq]

/-- Blank flags hide a filter, a flag hides a variable with another value, and a variable that is set
to nothing is set; a flag does not make up for a variable that is unusable, and of two that are the
one for the log level is told. -/
theorem settings_take_highest_layer_of_blank_flags :
    let env (level format : String) : String → Option String := fun variableName =>
      if variableName = "DOCSEL_LOG" then some level
      else if variableName = "DOCSEL_FORMAT" then some format
      else some "f"
    let flags : Flags := { filters := ["", "\t"], logLevel := some .error }
    let settings : Settings := ⟨⟨" \t", .flag⟩, ⟨.error, .flag⟩, ⟨.text, .environment⟩⟩
    (Settings.resolve (env "debug" " Text\n") flags = .ok settings ∧
      Settings.resolve (env " WARNING" " Text\n") flags = .ok settings) ∧
    Settings.resolve (env "Loud " "xml") flags =
      .error ⟨"DOCSEL_LOG", "Loud ", "trace, debug, info, warn or error"⟩ := by
  intro env flags settings
  have hlevel : Settings.Says (env "debug" " Text\n") "DOCSEL_LOG" LogLevel.IsSpelledBy
      (some .debug) := .set rfl (.inl (by decide))
  have htext : env "debug" " Text\n" "DOCSEL_FORMAT" = some " Text\n" := by decide
  have hformat : Settings.Says (env "debug" " Text\n") "DOCSEL_FORMAT" OutputFormat.IsSpelledBy
      (some .text) := .set htext (show normalized " Text\n" = "text" by decide)
  obtain ⟨-, -, hok, hsame⟩ := settings_take_highest_layer (env "debug" " Text\n") flags
  have hsettings : Settings.resolve (env "debug" " Text\n") flags = .ok settings :=
    (hok settings).2 ⟨some .debug, some .text, hlevel, hformat, rfl, rfl, rfl⟩
  have hbad : normalized "Loud " ∉ LogLevel.spellings := by decide
  obtain ⟨settings', hsettings'⟩ :
      ∃ settings', Settings.resolve (env " WARNING" " Text\n") flags = .ok settings' :=
    ⟨settings, by decide⟩
  refine ⟨⟨hsettings, ?_⟩, ?_⟩
  · rw [hsettings', hsame (env " WARNING" " Text\n") settings settings' hsettings hsettings' nofun
      nofun fun _ => rfl]
  · exact ((settings_take_highest_layer (env "Loud " "xml") flags).2.1 _).2 (.level rfl hbad)

end DoctestSelection
