import DoctestSelection.Failure
import DoctestSelection.Text.Blank

/-!
# Settings

Each setting takes its value from the highest of three layers that gives one: the defaults, the
environment, and the flags of the command line.  The environment is read even where a flag
overrides it, so a bad value in it is always noticed.

## Main definitions

* `Layer`, `Layered`, `Layered.merge` — values with the layer they come from.
* `LogLevel.parse`, `OutputFormat.parse` — the settings that have few values.
* `Settings`, `Settings.resolve` — the settings, and how they are settled.
-/

namespace DoctestSelection

/-! ### Layers -/

/-- Where the value of a setting comes from. -/
inductive Layer
  /-- The lowest layer, which has a value for every setting. -/
  | default
  | environment
  | flag
  deriving DecidableEq, Repr, Inhabited

/-- The height of a layer. -/
def Layer.rank : Layer → Nat
  | .default => 0
  | .environment => 1
  | .flag => 2

/-- A value and the layer it comes from. -/
structure Layered (α : Type) where
  value : α
  layer : Layer
  deriving DecidableEq, Repr, Inhabited

/-- The value of the higher layer; within one layer, the later value. -/
def Layered.merge {α : Type} (earlier later : Layered α) : Layered α :=
  if earlier.layer.rank ≤ later.layer.rank then later else earlier

/-! ### Settings with few values -/

/-- How much is logged, from everything down to what is wrong. -/
inductive LogLevel
  | trace
  | debug
  | info
  | warn
  | error
  deriving DecidableEq, Repr, Inhabited

/-- How reports are written. -/
inductive OutputFormat
  | json
  | text
  deriving DecidableEq, Repr, Inhabited

/-- A text without blanks around it and with its letters in lower case.  Only ASCII letters change:
no other letter has one of the letters of a setting as its lower case. -/
def normalized (s : String) : String :=
  String.ofList ((Text.trimList s.toList).map Char.toLower)

namespace LogLevel

/-- The name of a level. -/
def name : LogLevel → String
  | .trace => "trace"
  | .debug => "debug"
  | .info => "info"
  | .warn => "warn"
  | .error => "error"

/-- The level with a name. -/
def ofName? : String → Option LogLevel
  | "trace" => some .trace
  | "debug" => some .debug
  | "info" => some .info
  | "warn" => some .warn
  | "error" => some .error
  | _ => none

/-- The values that are possible. -/
def expected : String := "trace, debug, info, warn or error"

/-- The level that a text spells, or what is expected of it. -/
def parse (s : String) : Except String LogLevel :=
  match normalized s with
  -- the one level with a second name
  | "warning" => .ok .warn
  | name => ((ofName? name).map .ok).getD (.error expected)

end LogLevel

namespace OutputFormat

/-- The name of a format. -/
def name : OutputFormat → String
  | .json => "json"
  | .text => "text"

/-- The format with a name. -/
def ofName? : String → Option OutputFormat
  | "json" => some .json
  | "text" => some .text
  | _ => none

/-- The values that are possible. -/
def expected : String := "json or text"

/-- The format that a text spells, or what is expected of it. -/
def parse (s : String) : Except String OutputFormat :=
  ((ofName? (normalized s)).map .ok).getD (.error expected)

end OutputFormat

/-! ### All settings -/

/-- What the flags of a command line say about the settings. -/
structure Flags where
  /-- The filters, in the order in which they are given. -/
  filters : List String := []
  logLevel : Option LogLevel := none
  outputFormat : Option OutputFormat := none
  deriving DecidableEq, Repr, Inhabited

/-- The filter expression that flags spell, if there is a filter among them. -/
def Flags.filterExpression? (flags : Flags) : Option String :=
  if flags.filters.isEmpty then none else some (" ".intercalate flags.filters)

/-- The settings. -/
structure Settings where
  filterExpression : Layered String
  logLevel : Layered LogLevel
  outputFormat : Layered OutputFormat
  deriving DecidableEq, Repr, Inhabited

namespace Settings

/-- The environment variable for the filter expression. -/
def filterVariable : String := "DOCSEL_FILTER"

/-- The environment variable for the log level. -/
def levelVariable : String := "DOCSEL_LOG"

/-- The environment variable for the output format. -/
def formatVariable : String := "DOCSEL_FORMAT"

/-- The settings when nothing is said about them. -/
def defaults : Settings := ⟨⟨"", .default⟩, ⟨.warn, .default⟩, ⟨.json, .default⟩⟩

/-- A value with what a higher layer says about it. -/
def override {α : Type} (base : Layered α) (layer : Layer) : Option α → Layered α
  | none => base
  | some value => base.merge ⟨value, layer⟩

/-- What a variable says, if it is set. -/
def readVariable {α : Type} (env : String → Option String) (variableName : String)
    (parse : String → Except String α) : Except SettingError (Option α) :=
  match env variableName with
  | none => .ok none
  | some value =>
    match parse value with
    | .ok a => .ok (some a)
    | .error expected => .error ⟨variableName, value, expected⟩

/-- The settings from the environment and the flags.  The log level is read before the format. -/
def resolve (env : String → Option String) (flags : Flags) : Except SettingError Settings := do
  let level ← readVariable env levelVariable LogLevel.parse
  let format ← readVariable env formatVariable OutputFormat.parse
  let fromEnvironment : Settings := {
    filterExpression := override defaults.filterExpression .environment (env filterVariable)
    logLevel := override defaults.logLevel .environment level
    outputFormat := override defaults.outputFormat .environment format }
  return {
    filterExpression :=
      override fromEnvironment.filterExpression .flag flags.filterExpression?
    logLevel := override fromEnvironment.logLevel .flag flags.logLevel
    outputFormat := override fromEnvironment.outputFormat .flag flags.outputFormat }

end Settings

end DoctestSelection
