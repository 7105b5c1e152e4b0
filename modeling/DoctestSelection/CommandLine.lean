import DoctestSelection.Settings

/-!
# Command lines

A command line names a command among its arguments.  Options may stand before or behind the
command if they concern every command, and behind it otherwise; `--` ends the options.  An option
takes the rest of its argument as its value, or the next argument if that is not an option itself.
Reading stops at the first usage error and at the first request for help or for the version.

## Main definitions

* `Argument`, `Argument.ofString` — how a single argument reads.
* `CommandRequest`, `Invocation` — what is to be done.
* `Halt` — why reading stops early.
* `CommandLine.parse` — what a command line asks for.
-/

namespace DoctestSelection

/-! ### Single arguments -/

/-- How a single argument reads. -/
inductive Argument
  /-- The end of the options. -/
  | endOfOptions
  /-- A long option, and the value behind an equals sign if there is one. -/
  | long (name : String) (value? : Option String)
  /-- A short option, and what is attached to it. -/
  | short (letter : Char) (attached : List Char)
  /-- Anything else; a lone dash is of this kind. -/
  | plain (text : String)
  deriving DecidableEq, Repr, Inhabited

/-- How an argument reads. -/
def Argument.ofString (arg : String) : Argument :=
  match arg.toList with
  | ['-', '-'] => .endOfOptions
  | '-' :: '-' :: cs =>
    match cs.dropWhile (· != '=') with
    | [] => .long (String.ofList cs) none
    | _ :: value => .long (String.ofList (cs.takeWhile (· != '='))) (some (String.ofList value))
  | '-' :: letter :: attached => .short letter attached
  | _ => .plain arg

/-- The value that is attached to a short option, if there is one: an equals sign in front of it
does not belong to it. -/
def attachedValue? : List Char → Option String
  | [] => none
  | '=' :: value => some (String.ofList value)
  | value => some (String.ofList value)

/-! ### What is to be done -/

/-- The commands. -/
inductive CommandName
  | parse
  | select
  | run
  deriving DecidableEq, Repr, Inhabited

/-- The command with a name. -/
def CommandName.ofString? : String → Option CommandName
  | "parse" => some .parse
  | "select" => some .select
  | "run" => some .run
  | _ => none

/-- Whether a command works on a test tree. -/
def CommandName.needsTree : CommandName → Bool
  | .parse => false
  | .select => true
  | .run => true

/-- A command with what it works on. -/
inductive CommandRequest
  | parse
  | select (tree : String) (moduleName : Option String)
  | run (tree : String) (moduleName : Option String)
  deriving DecidableEq, Repr, Inhabited

/-- The path of the test tree that a command works on. -/
def CommandRequest.tree? : CommandRequest → Option String
  | .parse => none
  | .select tree _ => some tree
  | .run tree _ => some tree

/-- A command and the flags for it. -/
structure Invocation where
  command : CommandRequest
  /-- What the command line says about the settings. -/
  flags : Flags
  deriving DecidableEq, Repr, Inhabited

/-- Why reading a command line stops early. -/
inductive Halt
  | usageError
  | help
  | version
  deriving DecidableEq, Repr, Inhabited

/-! ### Options -/

/-- The options that take a value. -/
inductive ValueOption
  | test
  | moduleName
  | logLevel
  | outputFormat
  deriving DecidableEq, Repr, Inhabited

/-- The option that concerns every command and has a long name. -/
def ValueOption.ofGlobalName? : String → Option ValueOption
  | "log-level" => some .logLevel
  | "format" => some .outputFormat
  | _ => none

/-- The option of a command that has a long name. -/
def ValueOption.ofName? (command : CommandName) : String → Option ValueOption
  | "test" => some .test
  | "module" => if command.needsTree then some .moduleName else none
  | name => ofGlobalName? name

/-- What has been read of a command line. -/
structure PartialInvocation where
  flags : Flags := {}
  tree : Option String := none
  moduleName : Option String := none
  deriving DecidableEq, Repr, Inhabited

namespace PartialInvocation

/-- A value for something that may be said once. -/
def once {α : Type} (current : Option α) (value? : Option α) : Except Halt (Option α) :=
  match current, value? with
  | none, some value => .ok (some value)
  | _, _ => .error .usageError

/-- Takes an option with its value.  Filters may be given repeatedly, all else once. -/
def setOption (p : PartialInvocation) (value : String) :
    ValueOption → Except Halt PartialInvocation
  | .test => .ok { p with flags := { p.flags with filters := p.flags.filters ++ [value] } }
  | .moduleName => do return { p with moduleName := ← once p.moduleName (some value) }
  | .logLevel => do
    let logLevel ← once p.flags.logLevel (LogLevel.ofName? value)
    return { p with flags := { p.flags with logLevel } }
  | .outputFormat => do
    let outputFormat ← once p.flags.outputFormat (OutputFormat.ofName? value)
    return { p with flags := { p.flags with outputFormat } }

/-- Takes an argument that is no option: the path of the test tree, which is not empty, if the
command works on one. -/
def setPlain (p : PartialInvocation) (command : CommandName) (text : String) :
    Except Halt PartialInvocation :=
  if command.needsTree && !text.isEmpty then
    do return { p with tree := ← once p.tree (some text) }
  else .error .usageError

/-- The invocation of a command, if everything that it needs is there. -/
def complete (p : PartialInvocation) : CommandName → Except Halt Invocation
  | .parse => .ok ⟨.parse, p.flags⟩
  | .select =>
    match p.tree with
    | some tree => .ok ⟨.select tree p.moduleName, p.flags⟩
    | none => .error .usageError
  | .run =>
    match p.tree with
    | some tree => .ok ⟨.run tree p.moduleName, p.flags⟩
    | none => .error .usageError

end PartialInvocation

/-! ### Command lines -/

namespace CommandLine

/-- Takes all the arguments behind the end of the options. -/
def readPlain (command : CommandName) :
    PartialInvocation → List String → Except Halt PartialInvocation
  | p, [] => .ok p
  | p, arg :: args => do readPlain command (← p.setPlain command arg) args

/-- Takes the arguments behind the name of a command. -/
def readArguments (command : CommandName) :
    PartialInvocation → List String → Except Halt PartialInvocation
  | p, [] => .ok p
  | p, arg :: args =>
    let detached (option : ValueOption) : Except Halt PartialInvocation :=
      match args with
      | [] => .error .usageError
      | next :: args =>
        match Argument.ofString next with
        | .plain value => do readArguments command (← p.setOption value option) args
        | _ => .error .usageError
    match Argument.ofString arg with
    -- from here on a dash in front means nothing
    | .endOfOptions => readPlain command p args
    | .plain text => do readArguments command (← p.setPlain command text) args
    | .short 'h' _ => .error .help
    | .short 't' attached =>
      match attachedValue? attached with
      | some value => do readArguments command (← p.setOption value .test) args
      | none => detached .test
    | .short _ _ => .error .usageError
    | .long "help" none => .error .help
    | .long name value? =>
      match ValueOption.ofName? command name, value? with
      | none, _ => .error .usageError
      | some option, some value => do readArguments command (← p.setOption value option) args
      | some option, none => detached option

/-- Flags before a command together with the flags behind it, which win. -/
def mergeFlags (outer inner : Flags) : Flags where
  filters := inner.filters
  logLevel := inner.logLevel <|> outer.logLevel
  outputFormat := inner.outputFormat <|> outer.outputFormat

/-- What a request for help stands for, by the names of the commands it is about. -/
def helpTopic : List String → Halt
  | [] => .help
  | [name] => if name = "help" || (CommandName.ofString? name).isSome then .help else .usageError
  | _ => .usageError

/-- Takes an option before the command whose value stands in an argument of its own. -/
def settle (p : PartialInvocation) : Option (ValueOption × String) → Except Halt PartialInvocation
  | none => .ok p
  | some (option, value) => p.setOption value option

/-- Takes the arguments up to the name of a command, and then those behind it.  A value in an
argument of its own is `held` until the next option or the end: a request for help behind the
command comes before a complaint about it. -/
def readGlobal (p : PartialInvocation) (held : Option (ValueOption × String)) :
    List String → Except Halt Invocation
  | [] => .error .usageError
  | arg :: args =>
    match Argument.ofString arg with
    | .endOfOptions => .error .usageError
    | .plain "help" => .error (helpTopic args)
    | .plain name =>
      match CommandName.ofString? name with
      | none => .error .usageError
      | some command => do
        -- what is wrong behind the command is noticed before what is held
        let invocation ← (← readArguments command {} args).complete command
        let outer ← settle p held
        return { invocation with flags := mergeFlags outer.flags invocation.flags }
    | .short 'h' _ => do let _ ← settle p held; .error .help
    | .short 'V' _ => do let _ ← settle p held; .error .version
    | .short _ _ => .error .usageError
    | .long "help" none => do let _ ← settle p held; .error .help
    | .long "version" none => do let _ ← settle p held; .error .version
    | .long name value? =>
      match ValueOption.ofGlobalName? name, value? with
      | none, _ => .error .usageError
      | some option, some value => do
        readGlobal (← (← settle p held).setOption value option) none args
      | some option, none =>
        match args with
        | [] => .error .usageError
        | next :: args =>
          match Argument.ofString next with
          | .plain value => do readGlobal (← settle p held) (some (option, value)) args
          | _ => .error .usageError

/-- What a command line asks for. -/
def parse (args : List String) : Except Halt Invocation := readGlobal {} none args

end CommandLine

end DoctestSelection
