import RecordQuery.Dictionary
import RecordQuery.Terminal.Style
import RecordQuery.Text.Numeral
import RecordQuery.Text.Split

/-!
# Command line arguments

An invocation is one command with its own options and arguments, and common options that may stand
before or behind the name of the command.

Arguments are read from left to right by a reader for each of the two levels. An option takes its
value behind an equals sign or from the next argument, which must not look like an option; every
option is given at most once at a level, and behind `--` everything is a plain argument. A question
for help is answered as soon as it is met, unless a fault comes before it. A value behind an equals
sign is checked at once, one from the next argument only when something more is met at its level;
so for the last option before the name of a command it is checked after the arguments of the
command.
-/

namespace RecordQuery

/-- The form of the output. -/
inductive OutputFormat where
  | text
  | json
  deriving DecidableEq, Repr, Inhabited

/-- The names of the forms with their meaning. -/
def OutputFormat.names : List (String × OutputFormat) := [("text", .text), ("json", .json)]

/-- What is to be done. -/
inductive Command where
  /-- Compile a request into a statement. -/
  | compile (schema request : String)
  /-- List the classes of a schema. -/
  | classes (schema : String) (terminal : Bool)
  /-- Run a request against given records. -/
  | select (schema records request : String) (exactly : Option Nat)
  /-- Show the limits. -/
  | config
  /-- Print a completion script. -/
  | completions (shell : String)
  deriving DecidableEq, Repr, Inhabited

/-- A command with the common options. -/
structure Invocation where
  format : OutputFormat := .text
  /-- The file with the limits, if one is named. -/
  config : Option String := none
  theme : Theme := .auto
  quiet : Bool := false
  command : Command
  deriving Repr

/-- What the arguments ask for. -/
inductive Asked where
  | invocation (invocation : Invocation)
  | help
  | version
  /-- The arguments are not understood. -/
  | fault
  deriving Repr

namespace Arguments

/-- The names of the commands. -/
inductive CommandName where
  | compile
  | classes
  | select
  | config
  | completions
  deriving DecidableEq, Repr

/-- The names as written with their meaning. -/
def commandNames : List (String × CommandName) :=
  [("compile", .compile), ("classes", .classes), ("select", .select), ("config", .config),
    ("completions", .completions)]

/-- The shells that have a completion script. -/
def shells : List String := ["bash", "elvish", "fish", "powershell", "zsh"]

/-- The long options with a value; the common ones are understood at both levels. -/
def valued : Option CommandName → List String
  | some .compile => ["format", "config", "theme", "schema"]
  | some .classes => ["format", "config", "theme", "schema"]
  | some .select => ["format", "config", "theme", "schema", "records", "exactly"]
  | _ => ["format", "config", "theme"]

/-- The long options without a value. -/
def switches : Option CommandName → List String
  | some .classes => ["quiet", "terminal"]
  | _ => ["quiet"]

/-- How many plain arguments a command takes. -/
def plainCount : CommandName → Nat
  | .compile | .select | .completions => 1
  | _ => 0

/-- Whether the value of an option is one that it may have. -/
def isValue (option value : String) : Bool :=
  match option with
  | "format" => Dictionary.contains value OutputFormat.names
  | "theme" => Dictionary.contains value Theme.names
  | "exactly" => (Text.signedNatural? value.toList).any (· < UInt64.size)
  | _ => !value.isEmpty

/-- What was found at one level. -/
structure Level where
  /-- The options with a value, latest first. -/
  values : List (String × String) := []
  switches : List String := []
  plain : List String := []
  /-- Whether the latest option with a value is in order; it is looked at before the next one. -/
  sound : Bool := true
  deriving Inhabited

/-- Where the reading of one level ends. -/
inductive Outcome where
  | fault
  | help
  | version
  | finished (level : Level)
  /-- The name of a command, with the arguments behind it. -/
  | command (level : Level) (name : CommandName) (rest : List String)

/-- Whether an argument looks like an option. -/
def isOption (argument : String) : Bool :=
  match argument.toList with
  | '-' :: _ :: _ => true
  | _ => false

/-- Takes an option with its value. -/
def Level.takeValue (level : Level) (option value : String) : Level :=
  { level with
    values := (option, value) :: level.values
    sound := isValue option value && !Dictionary.contains option level.values }

/-- Takes a switch. -/
def Level.takeSwitch? (level : Level) (name : String) : Option Level :=
  if level.switches.contains name then none
  else some { level with switches := name :: level.switches }

/-- Whether a plain argument of a command is one that it may have. -/
def isPlain (name : CommandName) (argument : String) : Bool :=
  match name with
  | .completions => shells.contains argument
  | _ => !argument.isEmpty

/-- Takes a plain argument of a command. -/
def Level.takePlain? (level : Level) (name : CommandName) (argument : String) : Option Level :=
  if level.plain.length < plainCount name then
    some { level with
      plain := level.plain ++ [argument]
      sound := level.sound && isPlain name argument }
  else none

/-- Reads the arguments behind `--`. No command is named among them. -/
def readPlain (name : Option CommandName) (level : Level) : List String → Outcome
  | [] => .finished level
  | argument :: rest =>
    match name with
    | none => .fault
    | some command =>
      match level.takePlain? command argument with
      | none => .fault
      | some level => readPlain name level rest

/-- Reads the arguments of one level. -/
def read (name : Option CommandName) (level : Level) : List String → Outcome
  | [] => .finished level
  | argument :: rest =>
    match argument.toList with
    | ['-', '-'] => readPlain name level rest
    | '-' :: '-' :: long =>
      if !level.sound then .fault
      else
        match Text.cut '=' long with
        | some (option, value) =>
          if (valued name).contains (String.ofList option) then
            let level := level.takeValue (String.ofList option) (String.ofList value)
            if level.sound then read name level rest else .fault
          else .fault
        | none =>
          let option := String.ofList long
          if option = "help" then .help
          else if option = "version" && name.isNone then .version
          else if (switches name).contains option then
            match level.takeSwitch? option with
            | none => .fault
            | some level => read name level rest
          else if (valued name).contains option then
            match rest with
            | [] => .fault
            | value :: rest =>
              if isOption value then .fault else read name (level.takeValue option value) rest
          else .fault
    | '-' :: short :: _ =>
      if !level.sound then .fault
      else if short = 'h' then .help
      else if short = 'V' && name.isNone then .version
      else .fault
    | _ =>
      match name with
      | none =>
        match Dictionary.find? argument commandNames with
        | none => .fault
        | some command => .command level command rest
      | some command =>
        match level.takePlain? command argument with
        | none => .fault
        | some level => read name level rest

/-- The command with what was found at its level. Required options have to be there. -/
def command? (name : CommandName) (level : Level) : Option Command :=
  let value? (option : String) : Option String := Dictionary.find? option level.values
  let request := level.plain.headD "-"
  match name with
  | .compile => do return .compile (← value? "schema") request
  | .classes => do return .classes (← value? "schema") (level.switches.contains "terminal")
  | .select => do
    let exactly := (value? "exactly").bind fun digits => Text.signedNatural? digits.toList
    return .select (← value? "schema") (← value? "records") request exactly
  | .config => some .config
  | .completions => level.plain.head?.map .completions

/-- The variable of the environment that names the file with the limits. -/
def configVariable : String := "GKB_QUERY_CONFIG"

/-- The file with the limits: named behind the command, before it, or by the environment. An empty
name in the environment is a fault at a level where no file is named. -/
def config? (outer inner : Level) (environment : List (String × String)) :
    Option (Option String) :=
  let named (level : Level) : Option String := Dictionary.find? "config" level.values
  match Dictionary.find? configVariable environment with
  | some "" =>
    if (named outer).isSome && (named inner).isSome then some (named inner) else none
  | fallback => some (named inner <|> named outer <|> fallback)

/-- A common option: as given behind the command, else as given before it. -/
def common {α : Type} (outer inner : Level) (option : String) (names : List (String × α))
    (default : α) : α :=
  let word? := Dictionary.find? option inner.values <|> Dictionary.find? option outer.values
  (word?.bind fun word => Dictionary.find? word names).getD default

/-- The invocation of two levels. -/
def invocation? (outer inner : Level) (name : CommandName)
    (environment : List (String × String)) : Option Invocation := do
  let command ← command? name inner
  let config ← config? outer inner environment
  return {
    command, config
    format := common outer inner "format" OutputFormat.names .text
    theme := common outer inner "theme" Theme.names .auto
    quiet := outer.switches.contains "quiet" || inner.switches.contains "quiet" }

end Arguments

/-- Reads the arguments of the program. -/
def Asked.ofArguments (arguments : List String) (environment : List (String × String)) : Asked :=
  match Arguments.read none {} arguments with
  | .help => .help
  | .version => .version
  | .fault | .finished _ => .fault
  | .command outer name rest =>
    match Arguments.read (some name) {} rest with
    | .help => .help
    | .finished inner =>
      if outer.sound && inner.sound then
        match Arguments.invocation? outer inner name environment with
        | some found => .invocation found
        | none => .fault
      else .fault
    | _ => .fault

end RecordQuery
