import RecordQuery.CommandLine.Arguments
import RecordQuery.Limits.Source
import RecordQuery.Request.Decode
import RecordQuery.Schema.Document
import RecordQuery.Store.Select
import RecordQuery.Terminal.Report

/-!
# Running the program

The program as a function from what it may look at, a `Workplace`, to what it writes and the exit
code. Files and the standard input are asked for by name, a dash standing for the standard input,
which can be read once.

The limits are read first, then the schema, the request and the records, in this order; the first
fault ends the run.
-/

namespace RecordQuery

/-- What is found under the name of a file. -/
inductive FileState where
  | missing
  | unreadable (reason : String)
  | text (content : String)
  deriving Inhabited

/-- The text of a file, or why there is none. -/
def FileState.text? : FileState → Except String String
  | .missing => .error "No such file or directory (os error 2)"
  | .unreadable reason => .error reason
  | .text content => .ok content

/-- What the program may look at. -/
structure Workplace where
  file : String → FileState
  /-- The text of the standard input. -/
  input : String
  environment : List (String × String)
  /-- The file with the limits when none is named. -/
  defaultConfig : Option String
  /-- Whether the output goes to a terminal. -/
  terminal : Bool

/-- What the program leaves behind. -/
structure Finish where
  exitCode : Nat := 0
  output : String := ""
  errors : String := ""
  deriving DecidableEq, Repr, Inhabited

namespace Finish

/-- Lines with their line ends. -/
def linesText (lines : List String) : String :=
  String.ofList (lines.flatMap fun line => line.toList ++ ['\n'])

/-- Lines of output. -/
def ofLines (lines : List String) : Finish := { output := linesText lines }

/-- A failure. -/
def failure (message : String) : Finish := { exitCode := 1, errors := "error: " ++ message ++ "\n" }

end Finish

namespace Program

/-- A step that may end the run with a message and may read the standard input. -/
abbrev Step := StateT String (Except String)

/-- The text behind a name: of a file, or of the standard input. -/
def readInput (w : Workplace) (name : String) : Step String := do
  if name = "-" then
    let input ← get
    set ""
    return input
  else
    match (w.file name).text? with
    | .ok text => return text
    | .error reason => throw ("failed to read " ++ name ++ ": " ++ reason)

/-- A result of the library as a step. -/
def check {α : Type} (result : Result α) : Step α :=
  match result with
  | .ok a => pure a
  | .error e => throw e.message

/-- Reads a schema. -/
def readSchema (w : Workplace) (name : String) : Step Schema := do
  check (Schema.ofText (← readInput w name))

/-- Reads a request. -/
def readRequest (w : Workplace) (name : String) : Step Request := do
  check (Request.ofText (← readInput w name))

/-- Reads records. -/
def readRecords (w : Workplace) (name : String) : Step (List Record) := do
  match Record.listOfText? (← readInput w name) with
  | some records => return records
  | none => throw "invalid records document: not a list of records"

-- ---------------------------------------------------------------------------
-- Output
-- ---------------------------------------------------------------------------

/-- A statement in JSON: its text, its parameters, and the text with the values in place. -/
def statementJson (s : Statement) : Json :=
  .object [("query", .string s.text), ("params", .object (Value.toMembers s.params)),
    ("display", .string s.display)]

/-- A statement as a report. -/
def statementLines (style : ReportStyle) (s : Statement) : List String :=
  [style.statement s.text] ++
    style.table "Parameters" (s.params.map fun (name, value) => (name, value.text)) ++
    style.spacer ++ [style.info s.display]

/-- A record in a list: its id, its class and its name. -/
def recordLine (r : Record) : String :=
  let id := (r.id.map RecordId.text).getD "-"
  let className := r.className.getD "-"
  match r.name? with
  | some name => id ++ " " ++ className ++ " " ++ name
  | none => id ++ " " ++ className

/-- Records as a report. -/
def recordsFinish (style : ReportStyle) (records : List Record) : Finish :=
  if records.isEmpty then
    { errors := Finish.linesText [style.warning "no records selected"] }
  else
    .ofLines <|
      style.list s!"Records ({records.length})" (records.map recordLine) ++
        [style.success s!"selected {records.length} record(s)"]

/-- Limits in JSON. -/
def limitsJson (limits : Limits) : Json :=
  .object [("max_limit", .integer limits.maxLimit.toNat),
    ("max_neighbors", .integer limits.maxNeighbors.toNat),
    ("max_depth", .integer limits.maxDepth.toNat),
    ("related_node_depth", .integer limits.relatedNodeDepth.toNat),
    ("min_word_size", .integer limits.minWordSize.toNat),
    ("log_level", .string limits.logLevel)]

/-- Limits as a report, with the file that they come from. -/
def limitsLines (style : ReportStyle) (limits : Limits) (file : Option String) : List String :=
  style.table "Query limits"
    [("max_limit", toString limits.maxLimit), ("max_neighbors", toString limits.maxNeighbors),
      ("max_depth", toString limits.maxDepth),
      ("related_node_depth", toString limits.relatedNodeDepth),
      ("min_word_size", toString limits.minWordSize), ("log_level", limits.logLevel),
      ("file", file.getD "<none>")]

/-- The output in JSON, or as a report. -/
def emit (format : OutputFormat) (json : Json) (report : Finish) : Finish :=
  match format with
  | .json => .ofLines [json.pretty]
  | .text => report

/-- The name that the program is called by. -/
def callName : String := "graphkb-query"

/-- A completion script: the commands of the program. -/
def completionLines (shell : String) : List String :=
  let commands := " ".intercalate (Dictionary.keys Arguments.commandNames)
  match shell with
  | "fish" => ["complete -c " ++ callName ++ " -f -a '" ++ commands ++ "'"]
  | "zsh" => ["#compdef " ++ callName, "compadd " ++ commands]
  | "powershell" | "elvish" => ["# " ++ callName ++ ": " ++ commands]
  | _ => ["complete -W '" ++ commands ++ "' " ++ callName]

-- ---------------------------------------------------------------------------
-- Commands
-- ---------------------------------------------------------------------------

/-- Runs a command under limits. -/
def runCommand (w : Workplace) (invocation : Invocation) (limits : Limits) : Step Finish := do
  let style := ReportStyle.ofTheme invocation.theme invocation.quiet w.terminal
  match invocation.command with
  | .compile schema request =>
    let schema ← readSchema w schema
    let request ← readRequest w request
    let query ← check (Query.ofRequest schema limits request)
    let statement := query.toStatement
    return emit invocation.format (statementJson statement)
      (.ofLines (statementLines style statement))
  | .classes schema terminal =>
    let schema ← readSchema w schema
    let names := if terminal then schema.terminalClasses else schema.classNames
    return emit invocation.format (Json.strings names) (.ofLines (style.list "Classes" names))
  | .select schema records request exactly =>
    let schema ← readSchema w schema
    let request ← readRequest w request
    let records ← readRecords w records
    let query ← check (Query.ofRequest schema limits request)
    let rows ← check ((query.select exactly none).run.run [.ok records]).result
    return emit invocation.format (.array (rows.map Record.toJson)) (recordsFinish style rows)
  | .config =>
    let file := invocation.config <|> w.defaultConfig
    return emit invocation.format (limitsJson limits) (.ofLines (limitsLines style limits file))
  | .completions shell => return .ofLines (completionLines shell)

/-- The file with the limits: the one that is named, or the default one if it is there. -/
def limitsFile (w : Workplace) (invocation : Invocation) : Option (String × Limits.FileText) :=
  match invocation.config with
  | some path => some (path, (w.file path).text?)
  | none =>
    w.defaultConfig.bind fun path =>
      match w.file path with
      | .missing => none
      | state => some (path, state.text?)

/-- Runs an invocation. -/
def runInvocation (w : Workplace) (invocation : Invocation) : Finish :=
  match Limits.load (limitsFile w invocation) w.environment with
  | .error e => .failure e.message
  | .ok limits =>
    match (runCommand w invocation limits).run w.input with
    | .error message => .failure message
    | .ok (finish, _) => finish

/-- How the program is called. -/
def usage : List String :=
  ["Compile and dry-run record queries", "",
    "Usage: " ++ callName ++ " [OPTIONS] <COMMAND>", "",
    "Commands:",
    "  compile      Compile a JSON query into a parameterized statement",
    "  classes      List the classes of a schema document",
    "  select       Run a query against canned records and print the trimmed result",
    "  config       Show the effective query limits",
    "  completions  Print a shell completion script"]

/-- The name and the version of the program. -/
def version : String := callName ++ " 0.1.0"

/-- Runs the program on its arguments. -/
def run (w : Workplace) (arguments : List String) : Finish :=
  match Asked.ofArguments arguments w.environment with
  | .help => .ofLines usage
  | .version => .ofLines [version]
  | .fault => { exitCode := 2, errors := Finish.linesText usage }
  | .invocation invocation => runInvocation w invocation

/-- The files that a run may look at. -/
def filesOf (w : Option String) (arguments : List String) (environment : List (String × String)) :
    List String :=
  match Asked.ofArguments arguments environment with
  | .invocation invocation =>
    let inputs := match invocation.command with
      | .compile schema request => [schema, request]
      | .classes schema _ => [schema]
      | .select schema records request _ => [schema, request, records]
      | _ => []
    (invocation.config <|> w).toList ++ inputs
  | _ => []

end Program

end RecordQuery
