import RecordQuery.CommandLine.Run

/-!
# The program

Gathers what the program may look at, runs it, and writes what it leaves behind. All that is decided
is decided in `Program.run`; here are only the reading of files, of the standard input and of the
environment, and the writing of the two outputs.
-/

namespace RecordQuery

namespace Program

/-- The content of a file. -/
def readFile (path : String) : IO FileState := do
  try
    return .text (← IO.FS.readFile path)
  catch
    | .noFileOrDirectory .. => return .missing
    | .inappropriateType .. => return .unreadable "Is a directory (os error 21)"
    | .permissionDenied .. => return .unreadable "Permission denied (os error 13)"
    | _ => return .unreadable "stream did not contain valid UTF-8"

/-- The variables of the environment that the program knows. -/
def readEnvironment : IO (List (String × String)) := do
  let known := Arguments.configVariable :: Limits.variableNames
  known.filterMapM fun name => do
    return (← IO.getEnv name).map fun value => (name, value)

/-- The file with the limits when none is named: in the directory for configuration files, which is
below the home directory unless an absolute path is set for it. -/
def defaultConfig? : IO (Option String) := do
  let file := "/graphkb/query.toml"
  match ← IO.getEnv "XDG_CONFIG_HOME" with
  | some base =>
    if base.startsWith "/" then return some (base ++ file) else homeConfig? file
  | none => homeConfig? file
where
  homeConfig? (file : String) : IO (Option String) := do
    return (← IO.getEnv "HOME").map (· ++ "/.config" ++ file)

/-- What the program may look at in a run on its arguments. The standard input is read only if one
of the files is a dash. -/
def workplace (arguments : List String) : IO Workplace := do
  let environment ← readEnvironment
  let defaultConfig ← defaultConfig?
  let names := filesOf defaultConfig arguments environment
  let files ← names.mapM fun name => do return (name, ← readFile name)
  let input ← if names.contains "-" then (← IO.getStdin).readToEnd else pure ""
  return {
    input, environment, defaultConfig
    file := fun name => (Dictionary.find? name files).getD .missing
    terminal := ← (← IO.getStdout).isTty }

end Program

end RecordQuery

/-- Runs the program. -/
def main (arguments : List String) : IO UInt32 := do
  let finish := RecordQuery.Program.run (← RecordQuery.Program.workplace arguments) arguments
  IO.print finish.output
  IO.eprint finish.errors
  return UInt32.ofNat finish.exitCode
