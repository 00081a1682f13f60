import SparkTuner.CommandLine.Run

/-!
# The program

Reads the environment and the files a command names, runs the command, and prints what it gives.
There is no network client here, so a lookup of the latest release finds no connection.
-/

namespace SparkTuner.CommandLine

/-- What is shown to a user who asks for help, or whose command line is not understood. -/
def usage : String :=
  "Usage: rapids-autotuner [OPTIONS] <COMMAND>\n\n" ++
    "Commands:\n" ++
    "  recommend  Generate recommendations for one application\n" ++
    "  combine    Merge an application's properties with a JSON recommendation report\n" ++
    "  help       Print this message\n\n" ++
    "Options:\n" ++
    "  -v, --verbose          Enable verbose output\n" ++
    "  -c, --config <CONFIG>  Path to configuration file\n" ++
    "  -h, --help             Print help\n" ++
    "  -V, --version          Print version\n"

/-- The version of the program. -/
def programVersion : String := "rapids-autotuner 0.1.0\n"

/-- Why a file could not be read, as the system tells it. -/
def fileError (e : IO.Error) : FileError :=
  match e with
  | .noFileOrDirectory .. => .notFound
  | .permissionDenied .. => .notPermitted
  | .inappropriateType _ code _ => if code = 20 then .notDirectory else .isDirectory
  | e => .other (toString e)

/-- Whether a path can be followed to its end. -/
def leadsSomewhere (path : String) : IO Bool := do
  try
    let _ ← IO.FS.realPath path
    return true
  catch _ => return false

/-- The content of a file. The system says that it does not permit the reading both of a file and of
a directory on the way to it, so that the way is tried apart. -/
def readContent (path : String) : IO (Except FileError String) := do
  try
    match String.fromUTF8? (← IO.FS.readBinFile path) with
    | some text => return .ok text
    | none => return .error .notText
  catch e =>
    let cause := fileError e
    if cause.leadsNowhere || (← leadsSomewhere path) then return .error cause
    else return .error (.notReached cause.message)

/-- The paths of the files that a command may read. -/
def pathsOf (ownSettings : String) (i : Invocation) : List String :=
  let named : List (Option String) :=
    match i.command with
    | .recommend o => [o.summary, o.cluster, o.target, o.driverLog]
    | .combine c => [some c.summary, some c.report, c.cluster]
  (some ownSettings :: i.globals.settings :: named).filterMap id

/-- Where the user's own settings file is. -/
def ownSettingsPath : IO String := do
  let file := "/rapids-autotuner/config.toml"
  match ← IO.getEnv "XDG_CONFIG_HOME" with
  | some dir => if dir.startsWith "/" then return dir ++ file
  | none => pure ()
  return (← IO.getEnv "HOME").getD "" ++ "/.config" ++ file

/-- What a command finds around it. -/
def surroundings (i : Invocation) : IO Surroundings := do
  let own ← ownSettingsPath
  let contents ← (pathsOf own i).mapM fun path => do return (path, ← readContent path)
  let environment : Environment :=
    { platform := ← IO.getEnv "RAPIDS_TUNER_PLATFORM"
      checkRelease := ← IO.getEnv "RAPIDS_TUNER_CHECK_RELEASE"
      skipKeys := ← IO.getEnv "RAPIDS_TUNER_SKIP_KEYS" }
  return {
    content := fun path => ((contents.find? fun f => f.1 == path).map (·.2)).getD (.error .notFound)
    ownSettings := own
    environment
    metadata := fun _ _ => .refused }

/-- Runs a command line, and gives the exit code. -/
def runMain (args : List String) : IO UInt32 := do
  match parse args with
  | .error .version => IO.print programVersion; return 0
  | .error .help => IO.print usage; return 0
  | .error e => IO.eprint usage; return e.exitCode.toUInt32
  | .ok invocation =>
    match (← surroundings invocation).run invocation with
    | .ok output => IO.print output; return 0
    | .error f => IO.eprintln ("Error: " ++ f.message); return f.exitCode.toUInt32

end SparkTuner.CommandLine

/-- Runs the command line. -/
def main (args : List String) : IO UInt32 := SparkTuner.CommandLine.runMain args
