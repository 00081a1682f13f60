import SparkTuner.CommandLine.Options
import SparkTuner.Report
import SparkTuner.Settings

/-!
# The command line

There are two commands: one makes recommendations, the other combines those of a report with the
properties of an application. The options for verbosity and for the settings file may stand before
and behind the command; behind it they count.
-/

namespace SparkTuner.CommandLine

/-- The options of every command. -/
structure Globals where
  /-- How often the user asks for more output. -/
  verbose : Nat := 0
  settings : Option String := none
  deriving Repr, DecidableEq

/-- The options of the command that makes recommendations. -/
structure RecommendOptions where
  globals : Globals := {}
  summary : Option String := none
  cluster : Option String := none
  target : Option String := none
  driverLog : Option String := none
  tool : Option Tool := none
  format : Option ReportFormat := none
  flags : Flags := {}
  deriving Repr, DecidableEq

/-- The options of the command that combines properties. -/
structure CombineOptions where
  globals : Globals := {}
  summary : Option String := none
  report : Option String := none
  cluster : Option String := none
  format : Option ReportFormat := none
  deriving Repr, DecidableEq

/-- What a command combines. -/
structure Combination where
  summary : String
  report : String
  cluster : Option String := none
  format : ReportFormat := .text
  deriving Repr, DecidableEq

/-- A command with its options. -/
inductive Command where
  | recommend (options : RecommendOptions)
  | combine (what : Combination)
  deriving Repr, DecidableEq

/-- A command line that was read. -/
structure Invocation where
  globals : Globals
  command : Command
  deriving Repr, DecidableEq

/-! ## Values -/

/-- A path, which may not be empty. -/
def readPath (value : String) : Except UsageError String :=
  if value.isEmpty then .error .missingValue else .ok value

/-- A value that is read from its name. -/
def readNamed {β ε : Type} (parse : String → Except ε β) (value : String) : Except UsageError β :=
  (parse value).mapError fun _ => .badValue

/-- An option that may be given once. -/
def once {α β : Type} (get : α → Option β) (put : α → β → α)
    (read : String → Except UsageError β) : Effect α :=
  .valued fun value known =>
    if (get known).isSome then .error .repeated else (read value).map (put known)

/-- An option that may be given any number of times. -/
def many {α : Type} (put : α → String → α) : Effect α := .valued fun value known =>
  .ok (put known value)

/-- A switch that may be given once. -/
def switchOnce {α : Type} (get : α → Bool) (put : α → α) : Effect α :=
  .switch fun known => if get known then .error .repeated else .ok (put known)

/-! ## Options -/

/-- The options of every command, in the known part `get` and `put` go to. -/
def globalOption? {α : Type} (get : α → Globals) (put : α → Globals → α) :
    OptionName → Option (Effect α)
  | .letter 'v' | .word "verbose" =>
    some (.switch fun known =>
      let g := get known
      .ok (put known { g with verbose := min (g.verbose + 1) 255 }))
  | .letter 'c' | .word "config" =>
    some (once (fun known => (get known).settings)
      (fun known path => put known { get known with settings := some path }) readPath)
  | .letter 'h' | .word "help" => some .help
  | _ => none

/-- The options before the command. -/
def mainGrammar : Grammar Globals where
  option?
    | .letter 'V' | .word "version" => some .version
    | name => globalOption? id (fun _ g => g) name
  commands := ["recommend", "combine", "help"]

/-- The options of the command that makes recommendations. -/
def recommendGrammar : Grammar RecommendOptions where
  option?
    | .letter 's' | .word "summary" =>
      some (once (·.summary) (fun o v => { o with summary := some v }) readPath)
    | .word "cluster" => some (once (·.cluster) (fun o v => { o with cluster := some v }) readPath)
    | .word "target" => some (once (·.target) (fun o v => { o with target := some v }) readPath)
    | .word "driver-log-reasons" =>
      some (once (·.driverLog) (fun o v => { o with driverLog := some v }) readPath)
    | .word "platform" =>
      some (once (·.flags.platform) (fun o v => { o with flags.platform := some v })
        (readNamed Platform.parse))
    | .word "sizing-strategy" =>
      some (once (·.flags.strategy) (fun o v => { o with flags.strategy := some v })
        (readNamed SizingStrategy.parse))
    | .word "tool" =>
      some (once (·.tool) (fun o v => { o with tool := some v }) (readNamed Tool.parse))
    | .word "format" =>
      some (once (·.format) (fun o v => { o with format := some v }) (readNamed ReportFormat.parse))
    | .word "all" => some (switchOnce (·.flags.all) fun o => { o with flags.all := true })
    | .word "skip-key" =>
      some (many fun o v => { o with flags.skipKeys := o.flags.skipKeys ++ [v] })
    | .word "limited-key" =>
      some (many fun o v => { o with flags.limitedKeys := o.flags.limitedKeys ++ [v] })
    | .word "no-release-check" =>
      some (switchOnce (·.flags.noReleaseCheck) fun o => { o with flags.noReleaseCheck := true })
    | name => globalOption? (·.globals) (fun o g => { o with globals := g }) name

/-- The options of the command that combines properties. -/
def combineGrammar : Grammar CombineOptions where
  option?
    | .letter 's' | .word "summary" =>
      some (once (·.summary) (fun o v => { o with summary := some v }) readPath)
    | .letter 'r' | .word "recommendations" =>
      some (once (·.report) (fun o v => { o with report := some v }) readPath)
    | .word "cluster" => some (once (·.cluster) (fun o v => { o with cluster := some v }) readPath)
    | .word "format" =>
      some (once (·.format) (fun o v => { o with format := some v }) (readNamed ReportFormat.parse))
    | name => globalOption? (·.globals) (fun o g => { o with globals := g }) name

/-! ## Commands -/

/-- What the options before and behind a command say together. -/
def Globals.refined (before behind : Globals) : Globals where
  verbose := if behind.verbose = 0 then before.verbose else behind.verbose
  settings := behind.settings.or before.settings

/-- The options that a combination needs. -/
def CombineOptions.combination (o : CombineOptions) : Except UsageError Combination :=
  match o.summary, o.report with
  | some summary, some report =>
    .ok { summary, report, cluster := o.cluster, format := o.format.getD .text }
  | _, _ => .error .missingOption

/-- The words behind the command for help: at most one, which names a command. -/
def readHelp : List String → UsageError
  | [] => .help
  | [name] => if mainGrammar.commands.contains name then .help else .unknownCommand
  | _ => .unknownCommand

/-- The fault of a command line without a command. -/
def withoutCommand (g : Globals) : UsageError :=
  if g = {} then .nothingGiven else .missingCommand

/-- Reads the words of a command line. Faults behind the command come first. -/
def parse (args : List String) : Except UsageError Invocation := do
  let stop ← mainGrammar.read { known := {} } args
  match stop.command with
  | none => throw (withoutCommand (← stop.progress.settle))
  | some ("recommend", rest) =>
    let options ← recommendGrammar.readAll {} rest
    let before ← stop.progress.settle
    return ⟨before.refined options.globals, .recommend options⟩
  | some ("combine", rest) =>
    let options ← combineGrammar.readAll {} rest
    let what ← options.combination
    let before ← stop.progress.settle
    return ⟨before.refined options.globals, .combine what⟩
  | some (_, rest) => throw (readHelp rest)

end SparkTuner.CommandLine
