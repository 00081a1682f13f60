import SparkTuner.Cluster.Reader
import SparkTuner.Combine
import SparkTuner.CommandLine.Arguments
import SparkTuner.CommandLine.Failure
import SparkTuner.Summary.Reader
import SparkTuner.Tuner

/-!
# Running commands

A command is a function of its options and of what it finds around it: files, the environment, and
the answer to a lookup of the latest release. Settings, summaries and reports have to be readable;
descriptions of clusters that are not well-formed only leave recommendations without them.
-/

namespace SparkTuner.CommandLine

/-- What a command finds around it. -/
structure Surroundings where
  /-- The content of a file. -/
  content : String → Except FileError String
  /-- Where the user's own settings file is, if there is one. -/
  ownSettings : String
  environment : Environment := {}
  /-- The answer to a request for the release metadata at an address, within a time. -/
  metadata : String → Duration → MetadataAnswer

namespace Surroundings

/-- The content of a file that has to be there. -/
def need (w : Surroundings) (path : String) : Except Error String :=
  (w.content path).mapError .file

/-- The settings file to read: the one that is named, or the user's own if its path leads to one. -/
def settingsFile? (w : Surroundings) (named : Option String) : Option String :=
  match named with
  | some path => some path
  | none =>
    match w.content w.ownSettings with
    | .error e => if e.leadsNowhere then none else some w.ownSettings
    | .ok _ => some w.ownSettings

/-- The settings of the file and the environment. -/
def layeredSettings (w : Surroundings) (named : Option String) : Except Error Settings :=
  let file : Except Error Settings :=
    match w.settingsFile? named with
    | some path => (w.need path).bind Settings.parse
    | none => .ok {}
  file.map fun s => s.withEnvironment w.environment

/-- The settings of the file and the environment, if they are valid. -/
def loadSettings (w : Surroundings) (named : Option String) : Except Failure Settings :=
  during "Failed to load configuration" do
    let s ← w.layeredSettings named
    s.validate
    return s

/-- The summary of an application. -/
def loadSummary (w : Surroundings) (path : String) : Except Failure (AppSummary Float) :=
  during ("Failed to read application summary " ++ path) ((w.need path).bind AppSummary.parse)

/-- A description of a cluster as a tuner takes it. Only a file that cannot be read fails. -/
def loadDescription {α : Type} (w : Surroundings) (step : String)
    (parse : String → Except Error α) (missing : Cause) (path : Option String) :
    Except Failure (Given α) :=
  match path with
  | none => .ok .absent
  | some path =>
    match w.content path with
    | .ok text => .ok (.ofLoaded (parse text))
    | .error .notFound => .error ⟨some (step ++ path), missing⟩
    | .error e => .error ⟨some (step ++ path), .unreadable e⟩

/-- The summary of the application; without one nothing is known about it. -/
def loadApp (w : Surroundings) (options : RecommendOptions) : Except Failure (AppSummary Float) :=
  match options.summary with
  | some path => w.loadSummary path
  | none => .ok .unavailable

/-- The description of the source cluster. -/
def loadCluster (w : Surroundings) (options : RecommendOptions) :
    Except Failure (Given ClusterDescription) :=
  w.loadDescription "Failed to read cluster description " ClusterDescription.parse .absent
    options.cluster

/-- The description of the target cluster. -/
def loadTarget (w : Surroundings) (options : RecommendOptions) :
    Except Failure (Given (TargetDescription Float)) :=
  w.loadDescription "Failed to read target cluster description " TargetDescription.parse
    (.unreadable .notFound) options.target

/-- The reasons in a driver log. -/
def loadDriverLog (w : Surroundings) (path : Option String) :
    Except Failure (Option (List String)) :=
  match path with
  | none => .ok none
  | some path =>
    during ("Failed to read driver log reasons " ++ path)
      ((w.need path).map fun text => some (driverLogReasons text))

/-- What is known about the latest release. It is looked up only if the settings want that and the
application has classpath entries to compare with it. -/
def latestRelease (w : Surroundings) (s : Settings) (app : AppSummary Float) : LatestRelease :=
  if s.checkRelease && !app.rapidsJars.isEmpty then
    Release.resolve (w.metadata s.metadataUrl s.lookupTimeout)
  else .notChecked

/-- The readers of descriptions. -/
def readers : Readers Float := ⟨ClusterDescription.parse, TargetDescription.parse⟩

/-- The report of recommendations for an application. -/
def recommend (w : Surroundings) (settings : Settings) (options : RecommendOptions) :
    Except Failure String := do
  let settings := settings.withFlags options.flags
  plainly settings.validate
  let platform ← plainly settings.readPlatform
  let strategy ← plainly settings.readStrategy
  let tool := options.tool.getD default
  let app ← w.loadApp options
  let cluster ← w.loadCluster options
  let target ← w.loadTarget options
  let driverLog ← w.loadDriverLog options.driverLog
  let input : TunerInput Float :=
    { app, driverLog, platform, tool, strategy, cluster, target
      policy := { skip := settings.skipKeys, limited := settings.limitedKeys }
      latest := w.latestRelease settings app }
  let tuner ← during "Invalid cluster description" (input.build readers)
  match tuner.recommend? with
  | none => throw ⟨none, .overflow⟩
  | some result =>
    let filter := if settings.onlyChanged then OutputFilter.changedOnly else .all
    let report := Report.ofRecommendations result filter platform tool app.appId
    return report.render (options.format.getD .text)

/-- The software properties of a cluster; none if its file is missing. -/
def loadSoftwareProperties (w : Surroundings) (path : Option String) :
    Except Failure (KeyMap String) :=
  match path with
  | none => .ok .empty
  | some path =>
    match w.content path with
    | .error .notFound => .ok .empty
    | .error e => .error ⟨some ("Failed to read cluster description " ++ path), .refused (.file e)⟩
    | .ok text =>
      during ("Failed to read cluster description " ++ path)
        ((ClusterDescription.parse text).map (·.softwareProperties))

/-- The properties of an application with those of a report over them. -/
def combineFiles (w : Surroundings) (what : Combination) : Except Failure String := do
  let app ← w.loadSummary what.summary
  let report ←
    during ("Failed to read recommendation report " ++ what.report)
      ((w.need what.report).bind Report.parse)
  let software ← w.loadSoftwareProperties what.cluster
  let merged := combine (app.properties.overlay software) report.properties
  return renderCombined merged what.format

/-- Runs a command; the result is what it prints. -/
def run (w : Surroundings) (i : Invocation) : Except Failure String := do
  let settings ← w.loadSettings i.globals.settings
  match i.command with
  | .recommend options => w.recommend settings options
  | .combine what => w.combineFiles what

end Surroundings

end SparkTuner.CommandLine
