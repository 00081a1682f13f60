import SparkTuner.Platform.ShuffleManager
import SparkTuner.Plugin.Jar
import SparkTuner.Rules.Context

/-!
# The accelerator's own settings

The switch and the plugin list, the shuffle manager, the jar on the classpath, and the remedies for
operators that the driver log names.
-/

namespace SparkTuner.Rules

open Text

variable {K : Type}

/-- The class that the plugin list has to name. -/
def pluginClass : String := "com.nvidia.spark.SQLPlugin"

/-- Whether a plugin list names the accelerator. -/
def namesPlugin (plugins : String) : Bool :=
  (cut ',' plugins).any fun name => trimmed name == pluginClass

/-- Switches the accelerator on and checks the plugin list. -/
def plugin (s : State) : State :=
  let s := s.write [.recommend Key.sqlEnabled "true"]
  if (s.ledger.get? Key.plugins).any namesPlugin then s
  else
    s.write [.remark Key.plugins
      ("'" ++ Key.plugins ++ "' should include \"" ++ pluginClass ++ "\".")]

/-- What a shuffle manager leads to. -/
def shuffleManagerOp : ShuffleManager → Ledger.Op
  | .supported className => .recommend Key.shuffleManager className
  | .unsupported version =>
    .refuse Key.shuffleManager
      ("Cannot recommend RAPIDS Shuffle Manager for unsupported version '" ++ version ++ "'.")
  | .undetermined =>
    .refuse Key.shuffleManager
      ("Could not recommend RapidsShuffleManager as the Spark version cannot be " ++
        "determined.")

/-- Chooses the shuffle manager built for the application's engine. -/
def shuffleManager (ctx : Context K) (s : State) : State :=
  if s.ledger.isComputable Key.shuffleManager then
    s.write [shuffleManagerOp
      (ctx.platform.shuffleManager ctx.engine (s.ledger.source.get? Key.databricksRuntime))]
  else s

/-- What is said when no jar holds the plugin. -/
def missingJarComment : String :=
  "RAPIDS Accelerator for Apache Spark jar is missing in \"spark.driver.extraClassPath\" and " ++
    "\"spark.executor.extraClassPath\"."

/-- What is said when the latest release could not be looked up. -/
def unverifiedReleaseComment : String :=
  "Could not verify the latest RAPIDS Accelerator for Apache Spark release."

/-- What is said when there is a newer release. -/
def newerReleaseComment (latest current : PluginVersion) : String :=
  "A newer RAPIDS Accelerator for Apache Spark plugin is available: " ++ latest.text ++
    ". Version used in application is " ++ current.text ++ "."

/-- What is said when several jars hold the plugin. -/
def severalJarsComment (jars : List String) : String :=
  "Multiple RAPIDS Accelerator for Apache Spark jars exist in the classpath: " ++
    ", ".intercalate jars ++ ". Make sure to keep only a single jar."

/-- What is said of a single jar. -/
def releaseComment? (latest : LatestRelease) (jar : String) : Option String :=
  match pluginJarVersion? jar, latest with
  | some current, .known latest =>
    if current.compare latest = .lt then some (newerReleaseComment latest current) else none
  | some _, .unavailable => some unverifiedReleaseComment
  | _, _ => none

/-- What is said of the jars on the classpath. -/
def jarComment? (latest : LatestRelease) (entries : List String) : Option String :=
  match entries.filter isPluginJar with
  | [] => some missingJarComment
  | [jar] => releaseComment? latest jar
  | jars => some (severalJarsComment jars)

/-- Checks the plugin's jar on the classpath. -/
def classpath (ctx : Context K) (s : State) : State :=
  s.write ((jarComment? ctx.latest ctx.app.rapidsJars).toList.map .sayOnce)

/-- A setting that removes the reason for an unsupported operator. -/
structure Remedy where
  /-- The reason holds this text. -/
  fragment : String
  key : String
  value : String
  caveat : String
  deriving Repr, DecidableEq

/-- The known remedies. -/
def remedies : List Remedy :=
  [{ fragment := Key.incompatibleDateFormats
     key := Key.incompatibleDateFormats
     value := "true"
     caveat :=
      "'spark.rapids.sql.incompatibleDateFormats.enabled' was set to true to allow unsupported " ++
        "date formats on the GPU. This is an experimental configuration." }]

/-- What a remedy writes. -/
def Remedy.ops (r : Remedy) : List Ledger.Op :=
  [.registerCaveat r.key r.caveat, .recommend r.key r.value]

/-- Applies the remedies for the reasons in the driver log. -/
def driverLogs (ctx : Context K) (s : State) : State :=
  let reasons := ctx.driverLog.getD []
  s.write ((remedies.filter fun r =>
    reasons.any fun reason => occursIn r.fragment.toList reason.toList).flatMap Remedy.ops)

end SparkTuner.Rules
