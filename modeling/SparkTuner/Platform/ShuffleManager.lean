import SparkTuner.Platform.Basic
import SparkTuner.Version.Engine

/-!
# Shuffle managers

The accelerator has one shuffle manager class for each engine release it was built for. The release
is told by the engine version, on Databricks by the runtime version instead.
-/

namespace SparkTuner

/-- What is known about a shuffle manager for an application. -/
inductive ShuffleManager where
  /-- The class built for the application's engine. -/
  | supported (className : String)
  /-- There is no class for this version. -/
  | unsupported (version : String)
  /-- The version is not known. -/
  | undetermined
  deriving Repr, DecidableEq

namespace ShuffleManager

/-- The class that carries a release tag. -/
def className (tag : String) : String :=
  "com.nvidia.spark.rapids.spark" ++ tag ++ ".RapidsShuffleManager"

/-- Tags of the engine releases with a class. -/
def engineTags : List String :=
  ["320", "321", "322", "323", "324", "330", "331", "332", "333", "334", "340", "341", "342",
   "343", "350", "351", "352"]

/-- Starts of the Databricks runtime versions with a class, and their tags. -/
def runtimeTags : List (String × String) :=
  [("11.3", "330db"), ("12.2", "332db"), ("13.3", "341db")]

/-- The class for a Databricks runtime. -/
def ofRuntime : Option String → ShuffleManager
  | none => .undetermined
  | some runtime =>
    match runtimeTags.find? fun row => row.1.toList.isPrefixOf runtime.toList with
    | some (_, tag) => .supported (className tag)
    | none => .unsupported runtime

/-- The class for an engine version. -/
def ofEngine : Option EngineVersion → ShuffleManager
  | none => .undetermined
  | some version =>
    if engineTags.contains version.tag then .supported (className version.tag)
    else .unsupported version.text

end ShuffleManager

/-- The shuffle manager for an application on a platform. -/
def Platform.shuffleManager (p : Platform) (version : Option EngineVersion)
    (runtime : Option String) : ShuffleManager :=
  if p.isDatabricks then .ofRuntime runtime else .ofEngine version

end SparkTuner
