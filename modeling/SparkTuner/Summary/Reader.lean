import SparkTuner.Error
import SparkTuner.Json.Record
import SparkTuner.Summary.Basic

/-!
# Reading application summaries

A summary is a JSON record all of whose fields may be absent.
-/

namespace SparkTuner.AppSummary

open Json Number

/-- The fields of a summary, in order. -/
def fieldNames : List String :=
  ["app_id", "spark_version", "is_info_available", "mean_input_bytes", "max_input_bytes",
    "mean_shuffle_read_bytes", "shuffle_stages_with_spill", "shuffle_skew_stages",
    "scan_stages_with_gpu_oom", "shuffle_stages_with_task_oom", "jvm_gc_fractions",
    "redundant_read_bytes", "distinct_location_pct", "system_properties", "rapids_jars",
    "properties"]

/-- A set of stages. -/
def asStages? (j : Json) : Option (List Nat) := (asList? (asCount? max64) j).map stageSet

/-- The summary that a JSON value stands for. -/
def ofJson? (j : Json) : Option (AppSummary Float) := do
  let fs ← fields? fieldNames j
  let none : AppSummary Float := blank
  return {
    appId := ← fs.getD? "app_id" (asOptional? asText?) none.appId
    sparkVersion := ← fs.getD? "spark_version" (asOptional? asText?) none.sparkVersion
    isInfoAvailable := ← fs.getD? "is_info_available" asBool? none.isInfoAvailable
    meanInputBytes := ← fs.getD? "mean_input_bytes" asFloat? none.meanInputBytes
    maxInputBytes := ← fs.getD? "max_input_bytes" asFloat? none.maxInputBytes
    meanShuffleReadBytes := ←
      fs.getD? "mean_shuffle_read_bytes" asFloat? none.meanShuffleReadBytes
    spillStages := ← fs.getD? "shuffle_stages_with_spill" asStages? none.spillStages
    skewStages := ← fs.getD? "shuffle_skew_stages" asStages? none.skewStages
    gpuOomStages := ← fs.getD? "scan_stages_with_gpu_oom" asStages? none.gpuOomStages
    taskOomStages := ← fs.getD? "shuffle_stages_with_task_oom" asStages? none.taskOomStages
    gcFractions := ← fs.getD? "jvm_gc_fractions" (asList? asFloat?) none.gcFractions
    redundantReadBytes := ←
      fs.getD? "redundant_read_bytes" (asCount? max64) none.redundantReadBytes
    distinctLocationPct := ←
      fs.getD? "distinct_location_pct" asFloat? none.distinctLocationPct
    systemProperties := ← fs.getD? "system_properties" (asMap? asText?) none.systemProperties
    rapidsJars := ← fs.getD? "rapids_jars" (asList? asText?) none.rapidsJars
    properties := ← fs.getD? "properties" (asMap? asText?) none.properties }

/-- The summary in a JSON text. -/
def parse (text : String) : Except Error (AppSummary Float) :=
  match (Json.parse? text).bind ofJson? with
  | some app => .ok app
  | none => .error .json

end SparkTuner.AppSummary
