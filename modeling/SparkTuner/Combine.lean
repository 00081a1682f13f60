import SparkTuner.Report

/-!
# Combined properties

The properties an application would run with: its own, and over them the recommended ones. A
placeholder does not replace a value, and identifiers of the tools are left out.
-/

namespace SparkTuner

/-- Identifiers that are never shown. -/
def hiddenKeys : List String := ["spark.app.id", "spark.rapids.tools.app.id"]

/-- Puts a recommended value over the source, unless it is a placeholder for a value there. -/
def overrideWith (merged : KeyMap String) (key value : String) : KeyMap String :=
  if value = placeholder ∧ merged.contains key then merged else merged.insert key value

/-- The source properties with the recommended ones over them. -/
def combine (source recommended : KeyMap String) : KeyMap String :=
  (recommended.toList.foldl (fun merged (key, value) => overrideWith merged key value)
    source).filter fun key _ => !hiddenKeys.contains key

/-- Combined properties in a format. -/
def renderCombined (properties : KeyMap String) : ReportFormat → String
  | .text => "\nCombined Spark Properties:\n" ++ confLines properties
  | .json => (propertiesJson properties).pretty

end SparkTuner
