import SparkTuner.KeyMap
import SparkTuner.Number.Quantity
import SparkTuner.Text.Blank
import SparkTuner.Text.Cut

/-!
# What is known about an application

The tuner does not read event logs. It is given the statistics of an application that was profiled
before, and optionally the reasons for unsupported operators that a driver log names.
-/

namespace SparkTuner

open Number Text

/-- A set of stages, ascending. -/
def stageSet (stages : List Nat) : List Nat := (stages.mergeSort (· ≤ ·)).eraseReps

/-- The statistics of an application. -/
structure AppSummary (K : Type) where
  appId : Option String := none
  sparkVersion : Option String := none
  /-- Whether the application could be profiled at all. -/
  isInfoAvailable : Bool := true
  meanInputBytes : K
  maxInputBytes : K
  meanShuffleReadBytes : K
  spillStages : List Nat := []
  skewStages : List Nat := []
  gpuOomStages : List Nat := []
  taskOomStages : List Nat := []
  /-- The share of task time spent collecting garbage, one value for each task. -/
  gcFractions : List K := []
  redundantReadBytes : Nat := 0
  /-- The distinct read locations among all reads, in percent. -/
  distinctLocationPct : K
  systemProperties : KeyMap String := .empty
  /-- Classpath entries that may hold the plugin. -/
  rapidsJars : List String := []
  /-- The properties the application ran with. -/
  properties : KeyMap String := .empty
  deriving Repr

namespace AppSummary

variable {K : Type} [Quantity K]

/-- A summary of nothing. An application that reads nothing reads no location twice. -/
def blank : AppSummary K where
  meanInputBytes := Quantity.ofNat 0
  maxInputBytes := Quantity.ofNat 0
  meanShuffleReadBytes := Quantity.ofNat 0
  distinctLocationPct := Quantity.ofNat 100

/-- Stands for an application that could not be profiled. -/
def unavailable : AppSummary K := { blank with isInfoAvailable := false }

end AppSummary

/-- The reasons in a driver log: its lines without blanks around them, blank lines left out. -/
def driverLogReasons (text : String) : List String :=
  ((parts '\n' text.toList).map trim).filterMap fun line =>
    if line = [] then none else some (String.ofList line)

end SparkTuner
