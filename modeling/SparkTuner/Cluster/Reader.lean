import SparkTuner.Cluster.Description
import SparkTuner.Text.Blank
import SparkTuner.Yaml.Record

/-!
# Reading cluster descriptions

Descriptions are YAML documents. A blank text is an empty description.
-/

namespace SparkTuner

open Yaml

/-- How deep the values of a map may be nested that is a field of a document. -/
def fieldDepth : Nat := 126

/-- How deep the values of a map may be nested that is a field of a field. -/
def innerFieldDepth : Nat := 125

/-- A field of a record that is read by `read` and put in by `put`. -/
def field {α β : Type} (read : Node → Reading β) (put : α → β → α) :
    Option (α → Node → Reading α) :=
  some fun a n => put a <$> read n

/-- The workers of a cluster. -/
def readSystem (d : Document) : Node → Reading SystemInfo :=
  d.record {} fun
    | "numCores" => field (d.optional d.count32) fun s v => { s with numCores := v }
    | "memory" => field (d.optional d.text) fun s v => { s with memory := v }
    | "numWorkers" => field (d.optional d.count32) fun s v => { s with numWorkers := v }
    | _ => none

/-- The GPUs of one worker. -/
def readGpu (d : Document) : Node → Reading GpuInfo :=
  d.record {} fun
    | "count" => field (d.optional d.count32) fun g v => { g with count := v }
    | "memory" => field (d.optional d.text) fun g v => { g with memory := v }
    | "name" => field (d.optional d.text) fun g v => { g with name := v }
    | _ => none

/-- The cluster an application ran on. -/
def readCluster (d : Document) : Node → Reading ClusterDescription :=
  d.record {} fun
    | "system" => field (d.optional (readSystem d)) fun c v => { c with system := v }
    | "gpu" => field (d.optional (readGpu d)) fun c v => { c with gpu := v }
    | "softwareProperties" =>
      field (d.scalarMap fieldDepth) fun c v => { c with softwareProperties := v }
    | _ => none

/-- The GPUs of one worker to tune for. -/
def readTargetGpu (d : Document) : Node → Reading TargetGpu :=
  d.record {} fun
    | "count" => field (d.optional d.count32) fun g v => { g with count := v }
    | "name" => field (d.optional d.text) fun g v => { g with name := v }
    | _ => none

/-- A worker to tune for. -/
def readWorker (d : Document) : Node → Reading (WorkerInfo Float) :=
  d.record {} fun
    | "instanceType" => field (d.optional d.text) fun w v => { w with instanceType := v }
    | "cpuCores" => field (d.optional d.count32) fun w v => { w with cpuCores := v }
    | "memoryGB" => field (d.optional d.real) fun w v => { w with memoryGb := v }
    | "gpu" => field (d.optional (readTargetGpu d)) fun w v => { w with gpu := v }
    | _ => none

/-- The properties of a target cluster. -/
def readEnforced (d : Document) : Node → Reading (KeyMap String) :=
  d.record .empty fun
    | "enforced" => field (d.scalarMap innerFieldDepth) fun _ v => v
    | _ => none

/-- The cluster to tune for. -/
def readTarget (d : Document) : Node → Reading (TargetDescription Float) :=
  d.record {} fun
    | "workerInfo" => field (d.optional (readWorker d)) fun t v => { t with worker := v }
    | "sparkProperties" => field (readEnforced d) fun t v => { t with enforced := v }
    | _ => none

/-- Reads a text as a YAML description. -/
def readDescription {α : Type} (blank : α) (node : Document → Node → Reading α) (text : String) :
    Except Error α :=
  if Text.trim text.toList = [] then .ok blank
  else
    let d := Document.parse text
    (d.read blank (node d)).mapError .yaml

/-- Reads the description of a cluster. -/
def ClusterDescription.parse (text : String) : Except Error ClusterDescription :=
  readDescription {} SparkTuner.readCluster text

/-- Reads the description of a cluster to tune for. -/
def TargetDescription.parse (text : String) : Except Error (TargetDescription Float) :=
  readDescription {} SparkTuner.readTarget text

end SparkTuner
