import SparkTuner.Number.Quantity
import SparkTuner.Platform.Gpu

/-!
# Platforms

Where a cluster runs, and what follows from it: the GPU assumed when none is named, the share of a
worker's memory that executors get, the settings the platform wants and those it keeps to itself.
-/

namespace SparkTuner

open Number Text

/-- Where a cluster runs. -/
inductive Platform where
  | onPrem
  | dataproc
  | emr
  | databricksAws
  | databricksAzure
  deriving Repr, DecidableEq

namespace Platform

/-- The platform assumed when none is named. -/
instance : Inhabited Platform := ⟨onPrem⟩

/-- Every platform. -/
def all : List Platform := [onPrem, dataproc, emr, databricksAws, databricksAzure]

/-- The platform's name. -/
def name : Platform → String
  | onPrem => "onprem"
  | dataproc => "dataproc"
  | emr => "emr"
  | databricksAws => "databricks-aws"
  | databricksAzure => "databricks-azure"

/-- The platform with exactly this name. -/
def ofName? (name : String) : Option Platform := all.find? fun p => p.name == name

/-- The platform a text names, in letters of either case; `on-prem` is accepted too. The error is
the text it was looked up by. -/
def parse (text : String) : Except String Platform :=
  let wanted := lowered (trimmed text)
  if wanted = "on-prem" then .ok onPrem
  else
    match ofName? wanted with
    | some p => .ok p
    | none => .error ("Unknown platform: " ++ wanted)

/-- Whether the platform is one of the Databricks ones. -/
def isDatabricks : Platform → Bool
  | databricksAws | databricksAzure => true
  | _ => false

/-- Whether the platform is a cloud provider's. -/
def isCloud : Platform → Bool
  | onPrem => false
  | _ => true

/-- The GPU assumed when a description names none. -/
def defaultGpu : Platform → Gpu
  | onPrem | dataproc => .l4
  | emr | databricksAws => .a10g
  | databricksAzure => .t4

/-- The tenths of a worker's memory that its executors get. -/
def memoryTenths (p : Platform) : Nat := if p.isDatabricks then 9 else 8

/-- The share of a worker's memory that its executors get. -/
def memoryShare {K : Type} [Quantity K] (p : Platform) : K :=
  Quantity.ofDecimal p.memoryTenths 1

/-- Settings the platform wants when the application leaves them unset. -/
def wantedProperties (p : Platform) : List (String × String) :=
  if p.isDatabricks then [("spark.databricks.optimizer.dynamicFilePruning", "false")] else []

/-- Settings the platform keeps to itself. -/
def excludedKeys (p : Platform) : List String :=
  if p.isDatabricks then
    ["spark.executor.cores", "spark.executor.instances", "spark.executor.memory",
      "spark.executor.memoryOverhead"]
  else []

theorem ofName?_name (p : Platform) : ofName? p.name = some p := by
  cases p <;> decide

end Platform

end SparkTuner
