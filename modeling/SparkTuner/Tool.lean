import SparkTuner.Number.Numeral
import SparkTuner.Summary.Basic
import SparkTuner.Text.Letters

/-!
# Tools

Where the summary of an application comes from decides how it is read. The qualification tool sees
runs on CPUs. The profiling tool sees runs on GPUs, and reacts to the memory errors seen there.
-/

namespace SparkTuner

open Number Text

/-- Where the summary of an application comes from. -/
inductive Tool where
  | qualification
  | profiling
  deriving Repr, DecidableEq

namespace Tool

/-- The tool assumed when none is named. -/
instance : Inhabited Tool := ⟨qualification⟩

/-- Every tool. -/
def all : List Tool := [qualification, profiling]

/-- The tool's name. -/
def name : Tool → String
  | qualification => "qualification"
  | profiling => "profiling"

/-- The tool with exactly this name. -/
def ofName? (name : String) : Option Tool := all.find? fun t => t.name == name

/-- The tool a text names, in letters of either case. The error is what is said of other texts. -/
def parse (text : String) : Except String Tool :=
  let wanted := lowered (trimmed text)
  match ofName? wanted with
  | some t => .ok t
  | none => .error ("Unknown tool: " ++ wanted)

/-- A value, and what explains that it differs from the usual one. -/
structure Adjustment where
  value : Nat
  comment : Option String := none
  deriving Repr, DecidableEq

/-- How often shuffle partitions are multiplied after tasks ran out of memory. -/
def oomFactor : Nat := 4

variable {K : Type}

/-- The partition size in MiB, from the size now and the one that suits the input. A GPU that ran
out of memory needs at most half of the size now. -/
def partitionMib (tool : Tool) (app : AppSummary K) (current inputBased : Nat) : Adjustment :=
  match tool with
  | qualification => ⟨inputBased, none⟩
  | profiling =>
    if app.gpuOomStages.isEmpty then ⟨inputBased, none⟩
    else
      { value := min (max (current / 2) 1) inputBased
        comment :=
          some ("'spark.sql.files.maxPartitionBytes' should be decreased since GPU out of memory " ++
            "errors occurred in scan stages.") }

/-- The number of shuffle partitions, from the number now and the one that suits the spilling. Tasks
that ran out of memory need at least four times the number now. -/
def shufflePartitions (tool : Tool) (app : AppSummary K) (current spillBased : Nat) : Adjustment :=
  match tool with
  | qualification => ⟨spillBased, none⟩
  | profiling =>
    if app.taskOomStages.isEmpty then ⟨spillBased, none⟩
    else
      { value := max spillBased (cappedMul64 current oomFactor)
        comment :=
          some ("'spark.sql.shuffle.partitions' should be increased since task out of memory " ++
            "errors occurred in shuffle stages.") }

theorem ofName?_name (t : Tool) : ofName? t.name = some t := by cases t <;> decide

end Tool

end SparkTuner
