import SparkTuner.Rules.Accelerator
import SparkTuner.Rules.Adaptive
import SparkTuner.Rules.Application
import SparkTuner.Rules.Executor
import SparkTuner.Rules.Partitions
import SparkTuner.Rules.Setup
import SparkTuner.Rules.Threads

/-!
# The rules of a run

Rules run in one order, because later ones go by what earlier ones recommended. A rule never fails:
whatever it has to say goes to the ledger.
-/

namespace SparkTuner

open Number

/-- The rules, in the order in which they run. -/
inductive Rule where
  | seed
  | enforce
  | executor
  | clusterDefaults
  | plugin
  | shuffleManager
  | fileCache
  | maxPartitionBytes
  | shufflePartitions
  | kryo
  | gc
  | adaptive
  | threads
  | classpath
  | systemProperties
  | driverLogs
  | platform
  deriving Repr, DecidableEq

namespace Rule

/-- Every rule, in order. -/
def all : List Rule :=
  [seed, enforce, executor, clusterDefaults, plugin, shuffleManager, fileCache, maxPartitionBytes,
    shufflePartitions, kryo, gc, adaptive, threads, classpath, systemProperties, driverLogs,
    platform]

/-- The name of a rule in listings. -/
def name : Rule → String
  | seed => "seed"
  | enforce => "enforce"
  | executor => "executor"
  | clusterDefaults => "cluster-defaults"
  | plugin => "plugin"
  | shuffleManager => "shuffle-manager"
  | fileCache => "file-cache"
  | maxPartitionBytes => "max-partition-bytes"
  | shufflePartitions => "shuffle-partitions"
  | kryo => "kryo"
  | gc => "gc"
  | adaptive => "aqe"
  | threads => "threads"
  | classpath => "classpath"
  | systemProperties => "system-properties"
  | driverLogs => "driver-logs"
  | platform => "platform"

/-- The rule with exactly this name. -/
def ofName? (name : String) : Option Rule := all.find? fun r => r.name == name

variable {K : Type} [Quantity K]

/-- What a rule makes of a state. -/
def apply (ctx : Context K) : Rule → State → State
  | seed => Rules.seed
  | enforce => Rules.enforce ctx
  | executor => Rules.executor ctx
  | clusterDefaults => Rules.clusterDefaults ctx
  | plugin => Rules.plugin
  | shuffleManager => Rules.shuffleManager ctx
  | fileCache => Rules.fileCache ctx
  | maxPartitionBytes => Rules.maxPartitionBytes ctx
  | shufflePartitions => Rules.shufflePartitions ctx
  | kryo => Rules.kryo K
  | gc => Rules.gc ctx
  | adaptive => Rules.adaptive ctx
  | threads => Rules.threads ctx
  | classpath => Rules.classpath ctx
  | systemProperties => Rules.systemProperties ctx
  | driverLogs => Rules.driverLogs ctx
  | platform => Rules.platform ctx

/-- What rules make of a state, one after the other. -/
def applyAll (ctx : Context K) (rules : List Rule) (s : State) : State :=
  rules.foldl (fun s r => r.apply ctx s) s

end Rule

end SparkTuner
