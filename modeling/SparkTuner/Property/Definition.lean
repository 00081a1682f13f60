import SparkTuner.Property.Key

/-!
# Property definitions

The properties the tuner knows how to reason about, with the values the engine assumes for them and
the explanations given when they are missing or replaced.
-/

namespace SparkTuner

/-- What a property matters for. -/
inductive Category where
  /-- The accelerator does not work without it. -/
  | functionality
  /-- It affects performance only. -/
  | tuning
  deriving Repr, DecidableEq

/-- The name of a category in listings. -/
def Category.name : Category → String
  | functionality => "functionality"
  | tuning => "tuning"

/-- A property that can be tuned. -/
structure Definition where
  key : String
  category : Category := .tuning
  /-- The value the engine assumes when the application sets none. -/
  default : Option String := none
  /-- Explains a recommendation for an application that did not set the property. -/
  missingComment : Option String := none
  /-- Explains a recommendation that replaces the application's value. -/
  updateComment : Option String := none
  deriving Repr, DecidableEq

namespace Definition

/-- Every definition, by key. -/
def all : List Definition :=
  [{ key := Key.databricksAutoOptimizeShuffle },
   { key := Key.databricksDynamicFilePruning },
   { key := Key.executorCores },
   { key := Key.executorInstances
     missingComment :=
      some "'spark.executor.instances' should be set to (gpuCount * numWorkers)." },
   { key := Key.executorMemory
     missingComment := some "'spark.executor.memory' should be set to at least 2GB/core." },
   { key := Key.executorMemoryOverhead },
   { key := Key.kryoRegistrator, category := .functionality },
   { key := Key.kryoBufferMax, default := some "64m" },
   { key := Key.fileCacheEnabled },
   { key := Key.spillStorage },
   { key := Key.pinnedPool },
   { key := Key.shuffleMaxBytesInFlight },
   { key := Key.shuffleReaderThreads },
   { key := Key.shuffleWriterThreads },
   { key := Key.batchSizeBytes },
   { key := Key.concurrentGpuTasks
     missingComment :=
      some "'spark.rapids.sql.concurrentGpuTasks' should be set to Min(4, (gpuMemory / 7.5G))." },
   { key := Key.sqlEnabled
     category := .functionality
     default := some "true"
     missingComment :=
      some "'spark.rapids.sql.enabled' should be true to enable SQL operations on the GPU." },
   { key := Key.parquetCombineWait },
   { key := Key.incompatibleDateFormats, category := .functionality },
   { key := Key.multiThreadedReadThreads },
   { key := Key.readerCombineSize },
   { key := Key.shuffleManager
     updateComment :=
      some ("'spark.shuffle.manager' was replaced by the RAPIDS shuffle manager built for this " ++
        "Spark version.") },
   { key := Key.aqeAdvisoryPartitionSize, default := some "64m" },
   { key := Key.aqeBroadcastThreshold },
   { key := Key.aqeInitialPartitionNum, default := some "200" },
   { key := Key.aqeMinPartitionNum },
   { key := Key.aqeMinPartitionSize, default := some "1m" },
   { key := Key.aqeParallelismFirst },
   { key := Key.aqeEnabled
     default := some "true"
     missingComment :=
      some "'spark.sql.adaptive.enabled' should be enabled for better performance." },
   { key := Key.maxPartitionBytes, default := some "512m" },
   { key := Key.shufflePartitions, default := some "200" },
   { key := Key.taskGpuAmount
     category := .functionality
     missingComment :=
      some "'spark.task.resource.gpu.amount' should be set to Min(1, (gpuCount / numCores))." }]

/-- The definition of a key. -/
def find? (key : String) : Option Definition := all.find? fun d => d.key == key

end Definition

/-- The value the engine assumes for a key. -/
def defaultValue? (key : String) : Option String := (Definition.find? key).bind (·.default)

/-- Explains a recommendation for a key that the application did not set. -/
def missingComment (key : String) : String :=
  ((Definition.find? key).bind (·.missingComment)).getD ("'" ++ key ++ "' was not set.")

/-- Explains a recommendation that replaces the application's value of a key. -/
def updateComment? (key : String) : Option String :=
  (Definition.find? key).bind (·.updateComment)

end SparkTuner
