/-!
# Property keys

The engine properties that rules read and write.
-/

namespace SparkTuner.Key

def executorCores : String := "spark.executor.cores"

def executorInstances : String := "spark.executor.instances"

def executorMemory : String := "spark.executor.memory"

def executorMemoryOverhead : String := "spark.executor.memoryOverhead"

def offHeapEnabled : String := "spark.memory.offHeap.enabled"

def offHeapSize : String := "spark.memory.offHeap.size"

def pysparkMemory : String := "spark.executor.pyspark.memory"

def pinnedPool : String := "spark.rapids.memory.pinnedPool.size"

def spillStorage : String := "spark.rapids.memory.host.spillStorageSize"

def sqlEnabled : String := "spark.rapids.sql.enabled"

def plugins : String := "spark.plugins"

def concurrentGpuTasks : String := "spark.rapids.sql.concurrentGpuTasks"

def batchSizeBytes : String := "spark.rapids.sql.batchSizeBytes"

def taskGpuAmount : String := "spark.task.resource.gpu.amount"

def shufflePartitions : String := "spark.sql.shuffle.partitions"

def maxPartitionBytes : String := "spark.sql.files.maxPartitionBytes"

def aqeEnabled : String := "spark.sql.adaptive.enabled"

def aqeAdvisoryPartitionSize : String := "spark.sql.adaptive.advisoryPartitionSizeInBytes"

def aqeMinPartitionSize : String := "spark.sql.adaptive.coalescePartitions.minPartitionSize"

def aqeMinPartitionNum : String := "spark.sql.adaptive.coalescePartitions.minPartitionNum"

def aqeInitialPartitionNum : String := "spark.sql.adaptive.coalescePartitions.initialPartitionNum"

def aqeParallelismFirst : String := "spark.sql.adaptive.coalescePartitions.parallelismFirst"

def aqeBroadcastThreshold : String := "spark.sql.adaptive.autoBroadcastJoinThreshold"

def shuffleReaderThreads : String := "spark.rapids.shuffle.multiThreaded.reader.threads"

def shuffleWriterThreads : String := "spark.rapids.shuffle.multiThreaded.writer.threads"

def shuffleMaxBytesInFlight : String := "spark.rapids.shuffle.multiThreaded.maxBytesInFlight"

def multiThreadedReadThreads : String := "spark.rapids.sql.multiThreadedRead.numThreads"

def readerCombineSize : String := "spark.rapids.sql.reader.multithreaded.combine.sizeBytes"

def parquetCombineWait : String := "spark.rapids.sql.format.parquet.multithreaded.combine.waitTime"

def shuffleManager : String := "spark.shuffle.manager"

def fileCacheEnabled : String := "spark.rapids.filecache.enabled"

def serializer : String := "spark.serializer"

def kryoRegistrator : String := "spark.kryo.registrator"

def kryoBufferMax : String := "spark.kryoserializer.buffer.max"

def incompatibleDateFormats : String := "spark.rapids.sql.incompatibleDateFormats.enabled"

def databricksAutoOptimizeShuffle : String :=
  "spark.databricks.adaptive.autoOptimizeShuffle.enabled"

def databricksDynamicFilePruning : String := "spark.databricks.optimizer.dynamicFilePruning"

/-- Carries the Databricks runtime version, such as `12.2.x-gpu-ml-scala2.12`. -/
def databricksRuntime : String := "spark.databricks.clusterUsageTags.sparkVersion"

/-- The JVM system property that names the character encoding. -/
def fileEncoding : String := "file.encoding"

end SparkTuner.Key
