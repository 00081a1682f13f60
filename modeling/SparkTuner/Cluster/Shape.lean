import SparkTuner.Cluster.Target
import SparkTuner.Text.Blank

/-!
# Cluster shapes

The layout of executors that recommendations are made for: one executor for each GPU. It follows
from the source cluster, or from the target worker and a strategy that carries the capacity of the
source over to it.
-/

namespace SparkTuner

open Number Text

/-- The layout of executors on a cluster. -/
structure Shape where
  coresPerExecutor : Nat
  numExecutors : Nat
  numWorkers : Nat
  /-- GPUs of a worker. -/
  gpuCount : Nat
  gpuMemoryMib : Nat
  gpuName : String
  memoryPerWorkerMib : Option Nat
  /-- Whether the cluster is a cloud provider's. -/
  isCloud : Bool
  deriving Repr, DecidableEq

namespace Shape

/-- Executors on a worker. -/
def executorsPerWorker (s : Shape) : Nat := max s.gpuCount 1

/-- An executor's part of a worker's memory. -/
def memoryPerExecutor? {K : Type} [Quantity K] (s : Shape) : Option K :=
  s.memoryPerWorkerMib.map fun mib =>
    Quantity.ofNat mib / Quantity.ofNat s.executorsPerWorker

end Shape

/-- The resources of a worker that are carried over. -/
structure WorkerLayout where
  cores : Nat
  gpus : Nat
  deriving Repr, DecidableEq

/-- What stays the same between the source cluster and the target. -/
inductive SizingStrategy where
  | constantGpus
  | constantCores
  deriving Repr, DecidableEq

namespace SizingStrategy

/-- The strategy used when none is named. -/
instance : Inhabited SizingStrategy := ⟨constantGpus⟩

/-- Every strategy. -/
def all : List SizingStrategy := [constantGpus, constantCores]

/-- The strategy's name. -/
def name : SizingStrategy → String
  | constantGpus => "constant-gpus"
  | constantCores => "constant-cores"

/-- The strategy a text names. The error is what is said of other texts. -/
def parse (text : String) : Except String SizingStrategy :=
  let wanted := trimmed text
  match all.find? fun s => s.name == wanted with
  | some s => .ok s
  | none => .error ("Unknown sizing strategy: " ++ wanted)

/-- The number of workers of the target. Totals stop at the largest 32-bit word. -/
def targetWorkers (strategy : SizingStrategy) (sourceWorkers : Nat) (source target : WorkerLayout) :
    Nat :=
  match strategy with
  | constantGpus =>
    max (groupsOf (max target.gpus 1) (cappedMul32 sourceWorkers (max source.gpus 1))) 1
  | constantCores =>
    if target.cores = 0 then max sourceWorkers 1
    else max (groupsOf target.cores (cappedMul32 sourceWorkers source.cores)) 1

end SizingStrategy

/-- The most cores given to an executor on a cloud machine type. -/
def largestMachineExecutor : Nat := 16

/-- The layout on the source cluster itself; none if its cores are not known. -/
def ResolvedCluster.ownShape? (source : ResolvedCluster) (p : Platform) : Option Shape :=
  source.coresPerWorker.map fun cores =>
    let gpus := max source.gpusPerWorker 1
    { coresPerExecutor := max (cores / gpus) 1
      numExecutors := cappedMul32 source.numWorkers gpus
      numWorkers := source.numWorkers
      gpuCount := gpus
      gpuMemoryMib := source.gpuMemoryMib
      gpuName := source.gpuName
      memoryPerWorkerMib := source.memoryPerWorkerMib
      isCloud := p.isCloud }

/-- The layout on target workers; none if no cores are known. -/
def ResolvedCluster.targetShape? (source : ResolvedCluster) (worker : TargetWorker)
    (strategy : SizingStrategy) (p : Platform) : Option Shape :=
  (worker.cores?.or source.coresPerWorker).map fun cores =>
    let gpus := max worker.gpuCount 1
    let workers :=
      strategy.targetWorkers source.numWorkers
        ⟨source.coresPerWorker.getD cores, source.gpusPerWorker⟩ ⟨cores, gpus⟩
    let perExecutor := max (cores / gpus) 1
    { coresPerExecutor :=
        if p.isCloud && worker.isMachine then min perExecutor largestMachineExecutor
        else perExecutor
      numExecutors := cappedMul32 workers gpus
      numWorkers := workers
      gpuCount := gpus
      gpuMemoryMib := worker.gpu.memoryMib
      gpuName := worker.gpu.name
      memoryPerWorkerMib := worker.memoryMib?.or source.memoryPerWorkerMib
      isCloud := p.isCloud }

/-- The layout to recommend for. -/
def ResolvedCluster.shape? (source : ResolvedCluster) (worker : Option TargetWorker)
    (strategy : SizingStrategy) (p : Platform) : Option Shape :=
  match worker with
  | none => source.ownShape? p
  | some worker => source.targetShape? worker strategy p

end SparkTuner
