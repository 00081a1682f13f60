import SparkTuner.Cluster.Description
import SparkTuner.Platform.Basic
import SparkTuner.Size

/-!
# Resolved clusters

A description with its gaps filled, as far as they can be. Each gap is explained by one comment.
-/

namespace SparkTuner

open Number

/-- A source cluster without gaps, except for what cannot be guessed. -/
structure ResolvedCluster where
  coresPerWorker : Option Nat
  memoryPerWorkerMib : Option Nat
  numWorkers : Nat
  gpusPerWorker : Nat
  gpuName : String
  gpuMemoryMib : Nat
  /-- Whether nothing was said about the hardware. -/
  missingInfo : Bool
  deriving Repr, DecidableEq

/-- The number of workers when it is not given. -/
def defaultWorkers : Nat := 1

/-- The number of GPUs of a worker when it is not given. -/
def defaultGpus : Nat := 1

/-- A count that was given and is not zero. -/
def usableCount? (n : Option Nat) : Option Nat := n.filter (0 < ·)

/-- A value with the comment that explains where it comes from, if it was not given. -/
structure Filled (α : Type) where
  value : α
  comment : Option String := none
  deriving Repr, DecidableEq

namespace Filled

variable {α : Type}

/-- The given value, or a default that is explained. -/
def orDefault (given : Option α) (default : α) (comment : String) : Filled α :=
  match given with
  | some a => ⟨a, none⟩
  | none => ⟨default, some comment⟩

/-- The given value if there is one; its absence is explained. -/
def orMissing (given : Option α) (comment : String) : Filled (Option α) :=
  ⟨given, if given.isSome then none else some comment⟩

end Filled

namespace ClusterDescription

/-- The workers, nothing given counting as nothing known. -/
def systemInfo (c : ClusterDescription) : SystemInfo := c.system.getD {}

/-- The GPUs, nothing given counting as nothing known. -/
def gpuInfo (c : ClusterDescription) : GpuInfo := c.gpu.getD {}

/-- The GPU model; none for a name that stands for no model. -/
def gpuModel? (c : ClusterDescription) (p : Platform) : Option Gpu :=
  match c.gpuInfo.name with
  | some name => Gpu.parse? name
  | none => some p.defaultGpu

/-- Memory of the GPU model, the platform's own standing for an unknown one. -/
def gpuCapacity (c : ClusterDescription) (p : Platform) : Nat :=
  ((c.gpuModel? p).getD p.defaultGpu).memoryMib

/-- The number of workers. -/
def workers (c : ClusterDescription) : Filled Nat :=
  .orDefault (usableCount? c.systemInfo.numWorkers) defaultWorkers
    ("Number of workers is missing. Setting default to " ++ Nat.repr defaultWorkers ++ ".")

/-- Cores of a worker. -/
def cores (c : ClusterDescription) : Filled (Option Nat) :=
  .orMissing (usableCount? c.systemInfo.numCores)
    "Number of cores per worker is missing. Executor sizing cannot be computed."

/-- Memory of a worker. -/
def workerMemory (K : Type) [Quantity K] (c : ClusterDescription) : Filled (Option Nat) :=
  .orMissing (c.systemInfo.memory.bind (Size.memory? K))
    "Worker memory is missing. Executor memory cannot be computed."

/-- Name of the GPU. -/
def gpuLabel (c : ClusterDescription) (p : Platform) : Filled String :=
  .orDefault c.gpuInfo.name p.defaultGpu.name
    ("GPU device is missing. Setting default to " ++ p.defaultGpu.name ++ ".")

/-- GPUs of a worker. -/
def gpus (c : ClusterDescription) : Filled Nat :=
  .orDefault (usableCount? c.gpuInfo.count) defaultGpus
    ("GPU count is missing. Setting default to " ++ Nat.repr defaultGpus ++ ".")

/-- Memory of the GPU. -/
def gpuMemory (K : Type) [Quantity K] (c : ClusterDescription) (p : Platform) : Filled Nat :=
  .orDefault (c.gpuInfo.memory.bind (Size.memory? K)) (c.gpuCapacity p)
    ("GPU memory is missing. Setting default to " ++ Nat.repr (c.gpuCapacity p) ++ "m.")

/-- The description with its gaps filled. -/
def resolve (K : Type) [Quantity K] (c : ClusterDescription) (p : Platform) : ResolvedCluster where
  coresPerWorker := c.cores.value
  memoryPerWorkerMib := (c.workerMemory K).value
  numWorkers := c.workers.value
  gpusPerWorker := c.gpus.value
  gpuName := (c.gpuLabel p).value
  gpuMemoryMib := (c.gpuMemory K p).value
  missingInfo := c.isEmpty

/-- What explains the gaps. -/
def gapComments (K : Type) [Quantity K] (c : ClusterDescription) (p : Platform) : List String :=
  [c.workers.comment, c.cores.comment, (c.workerMemory K).comment, (c.gpuLabel p).comment,
    c.gpus.comment, (c.gpuMemory K p).comment].filterMap id

end ClusterDescription

end SparkTuner
