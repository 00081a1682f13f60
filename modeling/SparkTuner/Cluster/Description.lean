import SparkTuner.KeyMap

/-!
# Cluster descriptions

What a user writes down about the cluster an application ran on, and about the cluster to tune for.
Every part may be missing.
-/

namespace SparkTuner

/-- The workers of a cluster. -/
structure SystemInfo where
  /-- Cores of one worker. -/
  numCores : Option Nat := none
  /-- Memory of one worker, as a size. -/
  memory : Option String := none
  numWorkers : Option Nat := none
  deriving Repr, DecidableEq

/-- The GPUs of one worker. -/
structure GpuInfo where
  count : Option Nat := none
  /-- Memory of one GPU, as a size. -/
  memory : Option String := none
  name : Option String := none
  deriving Repr, DecidableEq

/-- The cluster an application ran on. -/
structure ClusterDescription where
  system : Option SystemInfo := none
  gpu : Option GpuInfo := none
  /-- Properties set for every application on the cluster. -/
  softwareProperties : KeyMap String := .empty
  deriving Repr, DecidableEq

/-- Whether nothing is said about the hardware. -/
def ClusterDescription.isEmpty (c : ClusterDescription) : Bool :=
  c.system.isNone && c.gpu.isNone

/-- The GPUs of one worker to tune for. -/
structure TargetGpu where
  count : Option Nat := none
  name : Option String := none
  deriving Repr, DecidableEq

/-- A worker to tune for: a machine type, or its resources. -/
structure WorkerInfo (K : Type) where
  instanceType : Option String := none
  cpuCores : Option Nat := none
  memoryGb : Option K := none
  gpu : Option TargetGpu := none
  deriving Repr, DecidableEq

/-- The cluster to tune for. -/
structure TargetDescription (K : Type) where
  worker : Option (WorkerInfo K) := none
  /-- Values that stand against every computed one. -/
  enforced : KeyMap String := .empty
  deriving Repr, DecidableEq

end SparkTuner
