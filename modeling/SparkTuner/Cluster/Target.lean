import SparkTuner.Cluster.Resolved
import SparkTuner.Error
import SparkTuner.Platform.Instance

/-!
# Target workers

A worker to tune for is described by a machine type or by its resources, never by both; resources
have to name the GPU. Contradictions stop a run, unknown names only leave the worker out.
-/

namespace SparkTuner

open Number

/-- A worker to tune for. -/
inductive TargetWorker where
  | machine (name : String) (hardware : Instance)
  | resources (cores memoryMib : Option Nat) (gpuCount : Nat) (gpu : Gpu)
  deriving Repr, DecidableEq

namespace TargetWorker

/-- Cores of the worker, if known. -/
def cores? : TargetWorker → Option Nat
  | machine _ hardware => some hardware.cores
  | resources cores _ _ _ => cores

/-- Memory of the worker, if known. -/
def memoryMib? : TargetWorker → Option Nat
  | machine _ hardware => some hardware.memoryMib
  | resources _ memoryMib _ _ => memoryMib

/-- GPUs of the worker. -/
def gpuCount : TargetWorker → Nat
  | machine _ hardware => hardware.gpuCount
  | resources _ _ gpuCount _ => gpuCount

/-- The GPU model. -/
def gpu : TargetWorker → Gpu
  | machine _ hardware => hardware.gpu
  | resources _ _ _ gpu => gpu

/-- Whether the worker is a machine type. -/
def isMachine : TargetWorker → Bool
  | machine .. => true
  | resources .. => false

end TargetWorker

namespace WorkerInfo

variable {K : Type} [Quantity K]

/-- Whether resources are given. -/
def hasResources (info : WorkerInfo K) : Bool :=
  info.cpuCores.isSome || info.memoryGb.isSome || info.gpu.isSome

/-- The machine type a worker is said to be. -/
def machineOf (p : Platform) (name : String) : Except Error TargetWorker :=
  match p.instance? name with
  | some hardware => .ok (.machine name hardware)
  | none =>
    .error (.validation
      ("Instance type '" ++ name ++ "' is not known for platform '" ++ p.name ++ "'"))

/-- The GPU model named for a worker. -/
def modelOf (p : Platform) (gpu : TargetGpu) : Except Error Gpu :=
  match gpu.name with
  | none => .ok p.defaultGpu
  | some name =>
    match Gpu.parse? name with
    | some model => .ok model
    | none => .error (.validation (Gpu.unknown name))

/-- The worker that a description stands for; none if it says nothing. -/
def resolve (info : WorkerInfo K) (p : Platform) : Except Error (Option TargetWorker) :=
  match info.instanceType with
  | some name =>
    if info.hasResources then
      .error (.contradiction
        ("Target worker specifies instance type '" ++ name ++
          "' together with explicit cpuCores/memoryGB/gpu. Use one or the other."))
    else (machineOf p name).map some
  | none =>
    if info.hasResources then
      match info.gpu with
      | none =>
        .error (.contradiction
          ("Target worker specifies cpuCores/memoryGB without a gpu section. " ++
            "GPU information is required for the target cluster."))
      | some gpu =>
        (modelOf p gpu).map fun model =>
          some (.resources (usableCount? info.cpuCores)
            (info.memoryGb.map fun gb => Quantity.floorWord (gb * Quantity.ofNat 1024))
            ((usableCount? gpu.count).getD defaultGpus) model)
    else .ok none

end WorkerInfo

/-- The worker that a target cluster asks for. -/
def TargetDescription.resolveWorker {K : Type} [Quantity K] (t : TargetDescription K)
    (p : Platform) : Except Error (Option TargetWorker) :=
  match t.worker with
  | none => .ok none
  | some info => info.resolve p

end SparkTuner
