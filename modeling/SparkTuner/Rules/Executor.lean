import SparkTuner.Rules.Context

/-!
# Executors and their memory

Sizes the executors for the layout, and divides their memory. A layout that is not known leaves all
of it out. A budget that falls short leaves a placeholder for three of the memory settings, also
for those that the user gave.
-/

namespace SparkTuner.Rules

open Number Text

variable {K : Type} [Quantity K]

/-- What is said when the layout is not known. -/
def noShapeComment : String :=
  "Could not infer the cluster configuration, recommendations are generated using default values!"

/-- The most tasks that share a GPU. -/
def mostGpuTasks : Nat := 4

/-- GPU memory, in MiB, for each task that shares a GPU. -/
def gpuMemoryPerTask : Nat := 7500

/-- The size of a batch, in bytes. -/
def batchSize : String := "2147483647"

/-- The settings that a short budget leaves open. -/
def memoryKeys : List String := [Key.executorMemory, Key.executorMemoryOverhead, Key.pinnedPool]

/-- The tasks that share a GPU, at least one. -/
def gpuTasks (gpuMemoryMib : Nat) : Nat :=
  min (max (gpuMemoryMib / gpuMemoryPerTask) 1) mostGpuTasks

/-- The size that the user gave for a key, in MiB. -/
def enforcedMib (K : Type) [Quantity K] (l : Ledger) (key : String) : Option Nat :=
  if l.isEnforced key then (l.get? key).bind (Size.memory? K) else none

/-- The size of a setting in MiB, zero if it has none. -/
def settingMib (K : Type) [Quantity K] (l : Ledger) (key : String) : Nat :=
  ((l.get? key).bind (Size.memory? K)).getD 0

/-- Memory outside the heap, counted only when it is switched on. -/
def offHeapMib (K : Type) [Quantity K] (l : Ledger) : Nat :=
  if (l.get? Key.offHeapEnabled).any isTrue then settingMib K l Key.offHeapSize else 0

/-- What an executor with this container asks for. -/
def memoryRequest (ctx : Context K) (shape : Shape) (container : K) (l : Ledger) :
    Memory.Request K where
  cores := ctx.executorCores l
  container
  share := ctx.platform.memoryShare
  offHeap := offHeapMib K l
  pyspark := settingMib K l Key.pysparkMemory
  isCloud := shape.isCloud
  enforcedHeap := enforcedMib K l Key.executorMemory
  enforcedOverhead := enforcedMib K l Key.executorMemoryOverhead
  enforcedPinned := enforcedMib K l Key.pinnedPool
  enforcedSpill := enforcedMib K l Key.spillStorage

/-- Recommends the sizes of a plan. -/
def recommendPlan (s : State) (plan : Memory.Plan) : State :=
  [(Key.executorMemory, plan.heap), (Key.executorMemoryOverhead, plan.overhead),
    (Key.pinnedPool, plan.pinned), (Key.spillStorage, plan.spill)].foldl
    (fun s (key, mib) => s.suggest key (.mib (signed64 mib))) s

/-- Leaves the memory settings open and says what a worker would need. -/
def reportShortfall (s : State) (shape : Shape) (required : Nat) : State :=
  s.write (memoryKeys.map .invalidate ++
    [.sayOnce (Memory.shortfallComment required shape.executorsPerWorker)])

/-- The sums formed for a budget and its report. -/
def budgetSums (request : Memory.Request K) (shape : Shape) : List Nat :=
  request.sums ++
    match request.budget with
    | .planned _ => []
    | .short required => [Memory.workerNeed required shape.executorsPerWorker]

/-- Divides the memory of an executor. -/
def executorMemory (ctx : Context K) (shape : Shape) (s : State) : State :=
  match (shape.memoryPerExecutor? : Option K) with
  | none => s
  | some container =>
    let request := memoryRequest ctx shape container s.ledger
    let written :=
      match request.budget with
      | .planned plan => recommendPlan s plan
      | .short required => reportShortfall s shape required
    { written with
      memory := some request.budget
      staysInWords := s.staysInWords && (budgetSums request shape).all (· ≤ max64) }

/-- Sizes the executors of a known layout. -/
def executorLayout (ctx : Context K) (shape : Shape) (s : State) : State :=
  let s := s.suggest Key.executorCores (.count shape.coresPerExecutor)
  let s := s.suggest Key.executorInstances (.count shape.numExecutors)
  let share : K := Quantity.ofNat 1 / Quantity.ofNat (ctx.executorCores s.ledger)
  let s := s.suggest Key.taskGpuAmount (.fraction (Quantity.exact share))
  let s := s.suggest Key.concurrentGpuTasks (.count (gpuTasks shape.gpuMemoryMib))
  s.suggest Key.batchSizeBytes (.text batchSize)

/-- Sizes the executors and divides their memory. -/
def executor (ctx : Context K) (s : State) : State :=
  match ctx.shape with
  | none => s.write [.sayOnce noShapeComment]
  | some shape => executorMemory ctx shape (executorLayout ctx shape s)

end SparkTuner.Rules
