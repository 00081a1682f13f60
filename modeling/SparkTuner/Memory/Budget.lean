import SparkTuner.Memory.Container
import SparkTuner.Number.Quantity

/-!
# The memory budget of an executor

The usable share of an executor's container is divided into the heap, the overhead around it, and
within the overhead a pinned pool and a spill pool. Whether a request fits is checked twice: first
against the least overhead, then against the overhead with the pools at their size. All sizes are
in MiB and whole; only the container and the usable share are quantities.
-/

namespace SparkTuner.Memory

open Number

/-- Heap that each core can use. -/
def heapPerCore : Nat := 2048

/-- Heap that each core needs. -/
def leastHeapPerCore : Nat := 750

/-- Pinned pool in the least overhead. -/
def defaultPinned : Nat := 1024

/-- Spill pool in the least overhead. -/
def defaultSpill : Nat := 1024

/-- The pools in the least overhead. -/
def defaultPools : Nat := defaultPinned + defaultSpill

/-- The largest pinned pool that is chosen. -/
def largestPinned : Nat := 4096

/-- Room for the bytes in flight of a multi-threaded shuffle. -/
def inFlightRoom : Nat := 4096

/-- Cores from which that room is wanted. -/
def inFlightCores : Nat := 16

/-- What one executor asks for. -/
structure Request (K : Type) where
  cores : Nat
  /-- The executor's part of a worker's memory. -/
  container : K
  /-- The share of the container that the executor gets. -/
  share : K
  offHeap : Nat := 0
  pyspark : Nat := 0
  /-- Whether the cluster is a cloud provider's. -/
  isCloud : Bool := false
  enforcedHeap : Option Nat := none
  enforcedOverhead : Option Nat := none
  enforcedPinned : Option Nat := none
  enforcedSpill : Option Nat := none
  deriving Repr

/-- How an executor's memory is divided. -/
structure Plan where
  heap : Nat
  overhead : Nat
  pinned : Nat
  spill : Nat
  /-- Whether the overhead has room for the bytes in flight. -/
  inFlight : Bool
  deriving Repr, DecidableEq

/-- The outcome of a budget. -/
inductive Budget where
  | planned (plan : Plan)
  /-- The request does not fit; a container of `required` MiB would hold it. -/
  | short (required : Nat)
  deriving Repr, DecidableEq

namespace Request

variable {K : Type} [Quantity K] (r : Request K)

/-- Whether the user fixed one of the sizes. -/
def anyEnforced : Bool :=
  r.enforcedHeap.isSome || r.enforcedOverhead.isSome || r.enforcedPinned.isSome ||
    r.enforcedSpill.isSome

/-- The memory the executor gets. -/
def usable : K := r.container * r.share

/-- What is set aside before a heap is chosen. -/
def reserved : Nat := r.offHeap + r.pyspark + defaultPools

/-- The largest heap whose overhead and default pools still fit, within what the cores can use. -/
def heapBudget : Nat :=
  min (heapPerCore * r.cores)
    (Quantity.floorWord
      ((r.usable - Quantity.ofNat r.reserved) / (Quantity.ofNat 1 + Quantity.tenth)))

/-- The heap. -/
def heap : Nat := r.enforcedHeap.getD (max r.heapBudget (leastHeapPerCore * max r.cores 1))

/-- The overhead that the heap itself calls for, a tenth of it. -/
def baseOverhead : Nat := Quantity.floorWord (Quantity.ofNat (K := K) r.heap * Quantity.tenth)

/-- The overhead with the default pools. -/
def defaultOverhead : Nat := r.baseOverhead + defaultPools

/-- The overhead of the first check. -/
def leastOverhead : Nat := r.enforcedOverhead.getD r.defaultOverhead

/-- What lies outside the overhead. -/
def fixed : Nat := r.heap + r.offHeap + r.pyspark

/-- What is left for the overhead. -/
def left : Nat := Quantity.floorWord (r.usable - Quantity.ofNat r.fixed)

/-- The pinned pool: half of what is left beside the base overhead. -/
def pinned : Nat := r.enforcedPinned.getD (min ((r.left - r.baseOverhead) / 2) largestPinned)

/-- The spill pool. -/
def spill : Nat := r.enforcedSpill.getD r.pinned

/-- The overhead with the pools at their size. -/
def pooled : Nat := r.baseOverhead + r.pinned + r.spill

/-- Whether room for the bytes in flight is wanted. -/
def wantsInFlight : Bool := r.isCloud && inFlightCores ≤ r.cores

/-- Whether there is that room. -/
def inFlight : Bool := r.wantsInFlight && r.pooled + inFlightRoom ≤ r.left

/-- The overhead of the second check. -/
def overhead : Nat :=
  max (r.pooled + if r.inFlight then inFlightRoom else 0) (r.enforcedOverhead.getD 0)

/-- The least container whose usable share reaches `need`. -/
def containerFor (need : Nat) : Nat :=
  correct (fun n => Quantity.ofNat n * r.share < Quantity.ofNat need)
    (fun n => Quantity.ofNat need ≤ Quantity.ofNat n * r.share)
    (Quantity.ceilWord (Quantity.ofNat need / r.share))

/-- Whether not even the least overhead fits. -/
def failsFirst : Bool := r.usable < Quantity.ofNat (r.fixed + r.leastOverhead)

/-- Whether the overhead does not fit once the pools have their size. -/
def failsSecond : Bool := r.left < r.overhead

/-- Divides the memory of an executor. -/
def budget : Budget :=
  if r.failsFirst then .short (r.containerFor (r.fixed + r.leastOverhead))
  else if r.failsSecond then
    if r.anyEnforced then .short (r.containerFor (r.fixed + r.overhead))
    else .planned ⟨r.heap, r.defaultOverhead, defaultPinned, defaultSpill, false⟩
  else .planned ⟨r.heap, r.overhead, r.pinned, r.spill, r.inFlight⟩

/-- The sums that are formed on the way to the budget, each the largest of its kind. -/
def sums : List Nat :=
  (if r.enforcedHeap.isNone then [r.reserved] else []) ++
    [r.defaultOverhead, r.fixed + r.leastOverhead] ++
    if r.failsFirst then [r.containerFor (r.fixed + r.leastOverhead)]
    else
      [r.pooled] ++ (if r.wantsInFlight then [r.pooled + inFlightRoom] else []) ++
        if r.failsSecond && r.anyEnforced then
          [r.fixed + r.overhead, r.containerFor (r.fixed + r.overhead)]
        else []

/-- Whether every sum on the way to the budget fits a 64-bit word. -/
def staysInWords : Bool := r.sums.all (· ≤ max64)

end Request

/-- The memory a worker needs when each of its executors needs a container of `required` MiB. -/
def workerNeed (required executors : Nat) : Nat := required * max executors 1

/-- What is said of a request that does not fit. -/
def shortfallComment (required executors : Nat) : String :=
  "This node/worker configuration is not ideal for GPU execution. Each worker needs at least " ++
    Nat.repr (workerNeed required executors) ++
    "MB of memory for the recommended executor layout."

end SparkTuner.Memory
