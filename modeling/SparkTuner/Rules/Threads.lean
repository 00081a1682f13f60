import SparkTuner.Rules.Context

/-!
# Thread pools

Shuffles and readers use a pool of threads that follows from the cores of an executor.
-/

namespace SparkTuner.Rules

open Number

variable {K : Type}

/-- Cores from which cloud readers get the larger pool. -/
def largeReaderCores : Nat := 16

/-- Cores from which readers combine more. -/
def largeCombineCores : Nat := 20

/-- Threads of the reader's pool. -/
def readThreads (cores : Nat) (isCloud : Bool) : Nat :=
  if isCloud ∧ largeReaderCores ≤ cores then max 40 (cappedMul32 cores 2) else max 20 cores

/-- The size up to which readers combine files. -/
def combineSize (cores : Nat) : String := if largeCombineCores ≤ cores then "20m" else "10m"

/-- Sets the pools that follow from the cores. -/
def threadPools (cores : Nat) (isCloud : Bool) (s : State) : State :=
  let s := s.suggest Key.shuffleReaderThreads (.text (Nat.repr cores))
  let s := s.suggest Key.shuffleWriterThreads (.text (Nat.repr cores))
  let s := s.suggest Key.multiThreadedReadThreads (.text (Nat.repr (readThreads cores isCloud)))
  if isCloud ∧ largeReaderCores ≤ cores then
    let s := s.suggest Key.readerCombineSize (.text (combineSize cores))
    s.suggest Key.parquetCombineWait (.text "1000")
  else s

/-- Whether the memory budget has room for the bytes in flight. -/
def hasInFlightRoom : Option Memory.Budget → Bool
  | some (.planned plan) => plan.inFlight
  | _ => false

/-- Sets the thread pools, and the bytes in flight that memory was set aside for. -/
def threads (ctx : Context K) (s : State) : State :=
  let s := threadPools (ctx.executorCores s.ledger) ctx.platform.isCloud s
  if hasInFlightRoom s.memory then s.suggest Key.shuffleMaxBytesInFlight (.text "4g") else s

end SparkTuner.Rules
