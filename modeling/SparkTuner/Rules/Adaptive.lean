import SparkTuner.Rules.Context

/-!
# Adaptive query execution

Adaptive execution is switched on, and told how to merge small partitions: by size or by number, as
the engine's version has it. The amounts that an application reads decide on the rest.
-/

namespace SparkTuner.Rules

open Number Text

variable {K : Type} [Quantity K]

/-- Mean input in bytes that counts as much. -/
def muchInput : Nat := 35000

/-- Mean shuffle read in bytes that counts as much. -/
def muchShuffleRead : Nat := 50000

/-- The most partitions to start from that count as few. -/
def fewInitialPartitions : Nat := 200

/-- The partitions to start from when much is shuffled. -/
def manyInitialPartitions : Nat := 2000

/-- The largest table, in MiB, that should be broadcast. -/
def largestBroadcast : Nat := 100

/-- Switches adaptive execution on. -/
def switchOnAdaptive (s : State) : State :=
  if (s.ledger.get? Key.aqeEnabled).any isTrue then s
  else s.write [.recommend Key.aqeEnabled "true"]

/-- Switches off what Databricks does by itself. -/
def switchOffAutoShuffle (ctx : Context K) (s : State) : State :=
  if ctx.platform.isDatabricks && (s.ledger.get? Key.databricksAutoOptimizeShuffle).any isTrue then
    s.write [.recommend Key.databricksAutoOptimizeShuffle "false"]
  else s

/-- Partitions that keep every core busy. -/
def busyPartitions (ctx : Context K) (shape : Shape) (l : Ledger) : Nat :=
  cappedMul32 (cappedMul32 shape.numWorkers shape.gpuCount) (ctx.executorCores l)

/-- Tells how small partitions are merged. -/
def coalescing (ctx : Context K) (s : State) : State :=
  match ctx.engine.map EngineVersion.coalescing, ctx.shape with
  | some .bySize, _ =>
    if (s.ledger.get? Key.aqeMinPartitionSize).isSome then s
    else s.suggest Key.aqeMinPartitionSize (.text "4m")
  | some .byCount, some shape =>
    s.suggest Key.aqeMinPartitionNum (.text (Nat.repr (busyPartitions ctx shape s.ledger)))
  | _, _ => s

/-- The partitions to start from that are in effect. -/
def initialPartitionsInEffect (l : Ledger) : Nat :=
  ((l.getOrDefault? Key.aqeInitialPartitionNum).bind fun v => readCount64? (trimmed v)).getD
    fewInitialPartitions

/-- The number of shuffle partitions recommended so far, zero if none. -/
def recommendedShufflePartitions (l : Ledger) : Nat :=
  ((l.recommended? Key.shufflePartitions).bind readCount64?).getD 0

/-- Starts from many partitions, unless as many were recommended already. -/
def initialPartitions (s : State) : State :=
  let s := s.write [.recommend Key.aqeParallelismFirst "false"]
  if initialPartitionsInEffect s.ledger ≤ fewInitialPartitions ∧
      recommendedShufflePartitions s.ledger < manyInitialPartitions then
    s.suggest Key.aqeInitialPartitionNum (.text (Nat.repr manyInitialPartitions))
  else s

/-- Sets the size to aim at for applications that read little. -/
def advisorySize (ctx : Context K) (s : State) : State :=
  if ctx.app.meanInputBytes < Quantity.ofNat muchInput ∧
      (s.ledger.get? Key.aqeAdvisoryPartitionSize).isNone then
    s.suggest Key.aqeAdvisoryPartitionSize (.text "128m")
  else s

/-- Starts from many partitions for applications that read and shuffle much. -/
def partitionsForMuch (ctx : Context K) (s : State) : State :=
  if Quantity.ofNat muchInput < ctx.app.meanInputBytes ∧
      Quantity.ofNat muchShuffleRead < ctx.app.meanShuffleReadBytes then
    initialPartitions s
  else s

/-- What is said of the size up to which tables are broadcast. -/
def broadcastComment? (K : Type) [Quantity K] (value : Option String) : Option String :=
  match value with
  | none => some ("'" ++ Key.aqeBroadcastThreshold ++ "' was not set.")
  | some value =>
    if largestBroadcast < (Size.mib? K .byte value).getD 0 then
      some ("Setting '" ++ Key.aqeBroadcastThreshold ++ "' > " ++ Nat.repr largestBroadcast ++
        "m could lead to performance regression. Should be set to a lower number.")
    else none

/-- Checks the size up to which tables are broadcast. -/
def broadcastThreshold (K : Type) [Quantity K] (s : State) : State :=
  s.write ((broadcastComment? K (s.ledger.get? Key.aqeBroadcastThreshold)).toList.map
    (.remark Key.aqeBroadcastThreshold))

/-- Sets up adaptive execution. -/
def adaptive (ctx : Context K) (s : State) : State :=
  let s := coalescing ctx (switchOffAutoShuffle ctx (switchOnAdaptive s))
  let s := if ctx.app.isInfoAvailable then partitionsForMuch ctx (advisorySize ctx s) else s
  broadcastThreshold K s

end SparkTuner.Rules
