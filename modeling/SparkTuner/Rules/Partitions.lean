import SparkTuner.Rules.Context

/-!
# Partitions of input and shuffles

The size of input partitions is scaled so that the mean input of a task lands between two bounds.
The number of shuffle partitions goes up when shuffles spill or tasks run out of memory.
-/

namespace SparkTuner.Rules

open Number Text

variable {K : Type} [Quantity K]

/-- Mean input of a task, in MiB, below which partitions grow. -/
def leastTaskInput : Nat := 128

/-- Mean input of a task, in MiB, above which partitions shrink. -/
def mostTaskInput : Nat := 256

/-- The largest partition size, in MiB. -/
def largestPartition : Nat := 4096

/-- The partition size when none can be read, in MiB. -/
def defaultPartition : Nat := 512

/-- The number of shuffle partitions when none can be read. -/
def defaultShufflePartitions : Nat := 200

/-- How often shuffle partitions are multiplied after spilling. -/
def spillFactor : Nat := 2

/-- What is said of spilling. -/
def spillComment : String :=
  "'spark.sql.shuffle.partitions' should be increased since spilling occurred in shuffle stages."

/-- What is said of spilling in stages with skew. -/
def skewComment : String :=
  "Shuffle skew exists (when task's Shuffle Read Size > 3 * Avg Stage-level size) in stages with " ++
    "spilling. Increasing shuffle partitions is not recommended in this case since keys will " ++
    "still hash to the same task."

/-- The partition size that brings the mean input of a task between the bounds. Without a positive
mean the size stays. -/
def scaledPartition (current : Nat) (meanInput : K) : Nat :=
  if meanInput ≤ Quantity.ofNat 0 then current
  else
    let size : K := Quantity.ofNat current
    let least : K := Quantity.ofNat leastTaskInput
    let most : K := Quantity.ofNat mostTaskInput
    let scaled :=
      if meanInput < least then size * (least / meanInput)
      else if most < meanInput then size / (meanInput / most)
      else size
    min (max (Quantity.floorWord scaled) 1) largestPartition

/-- The partition size in effect, in MiB. -/
def partitionInEffect (K : Type) [Quantity K] (l : Ledger) : Nat :=
  (((l.getOrDefault? Key.maxPartitionBytes).bind (Size.mib? K .byte)).filter (0 < ·)).getD
    defaultPartition

/-- Sets the size of input partitions. -/
def maxPartitionBytes (ctx : Context K) (s : State) : State :=
  let current := partitionInEffect K s.ledger
  let meanInput := ctx.app.meanInputBytes / (Quantity.ofNat 1024 * Quantity.ofNat 1024)
  let target := ctx.tool.partitionMib ctx.app current (scaledPartition current meanInput)
  if meanInput ≤ Quantity.ofNat 0 ∧ target.comment = none then s
  else
    let ops := s.ledger.suggest Key.maxPartitionBytes (.text (Size.ofMib target.value))
    if ops ≠ [] ∧ s.ledger.accepts Key.maxPartitionBytes then
      s.write (ops ++ target.comment.toList.map (.remark Key.maxPartitionBytes))
    else s.write ops

/-- The number of shuffle partitions in effect. -/
def shufflePartitionsInEffect (l : Ledger) : Nat :=
  (((l.getOrDefault? Key.shufflePartitions).bind fun v => readCount64? (trimmed v)).filter
    (0 < ·)).getD defaultShufflePartitions

/-- The number of shuffle partitions that suits the spilling. More of them do not help against
skew. -/
def spillBased (app : AppSummary K) (current : Nat) : Tool.Adjustment :=
  if app.spillStages = [] then ⟨current, none⟩
  else if app.spillStages.any app.skewStages.contains then ⟨current, some skewComment⟩
  else ⟨cappedMul64 current spillFactor, some spillComment⟩

/-- What is written about a number of shuffle partitions. -/
def shufflePartitionOps (current : Nat) (base target : Tool.Adjustment) : List Ledger.Op :=
  (if target.value = current then []
    else (Computed.count (signed64 target.value)).text?.toList.map
      (.recommend Key.shufflePartitions)) ++
    (base.comment.toList ++ target.comment.toList).map (.remark Key.shufflePartitions)

/-- Sets the number of shuffle partitions. -/
def shufflePartitions (ctx : Context K) (s : State) : State :=
  if s.ledger.isComputable Key.shufflePartitions then
    let current := shufflePartitionsInEffect s.ledger
    let base := spillBased ctx.app current
    let target := ctx.tool.shufflePartitions ctx.app current base.value
    s.write (shufflePartitionOps current base target)
  else s.write (s.ledger.suggestDefault Key.shufflePartitions)

end SparkTuner.Rules
