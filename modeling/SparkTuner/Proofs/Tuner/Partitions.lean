import SparkTuner.Proofs.Rules.Adaptive
import SparkTuner.Proofs.Rules.InputPartitions
import SparkTuner.Proofs.Tuner.Cores

/-!
# Input partitions after a GPU ran out of memory

The profiling tool reacts to GPUs that ran out of memory while they scanned. It then recommends at
most half of the partition size in effect (`partitions_shrink_after_gpu_oom`), but for sizes of less
than a MiB, which count as sizes that cannot be read. The largest size is kept for every input that
has statistics, and without them for sizes up to twice of it.
-/

namespace SparkTuner

open Ledger Number

namespace Tuner

variable {K : Type} [Quantity K] {t : Tuner K}

/-- The whole MiB of the partition size that the source or the default gives. -/
def partitionMib (t : Tuner K) : ℕ :=
  (((t.source.get? Key.maxPartitionBytes).or (defaultValue? Key.maxPartitionBytes)).bind
    (Size.mib? K .byte)).getD Rules.defaultPartition

/-- In binary and in exact arithmetic the default is the size that stands for unreadable ones. -/
example : Size.mib? Float .byte "512m" = some Rules.defaultPartition ∧
    Size.mib? ℚ .byte "512m" = some Rules.defaultPartition := by
  decide +kernel

/-- The rule finds this size, or the one for unreadable sizes if no whole MiB is left of it. -/
theorem partitionInEffect_stage (hfree : t.enforced.get? Key.maxPartitionBytes = none) :
    Rules.partitionInEffect K (t.stage (3 + 4)).ledger =
      if t.partitionMib = 0 then Rules.defaultPartition else t.partitionMib := by
  have huntouched := t.untouched_stage (n := 4) (by decide) (by decide) hfree
  have hread := get?_of_isUntouched huntouched
  rw [t.source_stage] at hread
  rw [Rules.partitionInEffect, getOrDefault?, hread, partitionMib]
  cases ((t.source.get? Key.maxPartitionBytes).or (defaultValue? Key.maxPartitionBytes)).bind
      (Size.mib? K .byte) with
  | none => rfl
  | some mib =>
    rw [Option.getD_some]
    by_cases hzero : mib = 0
    · rw [if_pos hzero, hzero]
      rfl
    · have hkept : (some mib).filter (0 < ·) = some mib :=
        Option.filter_some_pos (decide_eq_true (Nat.pos_of_ne_zero hzero))
      rw [if_neg hzero, hkept, Option.getD_some]

/-- After a GPU ran out of memory the rule recommends the shrunk size, and no later one another. -/
theorem chosen?_maxPartitionBytes (htool : t.tool = .profiling) (hoom : t.app.gpuOomStages ≠ [])
    (hfree : t.enforced.get? Key.maxPartitionBytes = none)
    (hskip : Key.maxPartitionBytes ∉ t.policy.skip)
    (hlimited : Key.maxPartitionBytes ∉ t.policy.limited) :
    t.final.ledger.finish.chosen? Key.maxPartitionBytes =
      some (Size.ofMib (Rules.shrunkPartition t.app
        (Rules.partitionInEffect K (t.stage (3 + 4)).ledger))) := by
  obtain ⟨huntouched, hskip', hlimited'⟩ :=
    t.ready_stage (n := 4) (by decide) (by decide) hfree hskip hlimited
  have hready := IsFree.of_isUntouched huntouched hskip' hlimited'
  have hrule : t.stage (3 + 5) = Rules.maxPartitionBytes t.context (t.stage (3 + 4)) :=
    t.stage_succ (r := .maxPartitionBytes) rfl
  have htool' : t.context.tool = .profiling := htool
  obtain ⟨comment, hledger⟩ := Rules.exists_ledger_maxPartitionBytes hready htool' hoom
  rw [chosen?_finish, t.account_final_of_unwritten (n := 5) (by decide), hrule, hledger,
    account_sayAll]
  exact chosen?_of_recommended? (hready.takes.recommended?_recommend _)

/-- A partition size in MiB that a GPU out of memory leads to. -/
structure ShrinksTo (t : Tuner K) (v : ℕ) : Prop where
  positive : 1 ≤ v
  /-- Only without statistics of the input a size may be above the largest one. -/
  capped : v ≤ 4096 ↔ ¬(Rules.meanInputMib t.app ≤ Quantity.ofNat 0 ∧ 8194 ≤ t.partitionMib)
  halved : 1 ≤ t.partitionMib → v ≤ max (t.partitionMib / 2) 1
  /-- A size of less than a MiB counts as one that cannot be read. -/
  tiny : t.partitionMib = 0 → v = Rules.shrunkPartition t.app 512

theorem shrinksTo_shrunkPartition (t : Tuner K) :
    t.ShrinksTo (Rules.shrunkPartition t.app
      (if t.partitionMib = 0 then Rules.defaultPartition else t.partitionMib)) := by
  have hunread : (1 : ℕ) ≤ Rules.defaultPartition ∧ ¬8194 ≤ Rules.defaultPartition := by decide
  by_cases hzero : t.partitionMib = 0
  · rw [if_pos hzero]
    constructor
    case positive => exact (Rules.shrunkPartition_bounds _ hunread.1).1
    case capped =>
      rw [Rules.shrunkPartition_le_iff _ hunread.1, hzero]
      simp [hunread.2]
    case halved =>
      intro hpos
      omega
    case tiny => exact fun _ => rfl
  · have hpos : 1 ≤ t.partitionMib := Nat.pos_of_ne_zero hzero
    obtain ⟨hpositive, hhalved⟩ := Rules.shrunkPartition_bounds t.app hpos
    rw [if_neg hzero]
    exact ⟨hpositive, Rules.shrunkPartition_le_iff _ hpos, fun _ => hhalved,
      fun h => absurd h hzero⟩

end Tuner

/-- After a GPU ran out of memory a run of the profiling tool recommends a smaller partition size,
at most the largest one, unless statistics are missing or the size in effect is less than a MiB. -/
theorem partitions_shrink_after_gpu_oom {K : Type} [Quantity K] {t : Tuner K} {r : Recommendations}
    (hrun : t.recommend? = some r) (htool : t.tool = .profiling) (hoom : t.app.gpuOomStages ≠ [])
    (hfree : t.enforced.get? Key.maxPartitionBytes = none)
    (hskip : Key.maxPartitionBytes ∉ t.policy.skip)
    (hlimited : Key.maxPartitionBytes ∉ t.policy.limited) :
    ∃ v, r.chosen? Key.maxPartitionBytes = some (Size.ofMib v) ∧ t.ShrinksTo v := by
  obtain ⟨-, rfl⟩ := Tuner.of_recommend? hrun
  have hchosen := Tuner.chosen?_maxPartitionBytes htool hoom hfree hskip hlimited
  rw [Tuner.partitionInEffect_stage hfree] at hchosen
  exact ⟨_, hchosen, t.shrinksTo_shrunkPartition⟩

/-- A tuner for an application without statistics, after a GPU ran out of memory. -/
def Tuner.ofGpuOom (partitionSize : String) : Tuner Float where
  app :=
    { AppSummary.blank with
      gpuOomStages := [1]
      properties := KeyMap.ofList [(Key.maxPartitionBytes, partitionSize)] }
  driverLog := none
  platform := .onPrem
  tool := .profiling
  strategy := default
  cluster := {}
  worker := none
  enforced := .empty
  policy := {}
  latest := .notChecked
  diagnostics := []

theorem largePartition_shrinks :
    let t := Tuner.ofGpuOom "8193m"
    let r := t.final.ledger.finish
    t.recommend? = some r ∧ t.tool = .profiling ∧ t.app.gpuOomStages ≠ [] ∧ t.partitionMib = 8193 ∧
      r.chosen? Key.maxPartitionBytes = some "4096m" ∧
      ∃ v, r.chosen? Key.maxPartitionBytes = some (Size.ofMib v) ∧ t.ShrinksTo v := by
  intro t r
  obtain ⟨hwords, hsize, hvalue⟩ : t.final.staysInWords = true ∧ t.partitionMib = 8193 ∧
      r.chosen? Key.maxPartitionBytes = some "4096m" := by
    decide +kernel
  have hrun : t.recommend? = some r := if_pos hwords
  have hoom : t.app.gpuOomStages ≠ [] := List.cons_ne_nil _ _
  exact ⟨hrun, rfl, hoom, hsize, hvalue,
    partitions_shrink_after_gpu_oom hrun rfl hoom rfl List.not_mem_nil List.not_mem_nil⟩

/-- A size of half a MiB is raised to 256 MiB, and one of 16 GiB is left above the largest one. -/
theorem smallPartition_grows :
    (Tuner.ofGpuOom "512k").final.staysInWords = true ∧
      (Tuner.ofGpuOom "512k").final.ledger.finish.chosen? Key.maxPartitionBytes = some "256m" ∧
      (Tuner.ofGpuOom "16g").final.staysInWords = true ∧
      (Tuner.ofGpuOom "16g").final.ledger.finish.chosen? Key.maxPartitionBytes = some "8192m" := by
  decide +kernel

end SparkTuner
