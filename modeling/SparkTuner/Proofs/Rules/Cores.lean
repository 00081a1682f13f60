import SparkTuner.Proofs.Rules.Enforced
import SparkTuner.Proofs.Rules.Executor

/-!
# What follows from the cores of an executor

Four places go by the number of cores: the share of a GPU that a task gets, the request for memory,
the partitions that keep every core busy, and the thread pools. Each of them looks the number up
again, in the ledger as it is by then (`Context.executorCores`). What is looked up depends on one
key alone, which nothing but the first suggestion for the layout writes about.
-/

namespace SparkTuner

open Ledger Number Text

variable {K : Type} [Quantity K] {ctx : Context K} {s : State} {key : String} {shape : Shape}

/-! ## Reading the number of cores -/

namespace Context

omit [Quantity K] in
theorem executorCores_congr {l m : Ledger}
    (haccount : l.account Key.executorCores = m.account Key.executorCores)
    (hsource : l.source = m.source) : ctx.executorCores l = ctx.executorCores m := by
  rw [executorCores, executorCores, Rules.get?_congr haccount hsource]

omit [Quantity K] in
/-- The number is positive, if the layout knows no other. -/
theorem executorCores_pos (l : Ledger)
    (h : ∀ shape, ctx.shape = some shape → 1 ≤ shape.coresPerExecutor) :
    1 ≤ ctx.executorCores l := by
  unfold executorCores
  split
  next cores hcores =>
    obtain ⟨-, hpos⟩ := Option.filter_eq_some_iff.1 hcores
    exact of_decide_eq_true hpos
  next =>
    cases hshape : ctx.shape with
    | none => decide
    | some shape => exact h shape hshape

omit [Quantity K] in
theorem executorCores_of_get? {l : Ledger} {value : String} {n : ℕ}
    (hvalue : l.get? Key.executorCores = some value) (hread : readCount32? (trimmed value) = some n)
    (hpos : 0 < n) : ctx.executorCores l = n := by
  have hfilter : (some n).filter (0 < ·) = some n := Option.filter_some_pos (by simpa using hpos)
  rw [executorCores, hvalue, Option.bind_some, hread, hfilter]

end Context

namespace Rules

/-! ## The layout -/

/-- The first settings of a layout. -/
def layoutCounts (shape : Shape) : List (String × Computed) :=
  [(Key.executorCores, .count shape.coresPerExecutor),
    (Key.executorInstances, .count shape.numExecutors)]

/-- The share of a GPU that each of so many tasks gets. -/
def gpuShare (K : Type) [Quantity K] (cores : ℕ) : Exact :=
  Quantity.exact (Quantity.ofNat 1 / Quantity.ofNat cores : K)

/-- The settings of a layout that go by the cores or follow those that do. -/
def layoutShares (K : Type) [Quantity K] (shape : Shape) (cores : ℕ) : List (String × Computed) :=
  [(Key.taskGpuAmount, .fraction (gpuShare K cores)),
    (Key.concurrentGpuTasks, .count (gpuTasks shape.gpuMemoryMib)),
    (Key.batchSizeBytes, .text batchSize)]

theorem executorLayout_eq (ctx : Context K) (shape : Shape) (s : State) :
    executorLayout ctx shape s = (s.suggestAll (layoutCounts shape)).suggestAll
      (layoutShares K shape (ctx.executorCores (s.suggestAll (layoutCounts shape)).ledger)) := rfl

/-- The cores that the share goes by are still those of the finished layout. -/
theorem executorCores_layoutCounts (ctx : Context K) (shape : Shape) (s : State) :
    ctx.executorCores (s.suggestAll (layoutCounts shape)).ledger =
      ctx.executorCores (executorLayout ctx shape s).ledger := by
  have hkey : Key.executorCores ∉
      [Key.taskGpuAmount, Key.concurrentGpuTasks, Key.batchSizeBytes] := by
    decide
  rw [executorLayout_eq]
  refine Context.executorCores_congr (State.account_suggestAll hkey).symm ?_
  exact (State.suggestAll_reaches _ _).source.symm

/-- What the user left free of the settings that follow from the cores shows its value. -/
theorem chosen?_executorLayout {value : Computed} {cores : ℕ}
    (hcores : ctx.executorCores (executorLayout ctx shape s).ledger = cores)
    (hmem : (key, value) ∈ layoutShares K shape cores)
    (huntouched : (s.ledger.account key).IsUntouched (s.ledger.freshEntry key))
    (hskip : s.ledger.isSkipped key = false) (hlimited : s.ledger.isComputable key = true) :
    ((executorLayout ctx shape s).ledger.account key).chosen? = value.text? := by
  have hnodup : [Key.taskGpuAmount, Key.concurrentGpuTasks, Key.batchSizeBytes].Nodup := by
    decide
  have happart : ∀ k ∈ [Key.taskGpuAmount, Key.concurrentGpuTasks, Key.batchSizeBytes],
      k ∉ [Key.executorCores, Key.executorInstances] := by
    decide
  have hkey : key ∉ (layoutCounts shape).map Prod.fst :=
    happart key (List.mem_map_of_mem (f := Prod.fst) hmem)
  have hcounts := State.suggestAll_reaches (layoutCounts shape) s
  rw [executorLayout_eq, executorCores_layoutCounts, hcores]
  refine State.chosen?_suggestAll hmem hnodup ?_ ?_ ?_
  · rw [State.account_suggestAll hkey, hcounts.freshEntry]
    exact huntouched
  · rw [isSkipped, hcounts.policy]
    exact hskip
  · rw [isComputable, hcounts.policy]
    exact hlimited

/-- The division of the memory leaves every key alone but the sizes. -/
theorem account_executorMemory (hkey : key ∉ Rule.planKeys) :
    (executorMemory ctx shape s).ledger.account key = s.ledger.account key := by
  unfold executorMemory
  split
  · rfl
  next container _ =>
    dsimp only
    split
    next plan _ =>
      exact (Rule.recommendPlan_reaches (State.admits_isAbout s _) (.refl s)
        plan).account_of_not_mem hkey
    next required _ =>
      exact State.account_reportShortfall shape required
        fun hmem => hkey (Rule.mem_planKeys_of_mem_memoryKeys hmem)

/-! ## Partitions -/

/-- The number of partitions, if the engine's version merges them by number. -/
def partitionCount? (ctx : Context K) (cores : ℕ) : Option ℕ :=
  match ctx.engine.map EngineVersion.coalescing, ctx.shape with
  | some .byCount, some shape => some (min (shape.numWorkers * shape.gpuCount * cores) max32)
  | _, _ => none

omit [Quantity K] in
/-- With a core at least it makes no difference where the product stops. -/
theorem busyPartitions_eq (l : Ledger) (h : 1 ≤ ctx.executorCores l) :
    busyPartitions ctx shape l =
      min (shape.numWorkers * shape.gpuCount * ctx.executorCores l) max32 := by
  unfold busyPartitions cappedMul32
  rcases Nat.le_total (shape.numWorkers * shape.gpuCount) max32 with hle | hle
  · rw [Nat.min_eq_left hle]
  · have hcapped : max32 ≤ max32 * ctx.executorCores l := Nat.le_mul_of_pos_right _ h
    have hproduct : max32 * ctx.executorCores l ≤
        shape.numWorkers * shape.gpuCount * ctx.executorCores l := Nat.mul_le_mul_right _ hle
    rw [Nat.min_eq_right hle, Nat.min_eq_right hcapped, Nat.min_eq_right (hcapped.trans hproduct)]

omit [Quantity K] in
theorem chosen?_coalescing (hcores : 1 ≤ ctx.executorCores s.ledger)
    (huntouched : (s.ledger.account Key.aqeMinPartitionNum).IsUntouched
      (s.ledger.freshEntry Key.aqeMinPartitionNum))
    (hskip : s.ledger.isSkipped Key.aqeMinPartitionNum = false)
    (hlimited : s.ledger.isComputable Key.aqeMinPartitionNum = true) :
    ((coalescing ctx s).ledger.account Key.aqeMinPartitionNum).chosen? =
      (partitionCount? ctx (ctx.executorCores s.ledger)).map Nat.repr := by
  have hnone : (s.ledger.account Key.aqeMinPartitionNum).chosen? = none := huntouched.chosen? rfl
  unfold coalescing partitionCount?
  cases ctx.engine.map EngineVersion.coalescing with
  | none => exact hnone
  | some merging =>
    cases merging with
    | bySize =>
      have hkey : Key.aqeMinPartitionNum ∉ [Key.aqeMinPartitionSize] := by decide
      have hsuggest : s.Reaches (State.IsAbout [Key.aqeMinPartitionSize])
          (s.suggest Key.aqeMinPartitionSize (.text "4m")) :=
        (State.Reaches.refl s).suggest fun _ => ⟨Key.aqeMinPartitionSize, by simp, rfl⟩
      have hreach := State.Reaches.ite (p := (s.ledger.get? Key.aqeMinPartitionSize).isSome)
        (.refl s) hsuggest
      exact (congrArg Account.chosen? (hreach.account_of_not_mem hkey)).trans hnone
    | byCount =>
      cases ctx.shape with
      | none => exact hnone
      | some shape =>
        dsimp only
        rw [State.chosen?_suggest huntouched hskip hlimited, busyPartitions_eq _ hcores]
        rfl

omit [Quantity K] in
/-- What is written before partitions are merged is about two other keys. -/
theorem switches_reach (ctx : Context K) (s : State) :
    s.Reaches (State.IsAbout [Key.aqeEnabled, Key.databricksAutoOptimizeShuffle])
      (switchOffAutoShuffle ctx (switchOnAdaptive s)) := by
  have hon : s.Reaches (State.IsAbout [Key.aqeEnabled, Key.databricksAutoOptimizeShuffle])
      (switchOnAdaptive s) :=
    .ite (.refl s) ((State.Reaches.refl s).write_one ⟨Key.aqeEnabled, by simp, rfl⟩)
  exact .ite (hon.write_one ⟨Key.databricksAutoOptimizeShuffle, by simp, rfl⟩) hon

/-- The keys that adaptive execution is set up with after partitions are merged. -/
def laterAdaptiveKeys : List String :=
  [Key.aqeAdvisoryPartitionSize, Key.aqeParallelismFirst, Key.aqeInitialPartitionNum,
    Key.aqeBroadcastThreshold]

/-- What adaptive execution is told after partitions are merged is about other keys as well. -/
theorem adaptive_reaches_after (ctx : Context K) (s : State) :
    (coalescing ctx (switchOffAutoShuffle ctx (switchOnAdaptive s))).Reaches
      (State.IsAbout laterAdaptiveKeys) (adaptive ctx s) := by
  let merged := coalescing ctx (switchOffAutoShuffle ctx (switchOnAdaptive s))
  have hadvisory : merged.Reaches (State.IsAbout laterAdaptiveKeys) (advisorySize ctx merged) :=
    .ite ((State.Reaches.refl merged).suggest
      fun _ => ⟨Key.aqeAdvisoryPartitionSize, by simp [laterAdaptiveKeys], rfl⟩) (.refl merged)
  have hfirst : merged.Reaches (State.IsAbout laterAdaptiveKeys)
      ((advisorySize ctx merged).write [.recommend Key.aqeParallelismFirst "false"]) :=
    hadvisory.write_one ⟨Key.aqeParallelismFirst, by simp [laterAdaptiveKeys], rfl⟩
  have hmuch : merged.Reaches (State.IsAbout laterAdaptiveKeys)
      (partitionsForMuch ctx (advisorySize ctx merged)) :=
    .ite (.ite (hfirst.suggest
      fun _ => ⟨Key.aqeInitialPartitionNum, by simp [laterAdaptiveKeys], rfl⟩) hfirst) hadvisory
  have hsizes : merged.Reaches (State.IsAbout laterAdaptiveKeys)
      (if ctx.app.isInfoAvailable then partitionsForMuch ctx (advisorySize ctx merged)
        else merged) := .ite hmuch (.refl merged)
  refine hsizes.trans (State.reaches_write fun op hop => ?_)
  obtain ⟨c, -, rfl⟩ := List.mem_map.1 hop
  exact ⟨Key.aqeBroadcastThreshold, by simp [laterAdaptiveKeys], rfl⟩

theorem chosen?_adaptive (hcores : 1 ≤ ctx.executorCores s.ledger)
    (huntouched : (s.ledger.account Key.aqeMinPartitionNum).IsUntouched
      (s.ledger.freshEntry Key.aqeMinPartitionNum))
    (hskip : s.ledger.isSkipped Key.aqeMinPartitionNum = false)
    (hlimited : s.ledger.isComputable Key.aqeMinPartitionNum = true) :
    ((adaptive ctx s).ledger.account Key.aqeMinPartitionNum).chosen? =
      (partitionCount? ctx (ctx.executorCores s.ledger)).map Nat.repr := by
  have hapart : Key.aqeMinPartitionNum ∉ [Key.aqeEnabled, Key.databricksAutoOptimizeShuffle] ∧
      Key.executorCores ∉ [Key.aqeEnabled, Key.databricksAutoOptimizeShuffle] ∧
      Key.aqeMinPartitionNum ∉ laterAdaptiveKeys := by
    decide
  obtain ⟨hnum, hcoresKey, hlater⟩ := hapart
  have hreach := switches_reach ctx s
  have hsame : ctx.executorCores (switchOffAutoShuffle ctx (switchOnAdaptive s)).ledger =
      ctx.executorCores s.ledger :=
    Context.executorCores_congr (hreach.account_of_not_mem hcoresKey) hreach.source
  rw [(adaptive_reaches_after ctx s).account_of_not_mem hlater, ← hsame]
  refine chosen?_coalescing (hsame ▸ hcores) ?_ ?_ ?_
  · rw [hreach.account_of_not_mem hnum, hreach.freshEntry]
    exact huntouched
  · rw [isSkipped, hreach.policy]
    exact hskip
  · rw [isComputable, hreach.policy]
    exact hlimited

/-! ## Threads -/

/-- The settings of the thread pools, and the bytes in flight where there is room for them. -/
def threadSettings (cores : ℕ) (isCloud hasRoom : Bool) : List (String × Computed) :=
  [(Key.shuffleReaderThreads, .text (Nat.repr cores)),
    (Key.shuffleWriterThreads, .text (Nat.repr cores)),
    (Key.multiThreadedReadThreads, .text (Nat.repr (readThreads cores isCloud)))] ++
  (if isCloud ∧ largeReaderCores ≤ cores then
    [(Key.readerCombineSize, .text (combineSize cores)), (Key.parquetCombineWait, .text "1000")]
  else []) ++
  if hasRoom then [(Key.shuffleMaxBytesInFlight, .text "4g")] else []

omit [Quantity K] in
theorem threads_eq (ctx : Context K) (s : State) :
    threads ctx s = s.suggestAll (threadSettings (ctx.executorCores s.ledger)
      ctx.platform.isCloud (hasInFlightRoom s.memory)) := by
  have hmemory := (Rule.threadPools_reaches (State.admits_isAbout s Rule.poolKeys)
    (ctx.executorCores s.ledger) ctx.platform.isCloud).memory
  unfold threads threadSettings
  dsimp only
  rw [hmemory]
  unfold threadPools
  by_cases hlarge : ctx.platform.isCloud ∧ largeReaderCores ≤ ctx.executorCores s.ledger
  · rw [if_pos hlarge, if_pos hlarge]
    cases hasInFlightRoom s.memory <;> rfl
  · rw [if_neg hlarge, if_neg hlarge]
    cases hasInFlightRoom s.memory <;> rfl

/-- Whichever of them are set, they are settings of the rule, in order. -/
theorem threadSettings_sublist (cores : ℕ) (isCloud hasRoom : Bool) :
    ((threadSettings cores isCloud hasRoom).map Prod.fst).Sublist (Rule.recommends .threads) := by
  have hsplit : Rule.recommends .threads =
      [Key.shuffleReaderThreads, Key.shuffleWriterThreads, Key.multiThreadedReadThreads] ++
        [Key.readerCombineSize, Key.parquetCombineWait] ++ [Key.shuffleMaxBytesInFlight] := rfl
  rw [hsplit, threadSettings, List.map_append, List.map_append]
  refine ((List.Sublist.refl _).append ?_).append ?_
  · split
    · exact .refl _
    · exact List.nil_sublist _
  · split
    · exact .refl _
    · exact List.nil_sublist _

omit [Quantity K] in
/-- What the user left free of the thread pools shows its value. -/
theorem chosen?_threads {text : String}
    (hmem : (key, .text text) ∈ threadSettings (ctx.executorCores s.ledger) ctx.platform.isCloud
      (hasInFlightRoom s.memory))
    (huntouched : (s.ledger.account key).IsUntouched (s.ledger.freshEntry key))
    (hskip : s.ledger.isSkipped key = false) (hlimited : s.ledger.isComputable key = true) :
    ((threads ctx s).ledger.account key).chosen? = some text := by
  have hnodup : (Rule.recommends .threads).Nodup := by decide
  rw [threads_eq]
  exact State.chosen?_suggestAll hmem (hnodup.sublist (threadSettings_sublist _ _ _)) huntouched
    hskip hlimited

end Rules

end SparkTuner
