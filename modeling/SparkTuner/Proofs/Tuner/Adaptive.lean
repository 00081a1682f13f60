import SparkTuner.Proofs.Rules.Adaptive
import SparkTuner.Proofs.Tuner.Cores

/-!
# Adaptive execution in a run

What a run recommends for adaptive execution fits the version of the engine and what it recommends
for the shuffle partitions (`adaptive_execution_fits`). The rule of the shuffle partitions runs
before, and no rule after it writes about them, so that adaptive execution finds what is reported.
-/

namespace SparkTuner

open Ledger Number Text

namespace Tuner

variable {K : Type} [Quantity K] {t : Tuner K} {r : Recommendations} {key value : String}

/-- The rules recommend the value: the report shows it, and it is none of the user's. -/
def Advises (t : Tuner K) (r : Recommendations) (key value : String) : Prop :=
  t.enforced.get? key = none ∧ r.chosen? key = some value

/-- The partitions to start from that the source or the default gives are few, or no number. -/
def StartsFromFew (t : Tuner K) : Prop :=
  ∀ value n, (t.source.get? Key.aqeInitialPartitionNum).or
      (defaultValue? Key.aqeInitialPartitionNum) = some value →
    readCount64? (trimmed value) = some n → n ≤ 200

/-- Many shuffle partitions are recommended or given by the user. -/
def ShufflesMany (r : Recommendations) : Prop :=
  ∃ value n, r.chosen? Key.shufflePartitions = some value ∧ readCount64? value = some n ∧ 2000 ≤ n

/-! ## What adaptive execution finds -/

theorem not_mem_skip_of_chosen? (h : t.final.ledger.finish.chosen? key = some value) :
    key ∉ t.policy.skip := by
  intro hskip
  have hshown := value?_of_chosen? ((chosen?_finish _ _).symm.trans h)
  rw [value?_of_skipped hskip] at hshown
  cases hshown

/-- The keys that adaptive execution alone writes about. -/
theorem adaptive_alone :
    ∀ k ∈ [Key.aqeMinPartitionSize, Key.aqeMinPartitionNum, Key.aqeParallelismFirst,
      Key.aqeInitialPartitionNum], k ∉ Rule.keys .executor ∧
      (∀ r ∈ (Rule.all.drop 3).take 8, k ∉ r.keys) ∧
      ∀ r ∈ (Rule.all.drop 3).drop 9, k ∉ r.keys := by
  decide

theorem final_chosen?_eq (hkey : key ∈ [Key.aqeMinPartitionSize, Key.aqeMinPartitionNum,
      Key.aqeParallelismFirst, Key.aqeInitialPartitionNum]) :
    t.final.ledger.finish.chosen? key =
      ((Rules.adaptive t.context (t.stage (3 + 8))).ledger.account key).chosen? := by
  have hrule : t.stage (3 + 9) = Rules.adaptive t.context (t.stage (3 + 8)) :=
    t.stage_succ (r := .adaptive) rfl
  obtain ⟨-, -, hafter⟩ := adaptive_alone key hkey
  rw [chosen?_finish, t.account_final_of_unwritten hafter, hrule]

theorem untouched_adaptive (hkey : key ∈ [Key.aqeMinPartitionSize, Key.aqeMinPartitionNum,
      Key.aqeParallelismFirst, Key.aqeInitialPartitionNum]) (hfree : t.enforced.get? key = none) :
    ((t.stage (3 + 8)).ledger.account key).IsUntouched
      ((t.stage (3 + 8)).ledger.freshEntry key) := by
  obtain ⟨hexecutor, hbefore, -⟩ := adaptive_alone key hkey
  exact t.untouched_stage hexecutor hbefore hfree

/-- Of the shuffle partitions it finds what is reported. -/
theorem recommendedShufflePartitions_lt_iff (t : Tuner K) :
    Rules.recommendedShufflePartitions (t.stage (3 + 8)).ledger < Rules.manyInitialPartitions ↔
      ¬ShufflesMany t.final.ledger.finish := by
  have haccount : t.final.ledger.account Key.shufflePartitions =
      (t.stage (3 + 8)).ledger.account Key.shufflePartitions :=
    t.account_final_of_unwritten (by decide)
  rw [ShufflesMany, chosen?_finish, haccount, Rules.recommendedShufflePartitions]
  constructor
  · rintro hfew ⟨value, n, hvalue, hn, hmany⟩
    have hplaceholder : value ≠ placeholder := by
      rintro rfl
      have hnone : readCount64? placeholder = none := by decide
      cases hnone.symm.trans hn
    rw [recommended?_of_chosen? hvalue hplaceholder, Option.bind_some, hn, Option.getD_some] at hfew
    exact absurd hfew (Nat.not_lt.2 hmany)
  · intro hfew
    cases hvalue : (t.stage (3 + 8)).ledger.recommended? Key.shufflePartitions with
    | none => decide
    | some value =>
      rw [Option.bind_some]
      cases hn : readCount64? value with
      | none => decide
      | some n =>
        exact Nat.lt_of_not_le fun hmany =>
          hfew ⟨value, n, chosen?_of_recommended? hvalue, hn, hmany⟩

theorem initialPartitionsInEffect_le_iff
    (hfree : t.enforced.get? Key.aqeInitialPartitionNum = none) :
    Rules.initialPartitionsInEffect (t.stage (3 + 8)).ledger ≤ Rules.fewInitialPartitions ↔
      t.StartsFromFew := by
  have hread := get?_of_isUntouched (untouched_adaptive (by simp) hfree)
  rw [t.source_stage] at hread
  rw [Rules.initialPartitionsInEffect, getOrDefault?, hread, StartsFromFew]
  cases (t.source.get? Key.aqeInitialPartitionNum).or
      (defaultValue? Key.aqeInitialPartitionNum) with
  | none => simp
  | some value =>
    rw [Option.bind_some]
    constructor
    · rintro hfew _ n ⟨⟩ hn
      rwa [hn, Option.getD_some] at hfew
    · intro hfew
      cases hn : readCount64? (trimmed value) with
      | none => exact Nat.le_refl _
      | some n => exact hfew value n rfl hn

/-! ## What it makes of it -/

/-- A version that merges partitions in one way gets no recommendation for the other. -/
theorem merging_of_advises {m : Coalescing}
    (h : t.Advises t.final.ledger.finish (Rules.mergingKey m) value) :
    ∃ v, t.context.engine = some v ∧ v.coalescing = m := by
  obtain ⟨hfree, hchosen⟩ := h
  have hkeys : ∀ m, Rules.mergingKey m ∉ [Key.aqeEnabled, Key.databricksAutoOptimizeShuffle] ∧
      Rules.mergingKey m ∉ Rules.laterAdaptiveKeys ∧
      Rules.mergingKey m ∈ [Key.aqeMinPartitionSize, Key.aqeMinPartitionNum,
        Key.aqeParallelismFirst, Key.aqeInitialPartitionNum] := by
    intro m
    cases m <;> decide
  obtain ⟨hswitches, hlater, hkey⟩ := hkeys m
  have huntouched := untouched_adaptive hkey hfree
  rw [final_chosen?_eq hkey,
    (Rules.adaptive_reaches_after t.context _).account_of_not_mem hlater] at hchosen
  by_contra hother
  have hunwritten : Rules.mergingKey m ∉
      (t.context.engine.map (Rules.mergingKey ·.coalescing)).toList := by
    intro hmem
    obtain ⟨v, hv, hsame⟩ := Option.map_eq_some_iff.1 (Option.mem_toList.1 hmem)
    exact hother ⟨v, hv, Rules.mergingKey_injective _ _ hsame⟩
  rw [(Rules.coalescing_reaches_merging t.context _).account_of_not_mem hunwritten,
    (Rules.switches_reach t.context _).account_of_not_mem hswitches,
    huntouched.chosen? rfl] at hchosen
  cases hchosen

theorem computes_partitionSize (t : Tuner K) :
    t.Computes t.final.ledger.finish Key.aqeMinPartitionSize
      (if t.context.engine.map EngineVersion.coalescing = some .bySize ∧
        t.source.get? Key.aqeMinPartitionSize = none then some "4m" else none) := by
  have hkeys : Key.aqeMinPartitionSize ∉ [Key.aqeEnabled, Key.databricksAutoOptimizeShuffle] ∧
      Key.aqeMinPartitionSize ∉ Rules.laterAdaptiveKeys := by
    decide
  refine computes_of fun hfree hskip hlimited => ?_
  have hchosen := @final_chosen?_eq _ _ t Key.aqeMinPartitionSize (by simp)
  obtain ⟨huntouched, hskip', hlimited'⟩ :=
    t.ready_stage (n := 8) (by decide) (by decide) hfree hskip hlimited
  have hreach := Rules.switches_reach t.context (t.stage (3 + 8))
  rw [← chosen?_finish, hchosen,
    (Rules.adaptive_reaches_after t.context _).account_of_not_mem hkeys.2,
    Rules.chosen?_coalescing_size, hreach.source, t.source_stage]
  · rw [hreach.account_of_not_mem hkeys.1, hreach.freshEntry]
    exact huntouched
  · rw [isSkipped, hreach.policy]
    exact hskip'
  · rw [isComputable, hreach.policy]
    exact hlimited'

theorem chosen?_initial_iff (hfree : t.enforced.get? Key.aqeInitialPartitionNum = none)
    (hskip : Key.aqeInitialPartitionNum ∉ t.policy.skip)
    (hlimited : Key.aqeInitialPartitionNum ∉ t.policy.limited) :
    t.final.ledger.finish.chosen? Key.aqeInitialPartitionNum = some "2000" ↔
      Rules.ReadsMuch t.context ∧ t.StartsFromFew ∧ ¬ShufflesMany t.final.ledger.finish := by
  obtain ⟨huntouched, hskip', hlimited'⟩ :=
    t.ready_stage (n := 8) (by decide) (by decide) hfree hskip hlimited
  rw [final_chosen?_eq (by simp), Rules.chosen?_adaptive_initial huntouched hskip' hlimited',
    ← initialPartitionsInEffect_le_iff hfree, ← recommendedShufflePartitions_lt_iff]
  simp

/-- A number that the rules recommend for the shuffle partitions can be read. -/
theorem exists_readCount64?_of_advises
    (h : t.Advises t.final.ledger.finish Key.shufflePartitions value) :
    ∃ n, readCount64? value = some n := by
  obtain ⟨hfree, hchosen⟩ := h
  have hrule : t.stage (3 + 6) = Rules.shufflePartitions t.context (t.stage (3 + 5)) :=
    t.stage_succ (r := .shufflePartitions) rfl
  rw [chosen?_finish, t.account_final_of_unwritten (n := 6) (by decide), hrule] at hchosen
  exact Rules.exists_readCount64?_of_chosen?
    (t.untouched_stage (by decide) (by decide) hfree) hchosen

/-- What is recommended for adaptive execution fits the engine and the shuffle partitions. -/
structure Adapts (t : Tuner K) (r : Recommendations) : Prop where
  /-- A way of merging partitions is recommended only to versions that merge so. -/
  merging : ∀ m value, t.Advises r (Rules.mergingKey m) value →
    ∃ v, t.context.engine = some v ∧ (m = .bySize ↔ v.triple.IsFrom32)
  oneWay : ∀ value value', ¬(t.Advises r Key.aqeMinPartitionSize value ∧
    t.Advises r Key.aqeMinPartitionNum value')
  /-- Versions from 3.2.0 on are told a size, unless the source does. -/
  size : ∀ v, t.context.engine = some v → v.triple.IsFrom32 →
    t.source.get? Key.aqeMinPartitionSize = none →
    t.Computes r Key.aqeMinPartitionSize (some "4m")
  /-- Earlier versions are told a number, if the layout is known. -/
  count : ∀ v shape, t.context.engine = some v → ¬v.triple.IsFrom32 →
    t.context.shape = some shape →
    t.Computes r Key.aqeMinPartitionNum
      (some (Nat.repr (min (shape.numWorkers * shape.gpuCount * t.cores) max32)))
  /-- Many partitions to start from replace few ones, and go with no more for the shuffles. -/
  started : t.Advises r Key.aqeInitialPartitionNum "2000" →
    Key.aqeInitialPartitionNum ∉ t.policy.limited →
    t.StartsFromFew ∧ ¬ShufflesMany r ∧
      (Key.aqeParallelismFirst ∉ t.policy.skip → t.enforced.get? Key.aqeParallelismFirst = none →
        r.chosen? Key.aqeParallelismFirst = some "false") ∧
      ∀ value, t.Advises r Key.shufflePartitions value →
        ∃ n, readCount64? value = some n ∧ n < 2000
  /-- Applications that read much start from many partitions if those would be few. -/
  starts : t.app.isInfoAvailable = true → Quantity.ofNat 35000 < t.app.meanInputBytes →
    Quantity.ofNat 50000 < t.app.meanShuffleReadBytes →
    Key.aqeInitialPartitionNum ∉ t.policy.skip →
    t.enforced.get? Key.aqeInitialPartitionNum = none →
    Key.aqeInitialPartitionNum ∉ t.policy.limited → t.StartsFromFew →
    t.Advises r Key.aqeInitialPartitionNum "2000" ∨ ShufflesMany r

end Tuner

/-- Whatever a run recommends for adaptive execution fits the version of the engine and the shuffle
partitions. -/
theorem adaptive_execution_fits {K : Type} [Quantity K] {t : Tuner K} {r : Recommendations}
    (hrun : t.recommend? = some r) : t.Adapts r := by
  obtain ⟨-, rfl⟩ := Tuner.of_recommend? hrun
  have hmerging : ∀ m value, t.Advises t.final.ledger.finish (Rules.mergingKey m) value →
      ∃ v, t.context.engine = some v ∧ (m = .bySize ↔ v.triple.IsFrom32) := by
    intro m value h
    obtain ⟨v, hv, rfl⟩ := Tuner.merging_of_advises h
    exact ⟨v, hv, v.coalescing_eq_bySize_iff⟩
  constructor
  case merging => exact hmerging
  case oneWay =>
    rintro value value' ⟨hsize, hcount⟩
    obtain ⟨v, hv, hfrom⟩ := hmerging .bySize value hsize
    obtain ⟨v', hv', hbefore⟩ := hmerging .byCount value' hcount
    obtain rfl : v = v' := Option.some.inj (hv.symm.trans hv')
    cases hbefore.2 (hfrom.1 rfl)
  case size =>
    intro v hv hfrom hsource
    have hcomputes := t.computes_partitionSize
    rwa [if_pos ⟨by rw [hv, Option.map_some, v.coalescing_eq_bySize_iff.2 hfrom], hsource⟩]
      at hcomputes
  case count =>
    intro v shape hv hbefore hshape
    have hcomputes := t.computes_partitionCount
    have hmerges : v.coalescing = .byCount := by
      cases h : v.coalescing with
      | bySize => exact absurd (v.coalescing_eq_bySize_iff.1 h) hbefore
      | byCount => rfl
    rwa [Rules.partitionCount?, hv, hshape, Option.map_some, hmerges, Option.map_some]
      at hcomputes
  case started =>
    rintro ⟨hfree, hchosen⟩ hlimited
    have hskip := Tuner.not_mem_skip_of_chosen? hchosen
    obtain ⟨hmuch, hfew, hshuffle⟩ := (Tuner.chosen?_initial_iff hfree hskip hlimited).1 hchosen
    refine ⟨hfew, hshuffle, fun hskip' hfree' => ?_, fun value hadvised => ?_⟩
    · rw [Tuner.final_chosen?_eq (by simp)]
      exact Rules.chosen?_adaptive_parallelism (Tuner.untouched_adaptive (by simp) hfree')
        (Tuner.isSkipped_of_policy (t.policy_stage _) hskip') hmuch
    · obtain ⟨n, hn⟩ := Tuner.exists_readCount64?_of_advises hadvised
      exact ⟨n, hn, Nat.lt_of_not_le fun hmany => hshuffle ⟨value, n, hadvised.2, hn, hmany⟩⟩
  case starts =>
    intro hinfo hinput hread hskip hfree hlimited hfew
    by_cases hshuffle : Tuner.ShufflesMany t.final.ledger.finish
    · exact Or.inr hshuffle
    · exact Or.inl ⟨hfree, (Tuner.chosen?_initial_iff hfree hskip hlimited).2
        ⟨⟨hinfo, hinput, hread⟩, hfew, hshuffle⟩⟩

/-- A tuner for an application that reads and shuffles much, on an engine of this version. -/
def Tuner.ofMuch (version shufflePartitions : String) : Tuner ℚ where
  app :=
    { AppSummary.blank with
      sparkVersion := some version
      meanInputBytes := 40000
      meanShuffleReadBytes := 60000
      spillStages := [1]
      properties := KeyMap.ofList [(Key.shufflePartitions, shufflePartitions)] }
  driverLog := none
  platform := .dataproc
  tool := default
  strategy := default
  cluster :=
    { system := some { numCores := some 16, memory := some "96g", numWorkers := some 2 } }
  worker := none
  enforced := .empty
  policy := {}
  latest := .notChecked
  diagnostics := []

/-- Twice the shuffle partitions are still fewer than those to start from. -/
theorem doubledShuffle_fits :
    let t := Tuner.ofMuch "3.1.1-amzn-0" "999"
    let r := t.final.ledger.finish
    t.recommend? = some r ∧ t.Advises r Key.shufflePartitions "1998" ∧
      t.Advises r Key.aqeInitialPartitionNum "2000" ∧ t.Advises r Key.aqeMinPartitionNum "32" ∧
      t.Adapts r := by
  intro t r
  obtain ⟨hwords, hshuffle, hinitial, hcount⟩ : t.final.staysInWords = true ∧
      r.chosen? Key.shufflePartitions = some "1998" ∧
      r.chosen? Key.aqeInitialPartitionNum = some "2000" ∧
      r.chosen? Key.aqeMinPartitionNum = some "32" := by
    decide +kernel
  have hrun : t.recommend? = some r := if_pos hwords
  exact ⟨hrun, ⟨rfl, hshuffle⟩, ⟨rfl, hinitial⟩, ⟨rfl, hcount⟩, adaptive_execution_fits hrun⟩

end SparkTuner
