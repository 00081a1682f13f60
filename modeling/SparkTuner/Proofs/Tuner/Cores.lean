import SparkTuner.Proofs.Cluster.Shape
import SparkTuner.Proofs.Rules.Cores
import SparkTuner.Proofs.Tuner.MemoryOutcome

/-!
# One number of cores for the whole run

The rules that go by the cores of an executor look the number up at different times. Between them no
rule writes about its key, so that all of them find the number that the last ledger has
(`Tuner.cores_stage`, `Tuner.cores_laidOut`), and what they make of it is what the report shows
wherever the user left a key to them.
-/

namespace SparkTuner

open Ledger Number Text

variable {K : Type} [Quantity K]

/-- A value that is shown is the one that rules go by, unless it is a placeholder. -/
theorem Ledger.get?_of_value? {l : Ledger} {key value : String}
    (h : l.finish.value? key = some value) (hvalue : value ≠ placeholder) :
    l.get? key = some value := by
  rw [Recommendations.value?, entries_finish] at h
  obtain ⟨e, he, hshown⟩ := Option.bind_eq_some_iff.1 h
  have hentry : l.entry? key = some e := (Option.filter_eq_some_iff.1 he).1
  obtain ⟨hskip, -, hcurrent⟩ := Entry.current?_of_rendered? hshown hvalue
  rw [Ledger.get?, hentry]
  dsimp only
  rw [hskip]
  exact hcurrent

/-- A plan has room for bytes in flight only on a cloud, for executors that are large enough. -/
theorem Memory.Request.large_of_inFlight {r : Memory.Request K} {plan : Memory.Plan}
    (h : r.budget = .planned plan) (hroom : plan.inFlight = true) :
    r.isCloud = true ∧ 16 ≤ r.cores := by
  obtain ⟨-, ⟨-, rfl⟩ | ⟨-, -, rfl⟩⟩ := planned_cases h
  · exact r.inFlight_only hroom
  · cases hroom

theorem Rules.le_readThreads {cores : ℕ} (h : 16 ≤ cores) : 40 ≤ Rules.readThreads cores true := by
  unfold Rules.readThreads
  rw [if_pos ⟨rfl, h⟩]
  exact Nat.le_max_left _ _

namespace Tuner

variable {t : Tuner K} {key : String} {shape : Shape}

/-! ## The number of cores -/

/-- The cores of an executor, as the last ledger has them. -/
def cores (t : Tuner K) : ℕ := t.context.executorCores t.final.ledger

theorem one_le_cores (t : Tuner K) : 1 ≤ t.cores :=
  Context.executorCores_pos _ fun _ hshape => (shape?_keeps t.worker hshape).1

/-- After the executors are sized every rule finds the same number. -/
theorem cores_stage (t : Tuner K) (n : ℕ) :
    t.context.executorCores (t.stage (3 + n)).ledger = t.cores := by
  have hlater : ∀ r ∈ Rule.all.drop 3, Key.executorCores ∉ r.keys := by decide
  refine Context.executorCores_congr ?_ ((t.source_stage _).trans t.source_final.symm)
  exact (t.account_stage hlater n).trans (t.account_final hlater).symm

/-- A key that is no size of the plan is as the layout left it. -/
theorem account_sized_of_shape (hshape : t.context.shape = some shape)
    (hkey : key ∉ Rule.planKeys) :
    t.sized.ledger.account key = (t.laidOut shape).account key := by
  rw [sized_eq, Rules.executor, hshape]
  exact Rules.account_executorMemory hkey

/-- The rule of the executors itself finds that number as well. -/
theorem cores_laidOut (hshape : t.context.shape = some shape) :
    t.context.executorCores (t.laidOut shape) = t.cores := by
  have hkey : Key.executorCores ∉ Rule.planKeys := by decide
  rw [← t.cores_stage 0]
  refine Context.executorCores_congr ?_ ((t.source_laidOut shape).trans (t.source_stage _).symm)
  exact (account_sized_of_shape hshape hkey).symm

/-! ## Keys that are left to the rules -/

/-- Where the user gives no value for the key and allows a computed one, the report shows this value
of the rules, but none for a key that is to be skipped. -/
def Computes (t : Tuner K) (r : Recommendations) (key : String) (value? : Option String) : Prop :=
  t.enforced.get? key = none → key ∉ t.policy.limited →
    r.chosen? key = if key ∈ t.policy.skip then none else value?

theorem computes_of {value? : Option String}
    (h : t.enforced.get? key = none → key ∉ t.policy.skip → key ∉ t.policy.limited →
      (t.final.ledger.account key).chosen? = value?) :
    t.Computes t.final.ledger.finish key value? := by
  intro hfree hlimited
  split
  next hskip =>
    refine Option.eq_none_iff_forall_ne_some.2 fun value hvalue => ?_
    rw [chosen?_finish] at hvalue
    have hshown := value?_of_chosen? hvalue
    rw [value?_of_skipped hskip] at hshown
    cases hshown
  next hskip =>
    rw [chosen?_finish]
    exact h hfree hskip hlimited

/-- A key that no rule has written about so far is as it was opened. -/
theorem untouched_stage (t : Tuner K) {n : ℕ} (hexecutor : key ∉ Rule.keys .executor)
    (hbefore : ∀ r ∈ (Rule.all.drop 3).take n, key ∉ r.keys)
    (hfree : t.enforced.get? key = none) :
    ((t.stage (3 + n)).ledger.account key).IsUntouched
      ((t.stage (3 + n)).ledger.freshEntry key) := by
  have haccount : (t.stage (3 + n)).ledger.account key = t.fixed.ledger.account key :=
    (t.account_stage_of_unwritten hbefore).trans (t.account_sized hexecutor)
  rw [haccount, freshEntry_congr ((t.source_stage _).trans t.source_fixed.symm)
    ((t.policy_stage _).trans t.policy_fixed.symm)]
  exact untouched_fixed hfree

/-- It can still be given any value. -/
theorem ready_stage (t : Tuner K) {n : ℕ}
    (hexecutor : key ∉ Rule.keys .executor) (hbefore : ∀ r ∈ (Rule.all.drop 3).take n, key ∉ r.keys)
    (hfree : t.enforced.get? key = none) (hskip : key ∉ t.policy.skip)
    (hlimited : key ∉ t.policy.limited) :
    ((t.stage (3 + n)).ledger.account key).IsUntouched ((t.stage (3 + n)).ledger.freshEntry key) ∧
      (t.stage (3 + n)).ledger.isSkipped key = false ∧
      (t.stage (3 + n)).ledger.isComputable key = true :=
  ⟨t.untouched_stage hexecutor hbefore hfree, isSkipped_of_policy (t.policy_stage _) hskip,
    by simp [isComputable, t.policy_stage, hlimited]⟩

/-! ## What the rules make of the cores -/

/-- The share of a GPU is suggested as soon as the layout has the cores. -/
theorem computes_share (t : Tuner K) :
    t.Computes t.final.ledger.finish Key.taskGpuAmount
      (if t.context.shape.isSome && (Rules.gpuShare K t.cores).isPositive then
        some (fractionText (Rules.gpuShare K t.cores)) else none) := by
  have hkey : (∀ r ∈ Rule.all.drop 3, Key.taskGpuAmount ∉ r.keys) ∧
      Key.taskGpuAmount ∉ Rule.planKeys := by
    decide
  refine computes_of fun hfree hskip hlimited => ?_
  rw [t.account_final hkey.1]
  have huntouched := untouched_fixed hfree
  cases hshape : t.context.shape with
  | none =>
    have hsized : t.sized.ledger.account Key.taskGpuAmount =
        t.fixed.ledger.account Key.taskGpuAmount := by
      rw [sized_eq, Rules.executor, hshape]
      refine account_run_of_forall_ne fun op hop hk => ?_
      rw [List.mem_singleton.1 hop] at hk
      cases hk
    rw [hsized]
    exact huntouched.chosen? rfl
  | some shape =>
    have hlimited' : t.fixed.ledger.isComputable Key.taskGpuAmount = true := by
      simp [isComputable, t.policy_fixed, hlimited]
    rw [account_sized_of_shape hshape hkey.2]
    exact Rules.chosen?_executorLayout (cores_laidOut hshape) List.mem_cons_self huntouched
      (isSkipped_of_policy t.policy_fixed hskip) hlimited'

/-- Nothing but adaptive execution writes about the number of partitions. -/
theorem computes_partitionCount (t : Tuner K) :
    t.Computes t.final.ledger.finish Key.aqeMinPartitionNum
      ((Rules.partitionCount? t.context t.cores).map Nat.repr) := by
  have hkey : Key.aqeMinPartitionNum ∉ Rule.keys .executor ∧
      (∀ r ∈ (Rule.all.drop 3).take 8, Key.aqeMinPartitionNum ∉ r.keys) ∧
      ∀ r ∈ (Rule.all.drop 3).drop 9, Key.aqeMinPartitionNum ∉ r.keys := by
    decide
  obtain ⟨hexecutor, hbefore, hafter⟩ := hkey
  refine computes_of fun hfree hskip hlimited => ?_
  obtain ⟨huntouched, hskip', hlimited'⟩ :=
    t.ready_stage hexecutor hbefore hfree hskip hlimited
  have hrule : t.stage (3 + 9) = Rules.adaptive t.context (t.stage (3 + 8)) :=
    t.stage_succ (r := .adaptive) rfl
  have hcores := t.cores_stage 8
  rw [t.account_final_of_unwritten hafter, hrule,
    Rules.chosen?_adaptive (hcores ▸ t.one_le_cores) huntouched hskip' hlimited', hcores]

/-- Nothing but the rule of the threads writes about the pools and the bytes in flight. -/
theorem computes_threads {text : String}
    (hmem : (key, .text text) ∈ Rules.threadSettings t.cores t.platform.isCloud
      (Rules.hasInFlightRoom t.final.memory)) :
    t.Computes t.final.ledger.finish key (some text) := by
  have htable : ∀ k ∈ Rule.recommends .threads, k ∉ Rule.keys .executor ∧
      (∀ r ∈ (Rule.all.drop 3).take 9, k ∉ r.keys) ∧
      ∀ r ∈ (Rule.all.drop 3).drop 10, k ∉ r.keys := by
    decide
  have hkey : key ∈ Rule.recommends .threads :=
    (Rules.threadSettings_sublist _ _ _).subset (List.mem_map_of_mem (f := Prod.fst) hmem)
  obtain ⟨hexecutor, hbefore, hafter⟩ := htable key hkey
  refine computes_of fun hfree hskip hlimited => ?_
  obtain ⟨huntouched, hskip', hlimited'⟩ :=
    t.ready_stage hexecutor hbefore hfree hskip hlimited
  have hrule : t.stage (3 + 10) = Rules.threads t.context (t.stage (3 + 9)) :=
    t.stage_succ (r := .threads) rfl
  rw [t.account_final_of_unwritten hafter, hrule]
  refine Rules.chosen?_threads ?_ huntouched hskip' hlimited'
  rw [t.cores_stage, (t.memory_stage 9).1, ← t.memory_final.1]
  exact hmem

/-! ## The memory and the bytes in flight -/

theorem cores_request (hshape : t.context.shape = some shape) (container : K) :
    (t.request shape container).cores = t.cores := by
  rw [request, Rules.memoryRequest, ← cores_laidOut hshape]

theorem isCloud_request (hshape : t.context.shape = some shape) (container : K) :
    (t.request shape container).isCloud = t.platform.isCloud := by
  rw [request, Rules.memoryRequest, (shape?_keeps t.worker hshape).2]

/-- A budget is made for a request with that number of cores. -/
theorem budget_for_cores {budget : Memory.Budget} (h : t.final.memory = some budget) :
    ∃ shape container, t.context.shape = some shape ∧ shape.memoryPerExecutor? = some container ∧
      (t.request shape container).cores = t.cores ∧
      (t.request shape container).budget = budget := by
  by_cases hknown : ∃ (shape : Shape) (container : K), t.context.shape = some shape ∧
      shape.memoryPerExecutor? = some container
  · obtain ⟨shape, container, hshape, hcontainer⟩ := hknown
    refine ⟨shape, container, hshape, hcontainer, cores_request hshape container, ?_⟩
    exact Option.some.inj ((memory_eq hshape hcontainer).symm.trans h)
  · have hnone : t.final.memory = none := by
      refine (leavesAlone_of_unknown fun shape hshape => ?_).1
      exact Option.eq_none_iff_forall_ne_some.2 fun container hcontainer =>
        hknown ⟨shape, container, hshape, hcontainer⟩
    cases hnone.symm.trans h

/-- There is room for bytes in flight only on a cloud, for large executors. -/
theorem large_of_room (h : Rules.hasInFlightRoom t.final.memory = true) :
    t.platform.isCloud = true ∧ 16 ≤ t.cores := by
  unfold Rules.hasInFlightRoom at h
  split at h
  next plan hmemory =>
    obtain ⟨shape, container, hshape, -, hcores, hbudget⟩ := budget_for_cores hmemory
    obtain ⟨hcloud, hlarge⟩ := Memory.Request.large_of_inFlight hbudget h
    rw [isCloud_request hshape] at hcloud
    rw [hcores] at hlarge
    exact ⟨hcloud, hlarge⟩
  next => cases h

/-- The rules recommend bytes in flight only where there is room for them. -/
theorem room_of_inFlight (hfree : t.enforced.get? Key.shuffleMaxBytesInFlight = none)
    (h : (t.final.ledger.finish.chosen? Key.shuffleMaxBytesInFlight).isSome = true) :
    Rules.hasInFlightRoom t.final.memory = true := by
  by_contra hroom
  rw [Bool.not_eq_true, t.memory_final.1] at hroom
  rw [chosen?_finish, (inFlight_leavesAlone hroom).account_final,
    (untouched_fixed hfree).chosen? rfl] at h
  cases h

/-- The run goes by so many cores for an executor. -/
structure GoesBy (t : Tuner K) (r : Recommendations) (cores : ℕ) : Prop where
  /-- The memory is divided for them. -/
  budget : ∀ budget, t.final.memory = some budget →
    ∃ shape container, t.context.shape = some shape ∧ shape.memoryPerExecutor? = some container ∧
      (t.request shape container).cores = cores ∧ (t.request shape container).budget = budget
  /-- With a known layout a task gets one of so many parts of a GPU, as far as that is positive. -/
  share : t.Computes r Key.taskGpuAmount
    (if t.context.shape.isSome && (Rules.gpuShare K cores).isPositive then
      some (fractionText (Rules.gpuShare K cores)) else none)
  readers : t.Computes r Key.shuffleReaderThreads (some (Nat.repr cores))
  writers : t.Computes r Key.shuffleWriterThreads (some (Nat.repr cores))
  readThreads : t.Computes r Key.multiThreadedReadThreads
    (some (Nat.repr (Rules.readThreads cores t.platform.isCloud)))
  /-- Where partitions are merged by number, there is one for each core. -/
  partitions : t.Computes r Key.aqeMinPartitionNum
    ((Rules.partitionCount? t.context cores).map Nat.repr)
  /-- If the report has a number of cores, it is this one. -/
  reported : ∀ value n, r.value? Key.executorCores = some value →
    readCount32? (trimmed value) = some n → 0 < n → n = cores
  /-- Bytes in flight come with large pools of a cloud. -/
  inFlight : (Rules.hasInFlightRoom t.final.memory = true ∨
      t.enforced.get? Key.shuffleMaxBytesInFlight = none ∧
        (r.chosen? Key.shuffleMaxBytesInFlight).isSome = true) →
    t.platform.isCloud = true ∧ 16 ≤ cores ∧
      t.Computes r Key.readerCombineSize (some (Rules.combineSize cores)) ∧
      t.Computes r Key.parquetCombineWait (some "1000") ∧
      40 ≤ Rules.readThreads cores t.platform.isCloud

end Tuner

/-- One number of cores rules the whole run. The memory is divided for it, every value that a rule
makes of it is made of this number, it is the one that the report shows, and with bytes in flight it
is large enough for the larger pools, which are set as well. -/
theorem one_core_count_rules_the_run {t : Tuner K} {r : Recommendations}
    (hrun : t.recommend? = some r) : ∃ cores, 1 ≤ cores ∧ t.GoesBy r cores := by
  obtain ⟨-, rfl⟩ := Tuner.of_recommend? hrun
  refine ⟨t.cores, t.one_le_cores, ?_⟩
  constructor
  case budget => exact fun budget hbudget => Tuner.budget_for_cores hbudget
  case share => exact t.computes_share
  case readers => exact Tuner.computes_threads (by simp [Rules.threadSettings])
  case writers => exact Tuner.computes_threads (by simp [Rules.threadSettings])
  case readThreads => exact Tuner.computes_threads (by simp [Rules.threadSettings])
  case partitions => exact t.computes_partitionCount
  case reported =>
    intro value n hvalue hread hpos
    have hplaceholder : value ≠ placeholder := by
      rintro rfl
      have hnone : readCount32? (trimmed placeholder) = none := by decide
      cases hnone.symm.trans hread
    exact (Context.executorCores_of_get? (get?_of_value? hvalue hplaceholder) hread hpos).symm
  case inFlight =>
    intro h
    have hroom : Rules.hasInFlightRoom t.final.memory = true := by
      rcases h with hroom | ⟨hfree, hchosen⟩
      · exact hroom
      · exact Tuner.room_of_inFlight hfree hchosen
    obtain ⟨hcloud, hlarge⟩ := Tuner.large_of_room hroom
    refine ⟨hcloud, hlarge, ?_, ?_, ?_⟩
    · exact Tuner.computes_threads
        (by simp [Rules.threadSettings, hcloud, hlarge, Rules.largeReaderCores])
    · exact Tuner.computes_threads
        (by simp [Rules.threadSettings, hcloud, hlarge, Rules.largeReaderCores])
    · rw [hcloud]
      exact Rules.le_readThreads hlarge

/-- Workers of 16 cores on a cloud, with room for bytes in flight. -/
theorem fixedHeap_goes_by_sixteen :
    let t := Tuner.oneFixed "96g" Key.executorMemory "20000m"
    let r := t.final.ledger.finish
    t.recommend? = some r ∧ Rules.hasInFlightRoom t.final.memory = true ∧ t.GoesBy r 16 := by
  intro t r
  obtain ⟨hwords, hroom, hvalue⟩ :
      t.final.staysInWords = true ∧ Rules.hasInFlightRoom t.final.memory = true ∧
        r.value? Key.executorCores = some "16" := by
    decide +kernel
  have hrun : t.recommend? = some r := if_pos hwords
  obtain ⟨cores, -, hgoes⟩ := one_core_count_rules_the_run hrun
  obtain rfl : 16 = cores :=
    hgoes.reported "16" 16 hvalue (by decide +kernel) (by decide)
  exact ⟨hrun, hroom, hgoes⟩

end SparkTuner
