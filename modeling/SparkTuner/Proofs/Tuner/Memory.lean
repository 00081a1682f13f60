import SparkTuner.Proofs.Rules.Executor
import SparkTuner.Proofs.Tuner.Enforced

/-!
# The memory settings of a whole run

The plan sizes the heap, the overhead and the pools together, but the ledger keeps the size that the
user fixed for each of them. What the report shows fits into the memory of an executor all the same,
and the overhead covers what goes into it unless the user fixed the overhead itself
(`memory_settings_consistent`).
-/

namespace SparkTuner

open Ledger Number

/-- The size in MiB that the report shows for a key, if the user or a rule gave it. -/
def Recommendations.chosenMib? (K : Type) [Quantity K] (r : Recommendations) (key : String) :
    Option ℕ :=
  (r.chosen? key).bind (Size.memory? K)

namespace Tuner

variable {K : Type} [Quantity K] {t : Tuner K} {key value : String}

/-- The room for bytes in flight that the rules, not the user, recommend to use. -/
def inFlightMib (t : Tuner K) (r : Recommendations) : ℕ :=
  if t.enforced.get? Key.shuffleMaxBytesInFlight = none ∧
      r.chosen? Key.shuffleMaxBytesInFlight = some "4g" then 4096 else 0

/-! ## The plan of a run -/

/-- What is known of each key once the layout is recommended, and the plan is still to be made. -/
def laidOut (t : Tuner K) (shape : Shape) : Ledger :=
  (Rules.executorLayout t.context shape t.fixed).ledger

/-- What an executor asks for. -/
def request (t : Tuner K) (shape : Shape) (container : K) : Memory.Request K :=
  Rules.memoryRequest t.context shape container (t.laidOut shape)

section Request

variable (t : Tuner K) (shape : Shape) (container : K)

theorem policy_laidOut : (t.laidOut shape).policy = t.policy :=
  (Rule.executorLayout_reaches t.context (State.admits_isAbout t.fixed _) shape).policy.trans
    t.policy_fixed

theorem source_laidOut : (t.laidOut shape).source = t.source :=
  (Rule.executorLayout_reaches t.context (State.admits_isAbout t.fixed _) shape).source.trans
    t.source_fixed

@[simp] theorem usable_request :
    (t.request shape container).usable = container * t.platform.memoryShare := by
  rw [request, Rules.memoryRequest]
  rfl

@[simp] theorem offHeap_request :
    (t.request shape container).offHeap = Rules.offHeapMib K (t.laidOut shape) := by
  rw [request, Rules.memoryRequest]

@[simp] theorem pyspark_request :
    (t.request shape container).pyspark =
      Rules.settingMib K (t.laidOut shape) Key.pysparkMemory := by
  rw [request, Rules.memoryRequest]

@[simp] theorem enforcedHeap_request :
    (t.request shape container).enforcedHeap =
      Rules.enforcedMib K (t.laidOut shape) Key.executorMemory := by
  rw [request, Rules.memoryRequest]

@[simp] theorem enforcedOverhead_request :
    (t.request shape container).enforcedOverhead =
      Rules.enforcedMib K (t.laidOut shape) Key.executorMemoryOverhead := by
  rw [request, Rules.memoryRequest]

@[simp] theorem enforcedPinned_request :
    (t.request shape container).enforcedPinned =
      Rules.enforcedMib K (t.laidOut shape) Key.pinnedPool := by
  rw [request, Rules.memoryRequest]

@[simp] theorem enforcedSpill_request :
    (t.request shape container).enforcedSpill =
      Rules.enforcedMib K (t.laidOut shape) Key.spillStorage := by
  rw [request, Rules.memoryRequest]

end Request

/-- The run divides the memory of a container of this shape by this plan. -/
structure Plans (t : Tuner K) (shape : Shape) (container : K) (plan : Memory.Plan) : Prop where
  shape_eq : t.context.shape = some shape
  container_eq : shape.memoryPerExecutor? = some container
  budget_eq : (t.request shape container).budget = .planned plan
  staysInWords : (t.request shape container).staysInWords = true
  ledger_eq : t.sized.ledger =
    (Rules.recommendPlan (Rules.executorLayout t.context shape t.fixed) plan).ledger

theorem exists_plans {plan : Memory.Plan} (hwords : t.final.staysInWords = true)
    (hplan : t.final.memory = some (.planned plan)) :
    ∃ shape container, t.Plans shape container plan := by
  obtain ⟨hmemory, hwords'⟩ := t.memory_final
  rw [hmemory] at hplan
  rw [hwords'] at hwords
  rw [sized_eq] at hplan hwords
  obtain ⟨shape, container, hshape, hcontainer, hbudget, hledger, hsums⟩ :=
    Rules.executor_planned t.memory_fixed hplan
  refine ⟨shape, container, hshape, hcontainer, hbudget, hsums hwords, ?_⟩
  rw [sized_eq]
  exact hledger

/-- After the plan is recommended no rule writes about its sizes. -/
theorem Plans.account_final {shape : Shape} {container : K} {plan : Memory.Plan}
    (h : t.Plans shape container plan) (hkey : key ∈ Rule.planKeys) :
    t.final.ledger.account key =
      (Rules.recommendPlan (Rules.executorLayout t.context shape t.fixed) plan).ledger.account
        key := by
  rw [t.account_final (Rule.not_mem_keys_of_mem_planKeys hkey), h.ledger_eq]

theorem account_laidOut_of_mem (t : Tuner K) (shape : Shape) (hkey : key ∈ Rule.planKeys) :
    (t.laidOut shape).account key = t.fixed.ledger.account key :=
  Rules.account_executorLayout shape (Rule.not_mem_layoutKeys_of_mem_planKeys hkey)

/-- Where the user fixed no size, the report shows that of the plan. -/
theorem Plans.chosen?_of_free {shape : Shape} {container : K} {plan : Memory.Plan} {mib : ℕ}
    (h : t.Plans shape container plan) (hmem : (key, mib) ∈ Rules.sizes plan)
    (hskip : key ∉ t.policy.skip) (hlimited : key ∉ t.policy.limited)
    (hfree : t.enforced.get? key = none) :
    (t.final.ledger.account key).chosen? = (Computed.mib (signed64 mib)).text? := by
  have hkey : key ∈ Rule.planKeys := Rules.mem_planKeys_of_mem_sizes hmem
  have huntouched :
      ((t.laidOut shape).account key).IsUntouched ((t.laidOut shape).freshEntry key) := by
    rw [account_laidOut_of_mem t shape hkey, freshEntry_congr ((t.source_laidOut shape).trans
      t.source_fixed.symm) ((t.policy_laidOut shape).trans t.policy_fixed.symm)]
    exact untouched_fixed hfree
  have hlimited' : (t.laidOut shape).isComputable key = true := by
    simp [isComputable, t.policy_laidOut, hlimited]
  rw [h.account_final hkey]
  exact Rules.chosen?_recommendPlan hmem huntouched
    (isSkipped_of_policy (t.policy_laidOut shape) hskip) hlimited'

/-- Where the user fixed a size, the plan is made for it and the report shows it. -/
theorem Plans.chosen?_of_fixed {shape : Shape} {container : K} {plan : Memory.Plan}
    (h : t.Plans shape container plan) (hkey : key ∈ Rule.planKeys) (hskip : key ∉ t.policy.skip)
    (hvalue : t.enforced.get? key = some value) :
    Rules.enforcedMib K (t.laidOut shape) key = Size.memory? K value ∧
      (t.final.ledger.account key).chosen? = some value := by
  have hholds : ((t.laidOut shape).account key).Holds value := by
    rw [account_laidOut_of_mem t shape hkey]
    exact holds_fixed hvalue (by simpa using hskip)
  have hsub : Rule.planKeys ⊆ Rule.recommends .executor := List.subset_append_right _ _
  have hadmits := (Rule.admits_isRecommendation
    (Rules.executorLayout t.context shape t.fixed) .executor).mono hsub
  refine ⟨Rules.enforcedMib_of_holds hholds, ?_⟩
  -- A recommendation for the key is not taken while the user's value is held.
  rw [h.account_final hkey]
  exact Account.Holds.chosen? (State.holds_of_recommendations
    (Rule.recommendPlan_reaches hadmits (.refl _) plan) hholds)

/-- A size that was recommended is read back as the size of the plan. -/
theorem memory?_computed {mib size : ℕ} {text : String} (hmib : mib ≤ max64)
    (htext : (Computed.mib (signed64 mib)).text? = some text)
    (hsize : Size.memory? ℚ text = some size) : size = mib := by
  simp only [Computed.text?] at htext
  split at htext
  next hpos =>
    cases htext
    have hsmall : mib ≤ maxSigned64 := by
      by_contra hlarge
      rw [signed64, if_neg hlarge] at hpos
      omega
    rw [signed64_of_le hsmall, Int.toNat_natCast, Size.memory?, Size.mib?_ofMib .mib hmib] at hsize
    exact (Option.some.inj hsize).symm
  next => cases htext

/-- Where the rule of the executors found no room for bytes in flight, no rule recommends any. -/
theorem inFlight_leavesAlone (h : Rules.hasInFlightRoom t.sized.memory = false) :
    t.LeavesAlone Key.shuffleMaxBytesInFlight := by
  have hexecutor : Key.shuffleMaxBytesInFlight ∉ Rule.keys .executor := by decide
  have hlater : ∀ r ∈ Rule.all.drop 3, r ≠ .seed ∧ r ≠ .enforce ∧ r ≠ .executor := by decide
  refine leavesAlone_of_sized (t.account_sized hexecutor) fun n => ?_
  rw [stage_add]
  exact Rules.account_applyAll_of_no_room (fun r hr => hlater r (List.mem_of_mem_take hr)) h

theorem inFlightMib_eq_zero {r : Recommendations} (hr : r = t.final.ledger.finish)
    (h : Rules.hasInFlightRoom t.sized.memory = false) : t.inFlightMib r = 0 := by
  rw [inFlightMib, if_neg]
  rintro ⟨hfree, hchosen⟩
  rw [hr, chosen?_finish, (inFlight_leavesAlone h).account_final,
    (untouched_fixed hfree).chosen? rfl] at hchosen
  cases hchosen

/-- What lies beside the plan is read the same when the plan is made and at the end. -/
theorem settings_beside_plan (t : Tuner K) (shape : Shape) :
    Rules.offHeapMib K (t.laidOut shape) = Rules.offHeapMib K t.final.ledger ∧
      Rules.settingMib K (t.laidOut shape) Key.pysparkMemory =
        Rules.settingMib K t.final.ledger Key.pysparkMemory := by
  have htable : ∀ k ∈ [Key.offHeapEnabled, Key.offHeapSize, Key.pysparkMemory],
      (∀ r ∈ Rule.all.drop 3, k ∉ r.keys) ∧ k ∉ Rule.keys .executor ∧ k ∉ Rule.layoutKeys := by
    decide
  have hsource : (t.laidOut shape).source = t.final.ledger.source :=
    (t.source_laidOut shape).trans t.source_final.symm
  have hget : ∀ k ∈ [Key.offHeapEnabled, Key.offHeapSize, Key.pysparkMemory],
      (t.laidOut shape).get? k = t.final.ledger.get? k := by
    intro k hk
    obtain ⟨hlast, hexecutor, hlayout⟩ := htable k hk
    refine Rules.get?_congr ?_ hsource
    rw [t.account_final hlast, t.account_sized hexecutor]
    exact Rules.account_executorLayout shape hlayout
  constructor
  · rw [Rules.offHeapMib, Rules.offHeapMib, Rules.settingMib, Rules.settingMib,
      hget _ (by simp), hget Key.offHeapSize (by simp)]
  · rw [Rules.settingMib, Rules.settingMib, hget _ (by simp)]

/-! ## Sizes in the report -/

section Exact

variable {t : Tuner ℚ} {shape : Shape} {container : ℚ} {plan : Memory.Plan} {mib size : ℕ}

/-- The reported size of a key is that of the plan if the user fixed none, and else the one that the
plan was made for. -/
theorem Plans.size_cases (h : t.Plans shape container plan)
    (hkeys : ∀ key ∈ Rule.planKeys, key ∉ t.policy.skip ∧ key ∉ t.policy.limited)
    (hmem : (key, mib) ∈ Rules.sizes plan) (hmib : mib ≤ max64)
    (hsize : t.final.ledger.finish.chosenMib? ℚ key = some size) :
    t.enforced.get? key = none ∧ size = mib ∨
      t.enforced.get? key ≠ none ∧
        Rules.enforcedMib ℚ (t.laidOut shape) key = some size := by
  obtain ⟨text, htext, hread⟩ := Option.bind_eq_some_iff.1 hsize
  rw [chosen?_finish] at htext
  have hkey : key ∈ Rule.planKeys := Rules.mem_planKeys_of_mem_sizes hmem
  obtain ⟨hskip, hlimited⟩ := hkeys key hkey
  cases hvalue : t.enforced.get? key with
  | none =>
    have hchosen := h.chosen?_of_free hmem hskip hlimited hvalue
    exact Or.inl ⟨rfl, memory?_computed hmib (hchosen.symm.trans htext) hread⟩
  | some v =>
    obtain ⟨henforced, hchosen⟩ := h.chosen?_of_fixed hkey hskip hvalue
    rw [hchosen] at htext
    cases htext
    exact Or.inr ⟨Option.some_ne_none _, henforced.trans hread⟩

theorem Plans.size_eq (h : t.Plans shape container plan)
    (hkeys : ∀ key ∈ Rule.planKeys, key ∉ t.policy.skip ∧ key ∉ t.policy.limited)
    (hmem : (key, mib) ∈ Rules.sizes plan) (hmib : mib ≤ max64)
    (hsize : t.final.ledger.finish.chosenMib? ℚ key = some size)
    (hgiven : ∀ n, Rules.enforcedMib ℚ (t.laidOut shape) key = some n → mib = n) :
    size = mib := by
  rcases h.size_cases hkeys hmem hmib hsize with ⟨-, heq⟩ | ⟨-, henforced⟩
  · exact heq
  · exact (hgiven size henforced).symm

theorem inFlightMib_le (hplan : t.final.memory = some (.planned plan)) :
    t.inFlightMib t.final.ledger.finish ≤ if plan.inFlight then 4096 else 0 := by
  by_cases hroom : plan.inFlight = true
  · rw [if_pos hroom, inFlightMib]
    split <;> omega
  · have hnone : Rules.hasInFlightRoom t.sized.memory = false := by
      rw [← t.memory_final.1, hplan]
      exact Bool.eq_false_iff.2 hroom
    rw [inFlightMib_eq_zero rfl hnone]
    exact Nat.zero_le _

end Exact

end Tuner

/-- The memory settings of a run are consistent. Where the memory budget succeeded and the report
shows all four sizes, they fit into the memory that an executor gets, also when the overhead is as
large as what goes into it; and it is as large, unless the user fixed it. -/
theorem memory_settings_consistent {t : Tuner ℚ} {r : Recommendations} {plan : Memory.Plan}
    {heap overhead pinned spill : ℕ} (hrun : t.recommend? = some r)
    (hplan : t.final.memory = some (.planned plan))
    (hkeys : ∀ key ∈ [Key.executorMemory, Key.executorMemoryOverhead, Key.pinnedPool,
      Key.spillStorage], key ∉ t.policy.skip ∧ key ∉ t.policy.limited)
    (hheap : r.chosenMib? ℚ Key.executorMemory = some heap)
    (hoverhead : r.chosenMib? ℚ Key.executorMemoryOverhead = some overhead)
    (hpinned : r.chosenMib? ℚ Key.pinnedPool = some pinned)
    (hspill : r.chosenMib? ℚ Key.spillStorage = some spill) :
    ∃ shape container, t.context.shape = some shape ∧
      shape.memoryPerExecutor? = some container ∧
      ((heap + max overhead (heap / 10 + pinned + spill + t.inFlightMib r) +
          Rules.offHeapMib ℚ t.final.ledger +
          Rules.settingMib ℚ t.final.ledger Key.pysparkMemory : ℕ) : ℚ) ≤
        container * t.platform.memoryShare ∧
      (t.enforced.get? Key.executorMemoryOverhead = none →
        heap / 10 + pinned + spill + t.inFlightMib r ≤ overhead) := by
  obtain ⟨hwords, rfl⟩ := Tuner.of_recommend? hrun
  obtain ⟨shape, container, h⟩ := Tuner.exists_plans hwords hplan
  obtain ⟨hfits, hcovers, hgivenHeap, hgivenPinned, hgivenSpill, hgivenOverhead, -, -⟩ :=
    Memory.plan_fits h.staysInWords h.budget_eq
  obtain ⟨hheapWord, hoverheadWord, hpinnedWord, hspillWord⟩ :=
    Memory.plan_le_max64 h.staysInWords h.budget_eq
  obtain ⟨hoffHeap, hpyspark⟩ := t.settings_beside_plan shape
  rw [← Memory.Request.usable_eq, Tuner.usable_request, Tuner.offHeap_request,
    Tuner.pyspark_request, hoffHeap, hpyspark] at hfits
  simp only [Tuner.enforcedHeap_request] at hgivenHeap
  simp only [Tuner.enforcedPinned_request] at hgivenPinned
  simp only [Tuner.enforcedSpill_request] at hgivenSpill
  simp only [Tuner.enforcedOverhead_request] at hgivenOverhead
  -- Three sizes are those of the plan, and the overhead is at most the plan's.
  obtain rfl : heap = plan.heap :=
    h.size_eq hkeys (by simp [Rules.sizes]) hheapWord hheap hgivenHeap
  obtain rfl : pinned = plan.pinned :=
    h.size_eq hkeys (by simp [Rules.sizes]) hpinnedWord hpinned hgivenPinned
  obtain rfl : spill = plan.spill :=
    h.size_eq hkeys (by simp [Rules.sizes]) hspillWord hspill hgivenSpill
  have hneed : plan.heap / 10 + plan.pinned + plan.spill + t.inFlightMib t.final.ledger.finish ≤
      plan.overhead := (Nat.add_le_add_left (Tuner.inFlightMib_le hplan) _).trans hcovers
  have hcases := h.size_cases hkeys (by simp [Rules.sizes]) hoverheadWord hoverhead
  have hoverheadLe : overhead ≤ plan.overhead := by
    rcases hcases with ⟨-, heq⟩ | ⟨-, henforced⟩
    · exact heq.le
    · exact hgivenOverhead overhead henforced
  refine ⟨shape, container, h.shape_eq, h.container_eq, ?_, fun hfree => ?_⟩
  · have hmax := max_le hoverheadLe hneed
    refine le_trans ?_ hfits
    exact_mod_cast Nat.add_le_add_right (Nat.add_le_add_right (Nat.add_le_add_left hmax _) _) _
  · rcases hcases with ⟨-, heq⟩ | ⟨henforced, -⟩
    · rw [heq]
      exact hneed
    · exact absurd hfree henforced

/-- Two workers of 16 cores and one GPU, on a cloud, for which the user fixed one value. -/
def Tuner.oneFixed (memory key value : String) : Tuner ℚ where
  app := AppSummary.blank
  driverLog := none
  platform := .dataproc
  tool := default
  strategy := default
  cluster :=
    { system := some { numCores := some 16, memory := some memory, numWorkers := some 2 } }
  worker := none
  enforced := KeyMap.ofList [(key, value)]
  policy := {}
  latest := .notChecked
  diagnostics := []

/-- With a heap of the user the plan leaves room for bytes in flight, and the overhead covers it. -/
theorem fixedHeap_consistent :
    let t := Tuner.oneFixed "96g" Key.executorMemory "20000m"
    ∃ shape container, t.context.shape = some shape ∧
      shape.memoryPerExecutor? = some container ∧
      ((20000 + max 14288 (20000 / 10 + 4096 + 4096 + t.inFlightMib t.final.ledger.finish) +
          Rules.offHeapMib ℚ t.final.ledger +
          Rules.settingMib ℚ t.final.ledger Key.pysparkMemory : ℕ) : ℚ) ≤
        container * t.platform.memoryShare ∧
      (t.enforced.get? Key.executorMemoryOverhead = none →
        20000 / 10 + 4096 + 4096 + t.inFlightMib t.final.ledger.finish ≤ 14288) := by
  intro t
  let r := t.final.ledger.finish
  obtain ⟨hwords, hplan, hheap, hoverhead, hpinned, hspill⟩ :
      t.final.staysInWords = true ∧
        t.final.memory = some (.planned ⟨20000, 14288, 4096, 4096, true⟩) ∧
        r.chosenMib? ℚ Key.executorMemory = some 20000 ∧
        r.chosenMib? ℚ Key.executorMemoryOverhead = some 14288 ∧
        r.chosenMib? ℚ Key.pinnedPool = some 4096 ∧
        r.chosenMib? ℚ Key.spillStorage = some 4096 := by
    decide +kernel
  have hkeys : ∀ key ∈ [Key.executorMemory, Key.executorMemoryOverhead, Key.pinnedPool,
      Key.spillStorage], key ∉ t.policy.skip ∧ key ∉ t.policy.limited :=
    fun _ _ => ⟨List.not_mem_nil, List.not_mem_nil⟩
  exact memory_settings_consistent (if_pos hwords) hplan hkeys hheap hoverhead hpinned hspill

/-- An overhead that the user fixed is kept, though the plan needs far more for the pools. -/
theorem fixedOverhead_not_covering :
    let t := Tuner.oneFixed "64g" Key.executorMemoryOverhead "1g"
    let r := t.final.ledger.finish
    t.recommend? = some r ∧ t.policy = {} ∧
      t.final.memory = some (.planned ⟨32768, 15564, 4096, 4096, true⟩) ∧
      r.chosenMib? ℚ Key.executorMemory = some 32768 ∧
      r.chosenMib? ℚ Key.executorMemoryOverhead = some 1024 ∧
      r.chosenMib? ℚ Key.pinnedPool = some 4096 ∧
      r.chosenMib? ℚ Key.spillStorage = some 4096 ∧ ¬32768 / 10 + 4096 + 4096 ≤ 1024 := by
  intro t r
  obtain ⟨hwords, hfacts⟩ :
      t.final.staysInWords = true ∧
        t.final.memory = some (.planned ⟨32768, 15564, 4096, 4096, true⟩) ∧
        r.chosenMib? ℚ Key.executorMemory = some 32768 ∧
        r.chosenMib? ℚ Key.executorMemoryOverhead = some 1024 ∧
        r.chosenMib? ℚ Key.pinnedPool = some 4096 ∧
        r.chosenMib? ℚ Key.spillStorage = some 4096 ∧ ¬32768 / 10 + 4096 + 4096 ≤ 1024 := by
    decide +kernel
  exact ⟨if_pos hwords, rfl, hfacts⟩

end SparkTuner
