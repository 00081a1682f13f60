import SparkTuner.Proofs.Cluster.Shape
import SparkTuner.Proofs.Memory.Words
import SparkTuner.Proofs.Tuner.MemoryOutcome

/-!
# Which runs leave a word

The rule of the executors is the only one that adds and multiplies sizes. The user tells most of
them, and nothing bounds what is told but the word it is read into, so that a run can leave a word
and end without recommendations. It does exactly if the budget of its executors does
(`leaves_words_iff`).
-/

namespace SparkTuner

open Number

/-! ## The rule of the executors -/

namespace Rules

variable {K : Type} [Quantity K] {ctx : Context K} {s : State} {shape : Shape} {container : K}

theorem staysInWords_executorLayout (ctx : Context K) (shape : Shape) (s : State) :
    (executorLayout ctx shape s).staysInWords = s.staysInWords := by
  simp only [executorLayout, State.suggest, State.staysInWords_write]

/-- Without a layout or its memory no sizes are added. -/
theorem staysInWords_executor_of_unknown
    (h : ∀ shape, ctx.shape = some shape → (shape.memoryPerExecutor? : Option K) = none) :
    (executor ctx s).staysInWords = s.staysInWords := by
  unfold executor
  split
  next => rfl
  next shape hshape =>
    rw [executorMemory, h shape hshape]
    exact staysInWords_executorLayout ctx shape s

/-- The rule stays in words as far as the sums for its budget do. -/
theorem staysInWords_executor_iff (hshape : ctx.shape = some shape)
    (hcontainer : shape.memoryPerExecutor? = some container) (hs : s.staysInWords = true) :
    let request := memoryRequest ctx shape container (executorLayout ctx shape s).ledger
    (executor ctx s).staysInWords = true ↔ ∀ n ∈ budgetSums request shape, n ≤ max64 := by
  intro request
  have heq : (executor ctx s).staysInWords =
      (s.staysInWords && (budgetSums request shape).all (· ≤ max64)) := by
    rw [executor, hshape]
    dsimp only
    rw [executorMemory, hcontainer]
    dsimp only
    rw [staysInWords_executorLayout]
  rw [heq, hs, Bool.true_and, List.all_eq_true]
  simp only [decide_eq_true_eq]

/-- The sums for a budget are those on the way to it, and for a shortfall what a worker needs. -/
theorem budgetSums_le_iff (request : Memory.Request K) (shape : Shape) :
    (∀ n ∈ budgetSums request shape, n ≤ max64) ↔ request.staysInWords = true ∧
      ∀ n, request.budget = .short n → Memory.workerNeed n shape.executorsPerWorker ≤ max64 := by
  have hsums : request.staysInWords = true ↔ ∀ n ∈ request.sums, n ≤ max64 := by
    rw [Memory.Request.staysInWords, List.all_eq_true]
    simp only [decide_eq_true_eq]
  rw [hsums, budgetSums, List.forall_mem_append]
  refine and_congr_right fun _ => ?_
  cases request.budget <;> simp

end Rules

/-! ## The memory of a worker -/

section Worker

variable {p : Platform} {w : TargetWorker}

theorem instance?_memory_le {name : String} {hardware : Instance}
    (h : p.instance? name = some hardware) : hardware.memoryMib ≤ max64 := by
  have htable : ∀ entry ∈ p.instances, entry.2.memoryMib ≤ max64 := by
    cases p <;> decide
  obtain ⟨entry, hentry, rfl⟩ := Option.map_eq_some_iff.1 h
  exact htable entry (List.mem_of_find?_eq_some hentry)

/-- The memory of a worker to tune for is that of its machine type, or read into a word. -/
theorem TargetDescription.memory_le_of_resolveWorker {target : TargetDescription ℚ}
    (h : target.resolveWorker p = .ok (some w)) {mib : ℕ} (hmib : w.memoryMib? = some mib) :
    mib ≤ max64 := by
  unfold resolveWorker at h
  split at h
  next => cases h
  next info _ =>
    rcases WorkerInfo.resolve_cases h with ⟨name, hardware, hhardware, rfl⟩ | ⟨gpu, model, -, rfl⟩
    · cases hmib
      exact instance?_memory_le hhardware
    · obtain ⟨gb, -, rfl⟩ := Option.map_eq_some_iff.1 hmib
      exact Memory.floorWord_le_max64 _

theorem exists_target_of_chooseWorker {K : Type} [Quantity K]
    {target : Option (TargetDescription K)} {worker : Diagnosed (Option TargetWorker)}
    (h : TunerInput.chooseWorker p target = .ok worker) (hw : worker.value = some w) :
    ∃ description, target = some description ∧ description.resolveWorker p = .ok (some w) := by
  unfold TunerInput.chooseWorker at h
  split at h
  next =>
    cases h
    cases hw
  next description =>
    split at h
    next found hfound =>
      cases h
      cases hw
      exact ⟨description, rfl, hfound⟩
    next => cases h
    next =>
      cases h
      cases hw

end Worker

/-- The memory of a worker that a layout goes by is read into a word on either side. -/
theorem memory_le_of_shape {c : ClusterDescription} {p : Platform} {worker : Option TargetWorker}
    {strategy : SizingStrategy} {shape : Shape} {mib : ℕ}
    (hworker : ∀ w n, worker = some w → w.memoryMib? = some n → n ≤ max64)
    (hshape : (c.resolve ℚ p).shape? worker strategy p = some shape)
    (hmib : shape.memoryPerWorkerMib = some mib) : mib ≤ max64 := by
  have hsource : ∀ n, (c.resolve ℚ p).memoryPerWorkerMib = some n → n ≤ max64 := by
    intro n hn
    obtain ⟨text, -, hread⟩ := Option.bind_eq_some_iff.1 hn
    obtain ⟨bytes, -, rfl⟩ := Option.map_eq_some_iff.1 hread
    exact Memory.floorWord_le_max64 _
  cases worker with
  | none =>
    obtain ⟨cores, -, rfl⟩ := Option.map_eq_some_iff.1 hshape
    exact hsource mib hmib
  | some w =>
    obtain ⟨cores, -, rfl⟩ := Option.map_eq_some_iff.1 hshape
    rcases Option.or_eq_some_iff.1 hmib with htold | ⟨-, htold⟩
    · exact hworker w mib rfl htold
    · exact hsource mib htold

/-! ## Runs -/

namespace Tuner

section Outcome

variable {K : Type} [Quantity K] {t : Tuner K} {shape : Shape} {container : K}

theorem staysInWords_fixed (t : Tuner K) : t.fixed.staysInWords = true := by
  rw [fixed_eq, State.staysInWords_write, seeded_eq, State.staysInWords_write]
  rfl

theorem recommend?_eq_none_iff : t.recommend? = none ↔ t.sized.staysInWords = false := by
  rw [recommend?, t.memory_final.2]
  cases t.sized.staysInWords <;> simp

/-- Of the sums for the budget of the executors one leaves a word. -/
def LeavesWords (t : Tuner K) : Prop :=
  ∃ shape container, t.context.shape = some shape ∧ shape.memoryPerExecutor? = some container ∧
    ∃ n ∈ Rules.budgetSums (t.request shape container) shape, max64 < n

/-- A run ends without recommendations exactly if it leaves the words. -/
theorem recommend?_eq_none_iff_leavesWords : t.recommend? = none ↔ t.LeavesWords := by
  rw [recommend?_eq_none_iff, sized_eq, ← Bool.not_eq_true]
  constructor
  · intro hleaves
    by_cases hknown : ∃ shape container, t.context.shape = some shape ∧
        (shape.memoryPerExecutor? : Option K) = some container
    · obtain ⟨shape, container, hshape, hcontainer⟩ := hknown
      have hsums : ¬∀ n ∈ Rules.budgetSums (t.request shape container) shape, n ≤ max64 :=
        fun hall => hleaves
          ((Rules.staysInWords_executor_iff hshape hcontainer t.staysInWords_fixed).2 hall)
      push Not at hsums
      exact ⟨shape, container, hshape, hcontainer, hsums⟩
    · rw [Rules.staysInWords_executor_of_unknown fun shape hshape => ?_] at hleaves
      · exact absurd t.staysInWords_fixed hleaves
      · exact Option.eq_none_iff_forall_ne_some.2 fun container hcontainer =>
          hknown ⟨shape, container, hshape, hcontainer⟩
  · rintro ⟨shape, container, hshape, hcontainer, n, hn, hlarge⟩ hstays
    have hall := (Rules.staysInWords_executor_iff hshape hcontainer t.staysInWords_fixed).1 hstays
    exact absurd (hall n hn) (not_le.2 hlarge)

end Outcome

section Exact

variable {readers : Readers ℚ} {input : TunerInput ℚ} {t : Tuner ℚ} {shape : Shape} {container : ℚ}

theorem worker_memory_le (h : input.build readers = .ok t) {w : TargetWorker} {n : ℕ}
    (hw : t.worker = some w) (hn : w.memoryMib? = some n) : n ≤ max64 := by
  obtain ⟨worker, hworker, hvalue, -⟩ := TunerInput.exists_chooseWorker h
  obtain ⟨description, -, hresolve⟩ := exists_target_of_chooseWorker hworker (hvalue ▸ hw)
  exact TargetDescription.memory_le_of_resolveWorker hresolve hn

/-- What a run asks for is asked of a part of a worker. -/
theorem isHosted_request (h : input.build readers = .ok t) (hshape : t.context.shape = some shape)
    (hcontainer : shape.memoryPerExecutor? = some container) :
    (t.request shape container).IsHosted := by
  obtain ⟨mib, hmib, rfl⟩ := Option.map_eq_some_iff.1 hcontainer
  have hword := memory_le_of_shape (fun _ _ => worker_memory_le h) hshape hmib
  have hexecutors : (1 : ℚ) ≤ shape.executorsPerWorker := by
    exact_mod_cast Nat.le_max_right shape.gpuCount 1
  have hshares : ∀ p : Platform, (0 : ℚ) < p.memoryShare ∧ (p.memoryShare : ℚ) ≤ 9 / 10 := by
    intro p
    cases p <;> decide +kernel
  refine ⟨(hshares t.platform).1, (hshares t.platform).2, ?_⟩
  show (mib : ℚ) / shape.executorsPerWorker ≤ max64
  calc (mib : ℚ) / shape.executorsPerWorker ≤ mib := div_le_self (Nat.cast_nonneg _) hexecutors
    _ ≤ max64 := by exact_mod_cast hword

end Exact

end Tuner

/-- A run ends without recommendations exactly if the layout and the memory of its executors are
known, and for what they ask for either the pools with the room for bytes in flight leave a word,
where that much is compared with what is left, or a shortfall is reported and what a worker would
need leaves one. -/
theorem leaves_words_iff {readers : Readers ℚ} {input : TunerInput ℚ} {t : Tuner ℚ}
    (hbuild : input.build readers = .ok t) :
    t.recommend? = none ↔ ∃ shape container, t.context.shape = some shape ∧
      shape.memoryPerExecutor? = some container ∧
      (t.request shape container).LeavesWords shape.executorsPerWorker := by
  rw [Tuner.recommend?_eq_none_iff_leavesWords, Tuner.LeavesWords]
  refine exists_congr fun shape => exists_congr fun container => and_congr_right fun hshape =>
    and_congr_right fun hcontainer => ?_
  have hhosted := Tuner.isHosted_request hbuild hshape hcontainer
  have hexecutors : 1 ≤ shape.executorsPerWorker := Nat.le_max_right _ _
  have hstays := (Rules.budgetSums_le_iff (t.request shape container) shape).trans
    (Memory.Request.staysInWords_iff hhosted hexecutors)
  rw [← not_iff_not, ← hstays]
  push Not
  rfl

/-- Pools that the user fixed at half of what a word can tell each. -/
def TunerInput.vastPools : TunerInput ℚ where
  app := AppSummary.blank
  cluster := .parsed
    { system := some { numCores := some 8, memory := some "64g", numWorkers := some 1 } }
  target := .parsed
    { enforced := KeyMap.ofList
        [(Key.pinnedPool, "9223372036854775808m"), (Key.spillStorage, "9223372036854775808m")] }

/-- The heap fits with default pools, and then the pools are added. -/
theorem vastPools_leave_words :
    ∃ t, TunerInput.vastPools.build ⟨fun _ => .error .json, fun _ => .error .json⟩ = .ok t ∧
      t.recommend? = none := by
  have hbuild : TunerInput.vastPools.build ⟨fun _ => .error .json, fun _ => .error .json⟩ =
      .ok _ := rfl
  refine ⟨_, hbuild, (leaves_words_iff hbuild).2 ?_⟩
  refine ⟨⟨8, 1, 1, 1, 24576, "L4", some 65536, false⟩, 65536, ?_, ?_, Or.inl ?_⟩ <;>
    decide +kernel

/-- An application with more memory outside the heap than workers of two GPUs have. -/
def TunerInput.vastOffHeap : TunerInput ℚ where
  app :=
    { AppSummary.blank with
      properties := KeyMap.ofList
        [(Key.offHeapEnabled, "true"), (Key.offHeapSize, "9223372036854775808m")] }
  cluster := .parsed
    { system := some { numCores := some 8, memory := some "64g", numWorkers := some 1 }
      gpu := some { count := some 2 } }

/-- The container that an executor would need is a word, but that of two executors is none. -/
theorem vastOffHeap_leaves_words :
    ∃ t n, TunerInput.vastOffHeap.build ⟨fun _ => .error .json, fun _ => .error .json⟩ = .ok t ∧
      t.final.memory = some (.short n) ∧ n ≤ max64 ∧ max64 < 2 * n ∧ t.recommend? = none := by
  refine ⟨_, 11529215046068476445, rfl, ?_⟩
  decide +kernel

end SparkTuner
