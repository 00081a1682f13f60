import Mathlib.Algebra.Order.Floor.Div
import SparkTuner.Cluster.Shape
import SparkTuner.Proofs.Cluster.Resolved

/-!
# The layout keeps the capacity of the source

A layout is known as soon as one side tells the cores of a worker. Its executors share the cores of
a worker between its GPUs (`Shape.LaysOut`), and the target gets the least number of workers that
hold what the strategy keeps (`isLeast_groupsOf`). Totals stop at the largest 32-bit word, and what
stops there is all that is kept.
-/

namespace SparkTuner

open Number

/-! ## Groups -/

theorem groupsOf_le_iff {size total n : ℕ} (h : 0 < size) :
    groupsOf size total ≤ n ↔ total ≤ n * size := by
  have hceil : groupsOf size total = total ⌈/⌉ size := (Nat.ceilDiv_eq_add_pred_div ..).symm
  rw [hceil, ceilDiv_le_iff_le_mul h, Nat.mul_comm]

/-- At least one group, and no more than are needed. -/
theorem isLeast_groupsOf {size : ℕ} (total : ℕ) (h : 0 < size) :
    IsLeast {n | 1 ≤ n ∧ total ≤ n * size} (max (groupsOf size total) 1) := by
  constructor
  · have hholds : groupsOf size total ≤ max (groupsOf size total) 1 := Nat.le_max_left _ _
    exact ⟨Nat.le_max_right _ _, (groupsOf_le_iff h).1 hholds⟩
  · rintro n ⟨hpos, hn⟩
    have hgroups : groupsOf size total ≤ n := (groupsOf_le_iff h).2 hn
    omega

/-! ## Target workers -/

/-- Every machine type has cores and GPUs. -/
theorem instance?_pos {p : Platform} {name : String} {hardware : Instance}
    (h : p.instance? name = some hardware) : 0 < hardware.cores ∧ 0 < hardware.gpuCount := by
  have htable : ∀ entry ∈ p.instances, 0 < entry.2.cores ∧ 0 < entry.2.gpuCount := by
    cases p <;> decide
  obtain ⟨entry, hentry, rfl⟩ := Option.map_eq_some_iff.1 h
  exact htable entry (List.mem_of_find?_eq_some hentry)

section Target

variable {K : Type} [Quantity K] {target : TargetDescription K} {p : Platform} {w : TargetWorker}

/-- A worker that is described is a machine type of the platform, or has the resources told. -/
theorem WorkerInfo.resolve_cases {info : WorkerInfo K} (h : info.resolve p = .ok (some w)) :
    (∃ name hardware, p.instance? name = some hardware ∧ w = .machine name hardware) ∨
      ∃ gpu model, info.gpu = some gpu ∧ w = .resources (usableCount? info.cpuCores)
        (info.memoryGb.map fun gb => Quantity.floorWord (gb * Quantity.ofNat 1024))
        ((usableCount? gpu.count).getD defaultGpus) model := by
  unfold resolve at h
  split at h
  next name _ =>
    split at h
    · cases h
    · unfold machineOf at h
      split at h
      next hardware hhardware =>
        cases h
        exact Or.inl ⟨name, hardware, hhardware, rfl⟩
      next => cases h
  next =>
    split at h
    · split at h
      · cases h
      next gpu hgpu =>
        cases hmodel : modelOf p gpu with
        | error e =>
          rw [hmodel] at h
          cases h
        | ok model =>
          rw [hmodel] at h
          cases h
          exact Or.inr ⟨gpu, model, hgpu, rfl⟩
    · cases h

theorem WorkerInfo.pos_of_resolve {info : WorkerInfo K} (h : info.resolve p = .ok (some w)) :
    0 < w.gpuCount ∧ ∀ n, w.cores? = some n → 0 < n := by
  rcases resolve_cases h with ⟨name, hardware, hhardware, rfl⟩ | ⟨gpu, model, -, rfl⟩
  · obtain ⟨hcores, hgpus⟩ := instance?_pos hhardware
    refine ⟨hgpus, fun n hn => ?_⟩
    cases hn
    exact hcores
  · refine ⟨?_, fun n hn => pos_of_usableCount? hn⟩
    show 0 < (usableCount? gpu.count).getD defaultGpus
    cases hcount : usableCount? gpu.count with
    | none => exact Nat.one_pos
    | some k => exact pos_of_usableCount? hcount

/-- A worker that a target asks for has a GPU, and cores if they are told. -/
theorem TargetDescription.pos_of_resolveWorker (h : target.resolveWorker p = .ok (some w)) :
    0 < w.gpuCount ∧ ∀ n, w.cores? = some n → 0 < n := by
  unfold resolveWorker at h
  split at h
  · cases h
  · exact WorkerInfo.pos_of_resolve h

end Target

/-! ## Layouts -/

/-- The executors of the layout have a GPU each, and share the cores of a worker. -/
structure Shape.LaysOut (s : Shape) (cores : ℕ) : Prop where
  numWorkers_pos : 1 ≤ s.numWorkers
  gpuCount_pos : 1 ≤ s.gpuCount
  coresPerExecutor_pos : 1 ≤ s.coresPerExecutor
  numExecutors_eq : s.numExecutors = min (s.numWorkers * s.gpuCount) max32
  /-- A GPU gets one core at least, even if there are fewer cores than GPUs. -/
  cores_le : s.coresPerExecutor * s.gpuCount ≤ max cores s.gpuCount

theorem share_mul_le (cores gpus : ℕ) : max (cores / gpus) 1 * gpus ≤ max cores gpus := by
  have hdiv : cores / gpus * gpus ≤ cores := Nat.div_mul_le_self cores gpus
  rcases Nat.le_total (cores / gpus) 1 with h | h
  · rw [Nat.max_eq_right h, Nat.one_mul]
    exact Nat.le_max_right _ _
  · rw [Nat.max_eq_left h]
    exact hdiv.trans (Nat.le_max_left _ _)

section Layout

variable {source : ResolvedCluster} {p : Platform} {w : TargetWorker} {strategy : SizingStrategy}
  {shape : Shape}

theorem shape?_eq_none_iff (worker : Option TargetWorker) :
    source.shape? worker strategy p = none ↔
      source.coresPerWorker = none ∧ worker.bind TargetWorker.cores? = none := by
  cases worker with
  | none => simp [ResolvedCluster.shape?, ResolvedCluster.ownShape?]
  | some w =>
    simp [ResolvedCluster.shape?, ResolvedCluster.targetShape?, Option.or_eq_none_iff, and_comm]

/-- Whatever the worker, the layout is on the platform's side, and an executor gets a core. -/
theorem shape?_keeps (worker : Option TargetWorker)
    (h : source.shape? worker strategy p = some shape) :
    1 ≤ shape.coresPerExecutor ∧ shape.isCloud = p.isCloud := by
  cases worker with
  | none =>
    obtain ⟨cores, -, rfl⟩ := Option.map_eq_some_iff.1 h
    exact ⟨Nat.le_max_right _ _, rfl⟩
  | some w =>
    obtain ⟨cores, -, rfl⟩ := Option.map_eq_some_iff.1 h
    refine ⟨?_, rfl⟩
    have hshare : 1 ≤ max (cores / max w.gpuCount 1) 1 := Nat.le_max_right _ _
    dsimp only
    -- The cap on machine types is far above one core.
    split
    · exact Nat.le_min.2 ⟨hshare, by decide⟩
    · exact hshare

/-- On the source cluster itself nothing changes. -/
theorem ownShape?_laysOut (hworkers : 0 < source.numWorkers) (hgpus : 0 < source.gpusPerWorker)
    (h : source.ownShape? p = some shape) :
    ∃ cores, source.coresPerWorker = some cores ∧ shape.LaysOut cores ∧
      shape.numWorkers = source.numWorkers ∧ shape.gpuCount = source.gpusPerWorker := by
  obtain ⟨cores, hcores, rfl⟩ := Option.map_eq_some_iff.1 h
  have hmax : max source.gpusPerWorker 1 = source.gpusPerWorker := Nat.max_eq_left hgpus
  refine ⟨cores, hcores, ⟨hworkers, Nat.le_max_right _ _, Nat.le_max_right _ _, rfl, ?_⟩, rfl, hmax⟩
  exact share_mul_le cores _

/-- The number of target workers is the least that holds the total that the strategy keeps. -/
theorem isLeast_targetWorkers {workers : ℕ} {kept layout : WorkerLayout} (hkept : 0 < kept.gpus)
    (hgpus : 0 < layout.gpus) (hcores : 0 < layout.cores) :
    (strategy = .constantGpus →
        IsLeast {n | 1 ≤ n ∧ min (workers * kept.gpus) max32 ≤ n * layout.gpus}
          (strategy.targetWorkers workers kept layout)) ∧
      (strategy = .constantCores →
        IsLeast {n | 1 ≤ n ∧ min (workers * kept.cores) max32 ≤ n * layout.cores}
          (strategy.targetWorkers workers kept layout)) := by
  constructor
  · rintro rfl
    have hleast := isLeast_groupsOf (cappedMul32 workers kept.gpus) hgpus
    rw [SizingStrategy.targetWorkers, Nat.max_eq_left hkept, Nat.max_eq_left hgpus]
    exact hleast
  · rintro rfl
    have hleast := isLeast_groupsOf (cappedMul32 workers kept.cores) hcores
    rw [SizingStrategy.targetWorkers, if_neg (Nat.pos_iff_ne_zero.1 hcores)]
    exact hleast

theorem one_le_targetWorkers (strategy : SizingStrategy) (workers : ℕ)
    (kept layout : WorkerLayout) : 1 ≤ strategy.targetWorkers workers kept layout := by
  cases strategy with
  | constantGpus => exact Nat.le_max_right _ _
  | constantCores =>
    unfold SizingStrategy.targetWorkers
    dsimp only
    split <;> exact Nat.le_max_right _ _

/-- A target gets executors for its own GPUs, as many as the strategy asks for. -/
theorem targetShape?_laysOut (hsource : 0 < source.gpusPerWorker) (hgpus : 0 < w.gpuCount)
    (hsourceCores : ∀ n, source.coresPerWorker = some n → 0 < n)
    (htargetCores : ∀ n, w.cores? = some n → 0 < n)
    (h : source.targetShape? w strategy p = some shape) :
    ∃ cores, w.cores?.or source.coresPerWorker = some cores ∧ shape.LaysOut cores ∧
      shape.gpuCount = w.gpuCount ∧
      (w.isMachine = true → p.isCloud = true → shape.coresPerExecutor ≤ 16) ∧
      (strategy = .constantGpus →
        IsLeast {n | 1 ≤ n ∧
            min (source.numWorkers * source.gpusPerWorker) max32 ≤ n * shape.gpuCount}
          shape.numWorkers) ∧
      (strategy = .constantCores →
        IsLeast {n | 1 ≤ n ∧
            min (source.numWorkers * source.coresPerWorker.getD cores) max32 ≤ n * cores}
          shape.numWorkers) := by
  have hkeeps := (shape?_keeps (some w) h).1
  obtain ⟨cores, hcores, rfl⟩ := Option.map_eq_some_iff.1 h
  have hmax : max w.gpuCount 1 = w.gpuCount := Nat.max_eq_left hgpus
  have hpos : 0 < cores := by
    rcases Option.or_eq_some_iff.1 hcores with htold | ⟨-, htold⟩
    · exact htargetCores cores htold
    · exact hsourceCores cores htold
  refine ⟨cores, hcores,
    ⟨one_le_targetWorkers _ _ _ _, Nat.le_max_right _ _, hkeeps, rfl, ?_⟩, hmax,
    fun hmachine hcloud => ?_, isLeast_targetWorkers hsource (Nat.le_max_right _ _) hpos⟩
  · refine le_trans (Nat.mul_le_mul_right _ ?_) (share_mul_le cores _)
    dsimp only
    split
    · exact Nat.min_le_left _ _
    · exact Nat.le_refl _
  · dsimp only
    rw [hmachine, hcloud]
    exact Nat.min_le_right _ _

end Layout

/-- The layout keeps the capacity of the source. There is none exactly if neither the target worker
nor the source has a positive number of cores. Otherwise its numbers are positive, there is an
executor for each GPU as far as a word can tell, and the executors of a worker use no more cores
than it has. A target gets the least number of workers that hold all GPUs, or all cores, of the
source; cores that one side does not tell are taken from the other. -/
theorem shape_keeps_capacity {K : Type} [Quantity K] {c : ClusterDescription} {p : Platform}
    {strategy : SizingStrategy} {target : TargetDescription K} {worker : Option TargetWorker}
    (hworker : target.resolveWorker p = .ok worker) :
    let source := c.resolve K p
    (source.shape? worker strategy p = none ↔
      (∀ n, c.systemInfo.numCores = some n → n = 0) ∧
        ∀ w n, worker = some w → w.cores? = some n → n = 0) ∧
    ∀ shape, source.shape? worker strategy p = some shape →
      ∃ cores, (worker.bind TargetWorker.cores?).or source.coresPerWorker = some cores ∧
        shape.LaysOut cores ∧
        (worker = none →
          shape.numWorkers = source.numWorkers ∧ shape.gpuCount = source.gpusPerWorker) ∧
        ∀ w, worker = some w →
          shape.gpuCount = w.gpuCount ∧
          (w.isMachine = true → p.isCloud = true → shape.coresPerExecutor ≤ 16) ∧
          (strategy = .constantGpus →
            IsLeast {n | 1 ≤ n ∧
                min (source.numWorkers * source.gpusPerWorker) max32 ≤ n * shape.gpuCount}
              shape.numWorkers) ∧
          (strategy = .constantCores →
            IsLeast {n | 1 ≤ n ∧
                min (source.numWorkers * source.coresPerWorker.getD cores) max32 ≤ n * cores}
              shape.numWorkers) := by
  intro source
  have hsourceCores : ∀ n, source.coresPerWorker = some n → 0 < n :=
    fun n hn => pos_of_usableCount? hn
  have hsourceGpus : 0 < source.gpusPerWorker := gpusPerWorker_resolve_pos K c p
  have htold : source.coresPerWorker = none ↔ ∀ n, c.systemInfo.numCores = some n → n = 0 :=
    usableCount?_eq_none_iff
  constructor
  · rw [shape?_eq_none_iff, htold]
    refine and_congr_right fun _ => ?_
    constructor
    · rintro hnone w n rfl hn
      cases hnone.symm.trans hn
    · intro hzero
      refine Option.eq_none_iff_forall_ne_some.2 fun n hn => ?_
      obtain ⟨w, rfl, hcores⟩ := Option.bind_eq_some_iff.1 hn
      have hpos := (TargetDescription.pos_of_resolveWorker hworker).2 n hcores
      have hn0 := hzero w n rfl hcores
      omega
  · intro shape hshape
    cases worker with
    | none =>
      obtain ⟨cores, hcores, hlaysOut, hsame⟩ :=
        ownShape?_laysOut (numWorkers_resolve_pos K c p) hsourceGpus hshape
      exact ⟨cores, hcores, hlaysOut, fun _ => hsame, fun _ h => by cases h⟩
    | some w =>
      obtain ⟨hgpus, htargetCores⟩ := TargetDescription.pos_of_resolveWorker hworker
      obtain ⟨cores, hcores, hlaysOut, hkept⟩ :=
        targetShape?_laysOut hsourceGpus hgpus hsourceCores htargetCores hshape
      refine ⟨cores, hcores, hlaysOut, fun h => (by cases h), fun w' hw' => ?_⟩
      cases hw'
      exact hkept

/-- Three workers of 16 cores and one GPU become two of a machine type with two GPUs. -/
theorem twoGpuMachine_keeps_capacity :
    let c : ClusterDescription := { system := some { numCores := some 16, numWorkers := some 3 } }
    let target : TargetDescription Rat :=
      { worker := some { instanceType := some "g2-standard-24" } }
    let w := TargetWorker.machine "g2-standard-24" ⟨24, 98304, 2, .l4⟩
    target.resolveWorker .dataproc = .ok (some w) ∧
      ∃ shape, (c.resolve Rat .dataproc).shape? (some w) .constantGpus .dataproc = some shape ∧
        shape.numWorkers = 2 ∧ IsLeast {n | 1 ≤ n ∧ 3 ≤ n * shape.gpuCount} shape.numWorkers := by
  intro c target w
  have hworker : target.resolveWorker .dataproc = .ok (some w) := by rfl
  refine ⟨hworker, _, rfl, by decide, ?_⟩
  obtain ⟨_, hshapes⟩ := @shape_keeps_capacity Rat _ c .dataproc .constantGpus target _ hworker
  obtain ⟨cores, -, -, -, hkept⟩ := hshapes _ rfl
  exact (hkept w rfl).2.2.1 rfl

end SparkTuner
