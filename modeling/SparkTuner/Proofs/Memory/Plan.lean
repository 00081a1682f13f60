import SparkTuner.Proofs.Memory.Exact

/-!
# Plans fit and are consistent

Whatever sizes were given, a plan fits into the usable memory of its container, its overhead covers
the pools, and the sizes that were given are kept (`plan_fits`).
-/

namespace SparkTuner.Memory

open Number

namespace Request

/-! ## The sizes of a plan -/

section Sizes

variable {K : Type} [Quantity K] (r : Request K)

/-- The second check is made for an overhead with room for everything that goes into it. -/
theorem pooled_le_overhead :
    r.baseOverhead + r.pinned + r.spill + (if r.inFlight then 4096 else 0) ≤ r.overhead :=
  Nat.le_max_left _ _

theorem enforcedOverhead_le_overhead {n : ℕ} (h : r.enforcedOverhead = some n) :
    n ≤ r.overhead := by
  unfold overhead
  rw [h]
  exact Nat.le_max_right _ _

/-- A heap that was not given lies between what the cores need and what they can use. -/
theorem heap_bounds {r : Request K} (h : r.enforcedHeap = none) :
    750 * max r.cores 1 ≤ r.heap ∧ r.heap ≤ 2048 * max r.cores 1 := by
  rw [heap_eq_of_none h]
  have hbudget := heapBudget_le r
  omega

theorem inFlight_only (h : r.inFlight = true) : r.isCloud = true ∧ 16 ≤ r.cores := by
  simp only [inFlight, wantsInFlight, Bool.and_eq_true, decide_eq_true_eq] at h
  exact h.1

end Sizes

/-! ## Fitting -/

/-- The memory of a plan is the heap, what goes beside it, and an overhead that is left. -/
theorem fits_of_overhead_le {r : Request ℚ} {overhead : ℕ} (hfirst : r.failsFirst = false)
    (h : overhead ≤ r.left) : (r.fixed + overhead : ℚ) ≤ r.usable := by
  have hfixed : (r.fixed : ℚ) ≤ r.usable := by
    have hsum := (not_failsFirst_iff r).1 hfirst
    push_cast at hsum
    have : (0 : ℚ) ≤ r.leastOverhead := Nat.cast_nonneg _
    linarith
  have hleft := fixed_add_left_le hfixed
  have : (overhead : ℚ) ≤ r.left := by exact_mod_cast h
  linarith

end Request

open Request

/-- A plan fits into the usable part of its container and is consistent: the overhead covers a tenth
of the heap, the pools and the room for bytes in flight, the sizes that were given are kept, and a
heap that was not given suits the cores. -/
theorem plan_fits {r : Request ℚ} {p : Plan} (hwords : r.staysInWords = true)
    (h : r.budget = .planned p) :
    (p.heap + p.overhead + r.offHeap + r.pyspark : ℚ) ≤ r.container * r.share ∧
      p.heap / 10 + p.pinned + p.spill + (if p.inFlight then 4096 else 0) ≤ p.overhead ∧
      (∀ n, r.enforcedHeap = some n → p.heap = n) ∧
      (∀ n, r.enforcedPinned = some n → p.pinned = n) ∧
      (∀ n, r.enforcedSpill = some n → p.spill = n) ∧
      (∀ n, r.enforcedOverhead = some n → n ≤ p.overhead) ∧
      (r.enforcedHeap = none →
        750 * max r.cores 1 ≤ p.heap ∧ p.heap ≤ 2048 * max r.cores 1) ∧
      (p.inFlight = true → r.isCloud = true ∧ 16 ≤ r.cores) := by
  have hbase : r.baseOverhead = r.heap / 10 := baseOverhead_eq (heap_le_max64 hwords)
  obtain ⟨hfirst, ⟨hsecond, rfl⟩ | ⟨-, hfree, rfl⟩⟩ := planned_cases h
  · refine ⟨?_, ?_, ?_, ?_, ?_, ?_, heap_bounds, inFlight_only r⟩
    · have hfits := fits_of_overhead_le hfirst ((not_failsSecond_iff r).1 hsecond)
      rw [usable_eq] at hfits
      simp only [fixed, Nat.cast_add] at hfits
      linarith
    · exact hbase ▸ pooled_le_overhead r
    · intro n hn; simp [heap, hn]
    · intro n hn; simp [pinned, hn]
    · intro n hn; simp [spill, hn]
    · intro n hn; exact enforcedOverhead_le_overhead r hn
  · -- The default pools: nothing was given, and the first check was made for this very overhead.
    obtain ⟨hheap, hoverhead, hpinned, hspill⟩ := anyEnforced_eq_false hfree
    refine ⟨?_, ?_, ?_, ?_, ?_, ?_, heap_bounds, ?_⟩
    · have hfits := (not_failsFirst_iff r).1 hfirst
      rw [usable_eq] at hfits
      simp only [fixed, leastOverhead, hoverhead, Option.getD_none, Nat.cast_add] at hfits
      linarith
    · simp [defaultOverhead, hbase, defaultPools, add_assoc]
    · intro n hn; rw [hheap] at hn; cases hn
    · intro n hn; rw [hpinned] at hn; cases hn
    · intro n hn; rw [hspill] at hn; cases hn
    · intro n hn; rw [hoverhead] at hn; cases hn
    · intro hf; cases hf

/-- The sizes of a plan are words. -/
theorem plan_le_max64 {r : Request ℚ} {p : Plan} (hwords : r.staysInWords = true)
    (h : r.budget = .planned p) :
    p.heap ≤ max64 ∧ p.overhead ≤ max64 ∧ p.pinned ≤ max64 ∧ p.spill ≤ max64 := by
  have hheap : r.heap ≤ max64 := heap_le_max64 hwords
  have hdefault : r.defaultOverhead ≤ max64 := le_max64_of_mem_sums hwords (by simp [sums])
  obtain ⟨hfirst, ⟨hsecond, rfl⟩ | ⟨-, -, rfl⟩⟩ := planned_cases h
  · have hleft : r.left ≤ max64 := floorWord_le_max64 _
    have hoverhead : r.overhead ≤ r.left := (not_failsSecond_iff r).1 hsecond
    have hpools := pooled_le_overhead r
    dsimp only
    omega
  · have hpinned : defaultPinned ≤ max64 := by decide
    have hspill : defaultSpill ≤ max64 := by decide
    exact ⟨hheap, hdefault, hpinned, hspill⟩

/-- Sixteen cores on a cloud whose heap was given. -/
def Request.givenHeap : Request ℚ :=
  { cores := 16, container := 98304, share := 4 / 5, isCloud := true, enforcedHeap := some 20000 }

theorem givenHeap_fits :
    givenHeap.budget = .planned ⟨20000, 14288, 4096, 4096, true⟩ ∧
      (20000 + 14288 + 0 + 0 : ℚ) ≤ 98304 * (4 / 5) := by
  have hplan : givenHeap.budget = .planned ⟨20000, 14288, 4096, 4096, true⟩ := by decide +kernel
  exact ⟨hplan, by simpa [givenHeap] using (plan_fits (by decide +kernel) hplan).1⟩

end SparkTuner.Memory
