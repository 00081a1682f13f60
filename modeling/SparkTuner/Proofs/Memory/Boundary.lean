import Mathlib.Data.Nat.Cast.Order.Field
import SparkTuner.Proofs.Memory.Container
import SparkTuner.Proofs.Memory.Exact

/-!
# The feasibility boundary of requests without given sizes

When no size is given, a request fits exactly from one usable size on (`need`), and more memory
never makes a plan smaller. The heap grows with the container in a middle region only: there a tenth
of it and the default pools use up what is left but for one MiB at most (`left_le_of_heap_lt`), so
that the pools start to grow when the heap no longer does.
-/

namespace SparkTuner.Memory

open Number

/-- No size of `p` is larger than that of `q`, which has room for bytes in flight if `p` has. -/
structure Plan.IsBelow (p q : Plan) : Prop where
  heap_le : p.heap ≤ q.heap
  overhead_le : p.overhead ≤ q.overhead
  pinned_le : p.pinned ≤ q.pinned
  spill_le : p.spill ≤ q.spill
  inFlight_kept : p.inFlight = true → q.inFlight = true

namespace Request

/-- The same request in another container. -/
def within {K : Type} (r : Request K) (container : K) : Request K := { r with container }

/-- The usable memory from which a request without given sizes fits. -/
def need {K : Type} (r : Request K) : ℕ :=
  825 * max r.cores 1 + r.offHeap + r.pyspark + 2048

section Free

variable {r : Request ℚ}

/-! ## The heap -/

theorem heapBudget_eq (r : Request ℚ) :
    r.heapBudget =
      min (2048 * r.cores) (Quantity.floorWord ((r.usable - (r.reserved : ℕ)) / (11 / 10))) := by
  unfold heapBudget
  have htenth : (Quantity.ofNat 1 + Quantity.tenth : ℚ) = 11 / 10 := by
    show ((1 : ℕ) : ℚ) + ((1 : ℕ) : ℚ) / ((10 : ℕ) : ℚ) = 11 / 10
    norm_num
  rw [htenth]
  rfl

/-- A heap that was chosen fits together with a tenth of it. -/
theorem heapBudget_fits (h : 0 < r.heapBudget) :
    (r.heapBudget * (11 / 10) : ℚ) ≤ r.usable - r.reserved := by
  rw [heapBudget_eq] at h ⊢
  set q : ℚ := (r.usable - (r.reserved : ℕ)) / (11 / 10) with hq
  have hpos : 0 ≤ q := by
    by_contra hneg
    rw [floorWord_eq_zero (not_le.1 hneg).le] at h
    omega
  have hle : ((min (2048 * r.cores) (Quantity.floorWord q) : ℕ) : ℚ) ≤ q := by
    refine le_trans ?_ (floorWord_le hpos)
    exact_mod_cast Nat.min_le_right _ _
  rw [hq, le_div_iff₀ (by norm_num)] at hle
  exact hle

/-- A heap below every bound leaves no room for one more MiB of it. -/
theorem lt_of_heapBudget_lt (hcores : r.heapBudget < 2048 * r.cores)
    (hword : r.heapBudget < max64) :
    r.usable - r.reserved < (r.heapBudget + 1) * (11 / 10) := by
  rw [heapBudget_eq] at hcores hword ⊢
  set q : ℚ := (r.usable - (r.reserved : ℕ)) / (11 / 10) with hq
  have hmin : min (2048 * r.cores) (Quantity.floorWord q) = Quantity.floorWord q := by omega
  rw [hmin] at hword ⊢
  have hlt := lt_floorWord_add_one hword
  rw [hq, div_lt_iff₀ (by norm_num)] at hlt
  exact hlt

end Free

/-! ## Other containers -/

/-- A given heap is the same in every container. -/
theorem heap_within_of_given {r : Request ℚ} {given : ℕ} (h : r.enforcedHeap = some given) (x : ℚ) :
    (r.within x).heap = r.heap := by
  have hwithin : (r.within x).enforcedHeap = some given := h
  rw [heap, heap, h, hwithin, Option.getD_some, Option.getD_some]

section Within

variable {r : Request ℚ} (hpos : 0 < r.share)

include hpos

theorem usable_le_within {x : ℚ} (hx : r.container ≤ x) : r.usable ≤ (r.within x).usable :=
  mul_le_mul_of_nonneg_right hx hpos.le

/-- A larger container never leads to a smaller heap. -/
theorem heap_le_within {x : ℚ} (hx : r.container ≤ x) : r.heap ≤ (r.within x).heap := by
  cases hgiven : r.enforcedHeap with
  | some given => exact (heap_within_of_given hgiven x).ge
  | none =>
    have husable := usable_le_within hpos hx
    have hbudget : r.heapBudget ≤ (r.within x).heapBudget := by
      rw [heapBudget_eq, heapBudget_eq]
      refine min_le_min_left _ (floorWord_mono ?_)
      rw [div_le_div_iff_of_pos_right (by norm_num)]
      exact sub_le_sub_right husable _
    rw [heap_eq_of_none hgiven, heap_eq_of_none (r := r.within x) hgiven]
    exact max_le_max_right _ hbudget

/-- The container found for a size is the least whole one whose usable share reaches it. -/
theorem isLeast_containerFor {size : ℕ} (hword : r.containerFor size ≤ max64) :
    IsLeast {m : ℕ | (size : ℚ) ≤ m * r.share} (r.containerFor size) := by
  have hset : {m : ℕ | (size : ℚ) ≤ m * r.share} =
      {m : ℕ | decide ((Quantity.ofNat size : ℚ) ≤ Quantity.ofNat m * r.share) = true} := by
    ext m
    rw [Set.mem_ofPred_eq, Set.mem_ofPred_eq, decide_eq_true_eq]
    rfl
  rw [hset]
  refine isLeast_correct (fun m => ?_) (fun m n hmn hm => ?_) hword
  · rw [← decide_not, decide_eq_decide]
    exact not_le.symm
  · rw [decide_eq_true_eq] at hm ⊢
    have hcast : (m : ℚ) ≤ n := by exact_mod_cast hmn
    exact hm.trans (mul_le_mul_of_nonneg_right hcast hpos.le)

end Within

/-- No size is given, and the heap that the cores need fits a word. -/
structure IsFree (r : Request ℚ) : Prop where
  free : r.anyEnforced = false
  cores_fit : 750 * max r.cores 1 ≤ max64

namespace IsFree

variable {r : Request ℚ}

theorem of_staysInWords (hfree : r.anyEnforced = false) (hwords : r.staysInWords = true) :
    r.IsFree := by
  refine ⟨hfree, le_trans ?_ (heap_le_max64 hwords)⟩
  rw [heap_eq_of_none (anyEnforced_eq_false hfree).1]
  exact Nat.le_max_right _ _

theorem within (h : r.IsFree) (container : ℚ) : (r.within container).IsFree := ⟨h.free, h.cores_fit⟩

theorem heap_eq (h : r.IsFree) : r.heap = max r.heapBudget (750 * max r.cores 1) :=
  heap_eq_of_none (anyEnforced_eq_false h.free).1

theorem heap_le (h : r.IsFree) : r.heap ≤ max64 := by
  rw [h.heap_eq]
  exact max_le ((Nat.min_le_right _ _).trans (floorWord_le_max64 _)) h.cores_fit

theorem base_eq (h : r.IsFree) : r.baseOverhead = r.heap / 10 := baseOverhead_eq h.heap_le

theorem leastOverhead_eq (h : r.IsFree) : r.leastOverhead = r.heap / 10 + 2048 := by
  rw [leastOverhead, (anyEnforced_eq_false h.free).2.1, Option.getD_none, defaultOverhead,
    h.base_eq]
  rfl

theorem pinned_eq (h : r.IsFree) : r.pinned = min ((r.left - r.heap / 10) / 2) 4096 := by
  rw [pinned, (anyEnforced_eq_false h.free).2.2.1, Option.getD_none, h.base_eq]
  rfl

theorem spill_eq (h : r.IsFree) : r.spill = r.pinned := by
  rw [spill, (anyEnforced_eq_false h.free).2.2.2, Option.getD_none]

theorem inFlight_iff (h : r.IsFree) :
    r.inFlight = true ↔
      r.wantsInFlight = true ∧ r.heap / 10 + 2 * r.pinned + 4096 ≤ r.left := by
  simp only [inFlight, Bool.and_eq_true, decide_eq_true_eq, pooled, h.base_eq, h.spill_eq,
    inFlightRoom]
  constructor <;> rintro ⟨hwant, hroom⟩ <;> exact ⟨hwant, by omega⟩

theorem overhead_eq (h : r.IsFree) :
    r.overhead = r.heap / 10 + 2 * r.pinned + if r.inFlight then 4096 else 0 := by
  rw [overhead, (anyEnforced_eq_false h.free).2.1, pooled, h.base_eq, h.spill_eq, inFlightRoom,
    Option.getD_none]
  omega

/-! ## The first check -/

/-- The heap that was chosen and a tenth of it fit as soon as the boundary is reached. -/
theorem fits_of_need_le (h : r.IsFree) (hneed : (r.need : ℚ) ≤ r.usable) :
    ((r.fixed + r.leastOverhead : ℕ) : ℚ) ≤ r.usable := by
  rw [h.leastOverhead_eq, fixed]
  have htenth : ((r.heap / 10 : ℕ) : ℚ) ≤ r.heap / 10 := by exact_mod_cast Nat.cast_div_le
  unfold need at hneed
  push_cast at hneed ⊢
  rcases max_choice r.heapBudget (750 * max r.cores 1) with hmax | hmax
  · have hheap : r.heap = r.heapBudget := h.heap_eq.trans hmax
    have hpos : 0 < r.heapBudget := by
      have := le_max_right r.heapBudget (750 * max r.cores 1)
      omega
    have hfits := heapBudget_fits hpos
    simp only [reserved, defaultPools, defaultPinned, defaultSpill] at hfits
    push_cast at hfits
    rw [hheap] at htenth ⊢
    linarith
  · have hheap : (r.heap : ℚ) = 750 * max (r.cores : ℚ) 1 := by
      rw [h.heap_eq, hmax]
      push_cast
      rfl
    rw [hheap] at htenth
    linarith

/-- The cores alone need as much as the boundary says. -/
theorem need_le_fixed (h : r.IsFree) : r.need ≤ r.fixed + r.leastOverhead := by
  rw [h.leastOverhead_eq, fixed, need]
  have hheap : 750 * max r.cores 1 ≤ r.heap := by
    rw [h.heap_eq]
    exact Nat.le_max_right _ _
  omega

theorem failsFirst_iff_lt_need (h : r.IsFree) : r.failsFirst = true ↔ r.usable < r.need := by
  rw [failsFirst_iff]
  constructor
  · intro hlt
    by_contra hge
    exact absurd (h.fits_of_need_le (not_lt.1 hge)) (not_le.2 hlt)
  · intro hlt
    exact hlt.trans_le (by exact_mod_cast h.need_le_fixed)

/-- A request that fails asks for the least heap of its cores: a larger one would have fitted. -/
theorem fixed_eq_need (h : r.IsFree) (hlt : r.usable < r.need) :
    r.fixed + r.leastOverhead = r.need := by
  have hheap : r.heap = 750 * max r.cores 1 := by
    rw [h.heap_eq]
    refine max_eq_right (not_lt.1 fun hlarge => ?_)
    have hfits := heapBudget_fits (r := r) (by omega)
    have hlarge' : (750 * max (r.cores : ℚ) 1) < r.heapBudget := by exact_mod_cast hlarge
    simp only [reserved, defaultPools, defaultPinned, defaultSpill] at hfits
    unfold need at hlt
    push_cast at hfits hlt
    linarith
  rw [h.leastOverhead_eq, fixed, need, hheap]
  omega

/-! ## The second check -/

/-- From the boundary on, the default pools are left beside the base overhead. -/
theorem pools_le_left (h : r.IsFree) (hneed : (r.need : ℚ) ≤ r.usable) :
    r.heap / 10 + 2048 ≤ r.left := by
  have hword : r.heap / 10 + 2048 ≤ max64 := by
    have := h.heap_le
    unfold max64 at this ⊢
    omega
  refine le_floorWord hword ?_
  have hfits := h.fits_of_need_le hneed
  rw [h.leastOverhead_eq] at hfits
  rw [ofNat_eq]
  push_cast at hfits ⊢
  linarith

/-- The pools take at most what is left. -/
theorem overhead_le_left (h : r.IsFree) (hneed : (r.need : ℚ) ≤ r.usable) :
    r.overhead ≤ r.left := by
  have hspare := h.pools_le_left hneed
  rw [h.overhead_eq]
  split
  next hflight => exact ((h.inFlight_iff).1 hflight).2
  next =>
    rw [h.pinned_eq]
    omega

/-- From the boundary on a request gets the sizes that were computed, below it none. -/
theorem budget_of_need_le (h : r.IsFree) (hneed : (r.need : ℚ) ≤ r.usable) :
    r.budget = .planned ⟨r.heap, r.overhead, r.pinned, r.spill, r.inFlight⟩ := by
  have hfirst := (not_failsFirst_iff r).2 (h.fits_of_need_le hneed)
  have hsecond := (not_failsSecond_iff r).2 (h.overhead_le_left hneed)
  simp [budget, hfirst, hsecond]

theorem budget_of_lt_need (h : r.IsFree) (hlt : r.usable < r.need) :
    r.budget = .short (r.containerFor r.need) := by
  have hfirst := h.failsFirst_iff_lt_need.2 hlt
  simp [budget, hfirst, h.fixed_eq_need hlt]

theorem planned_iff (h : r.IsFree) : (∃ p, r.budget = .planned p) ↔ (r.need : ℚ) ≤ r.usable := by
  refine ⟨fun ⟨p, hp⟩ => ?_, fun hneed => ⟨_, h.budget_of_need_le hneed⟩⟩
  by_contra hlt
  rw [h.budget_of_lt_need (not_le.1 hlt)] at hp
  cases hp

theorem short_iff (h : r.IsFree) : (∃ n, r.budget = .short n) ↔ r.usable < r.need := by
  refine ⟨fun ⟨n, hn⟩ => ?_, fun hlt => ⟨_, h.budget_of_lt_need hlt⟩⟩
  by_contra hge
  rw [h.budget_of_need_le (not_lt.1 hge)] at hn
  cases hn

/-- The container that is asked for is the least whole one that fits. -/
theorem isLeast_planned (h : r.IsFree) (hpos : 0 < r.share)
    (hword : r.containerFor r.need ≤ max64) :
    IsLeast {m : ℕ | ∃ p, (r.within m).budget = .planned p} (r.containerFor r.need) := by
  have hset : {m : ℕ | ∃ p, (r.within m).budget = .planned p} =
      {m : ℕ | (r.need : ℚ) ≤ m * r.share} := by
    ext m
    exact (h.within m).planned_iff
  rw [hset]
  exact isLeast_containerFor hpos hword

/-! ## Growing containers -/

/-- While the heap can still grow, what is left holds the base overhead, the default pools and at
most one MiB. -/
theorem left_le_of_heap_lt (h : r.IsFree) {x : ℚ} (hlt : r.heap < (r.within x).heap) :
    r.left ≤ r.heap / 10 + 2049 := by
  rw [h.heap_eq, (h.within x).heap_eq] at hlt
  have hgrows : r.heapBudget < (r.within x).heapBudget := by
    have hcores : (r.within x).cores = r.cores := rfl
    rw [hcores] at hlt
    omega
  have hcores : r.heapBudget < 2048 * r.cores :=
    hgrows.trans_le (heapBudget_le (r.within x))
  have hword : r.heapBudget < max64 :=
    hgrows.trans_le ((Nat.min_le_right _ _).trans (floorWord_le_max64 _))
  -- One more MiB of heap and its tenth would not have fitted.
  have hnext := lt_of_heapBudget_lt hcores hword
  have hheap : (r.heapBudget : ℚ) ≤ r.heap := by
    rw [h.heap_eq]
    exact_mod_cast Nat.le_max_left _ _
  rcases Nat.eq_zero_or_pos r.left with hzero | hpos
  · omega
  · have hleft : (r.left : ℚ) ≤ r.usable - r.fixed := by
      refine floorWord_le ?_
      by_contra hneg
      have : r.left = 0 := floorWord_eq_zero (not_le.1 hneg).le
      omega
    have hten : (10 * r.left : ℚ) < r.heap + 20491 := by
      simp only [reserved, defaultPools, defaultPinned, defaultSpill] at hnext
      simp only [fixed] at hleft
      push_cast at hnext hleft
      linarith
    have hten' : 10 * r.left < r.heap + 20491 := by exact_mod_cast hten
    omega

/-- In a larger container of the same heap at least as much is left. -/
theorem left_le_within (hpos : 0 < r.share) {x : ℚ} (hx : r.container ≤ x)
    (hheap : r.heap = (r.within x).heap) : r.left ≤ (r.within x).left := by
  have husable := usable_le_within hpos hx
  have hfixed : (r.within x).fixed = r.fixed := by
    rw [fixed, fixed, hheap]
    rfl
  rw [left, left, hfixed]
  exact floorWord_mono (sub_le_sub_right husable _)

/-- The heap grows only as long as the pools have their default sizes. -/
theorem sizes_of_heap_lt (h : r.IsFree) {x : ℚ} (hneed : (r.need : ℚ) ≤ r.usable)
    (hlt : r.heap < (r.within x).heap) :
    r.pinned = 1024 ∧ r.inFlight = false ∧ r.overhead = r.heap / 10 + 2048 := by
  have hleast := h.pools_le_left hneed
  have hmost := h.left_le_of_heap_lt hlt
  have hpinned : r.pinned = 1024 := by
    rw [h.pinned_eq]
    omega
  have hflight : r.inFlight = false := by
    refine Bool.eq_false_iff.2 fun hflight => ?_
    have hroom := (h.inFlight_iff.1 hflight).2
    omega
  refine ⟨hpinned, hflight, ?_⟩
  rw [h.overhead_eq, hpinned, hflight]
  rfl

theorem pinned_le_within (h : r.IsFree) (hpos : 0 < r.share) {x : ℚ} (hx : r.container ≤ x)
    (hheap : r.heap = (r.within x).heap) : r.pinned ≤ (r.within x).pinned := by
  have hleft := left_le_within hpos hx hheap
  rw [h.pinned_eq, (h.within x).pinned_eq, ← hheap]
  omega

/-- Room for bytes in flight is there beside full pools only, and with more left both stay. -/
theorem inFlight_within (h : r.IsFree) (hpos : 0 < r.share) {x : ℚ} (hx : r.container ≤ x)
    (hheap : r.heap = (r.within x).heap) (hflight : r.inFlight = true) :
    (r.within x).inFlight = true := by
  have hleft := left_le_within hpos hx hheap
  obtain ⟨hwant, hroom⟩ := h.inFlight_iff.1 hflight
  refine (h.within x).inFlight_iff.2 ⟨hwant, ?_⟩
  rw [h.pinned_eq] at hroom
  rw [(h.within x).pinned_eq, ← hheap]
  omega

/-- No size of a plan gets smaller in a larger container. -/
theorem isBelow_within (h : r.IsFree) (hpos : 0 < r.share) {x : ℚ} (hx : r.container ≤ x)
    (hneed : (r.need : ℚ) ≤ r.usable) :
    Plan.IsBelow ⟨r.heap, r.overhead, r.pinned, r.spill, r.inFlight⟩
      ⟨(r.within x).heap, (r.within x).overhead, (r.within x).pinned, (r.within x).spill,
        (r.within x).inFlight⟩ := by
  have hx' := h.within x
  simp only [h.spill_eq, hx'.spill_eq]
  rcases (heap_le_within hpos hx).lt_or_eq with hlt | heq
  · -- The smaller plan has the default pools, and the larger one no smaller ones.
    obtain ⟨hpinned, hflight, hoverhead⟩ := h.sizes_of_heap_lt hneed hlt
    have hneed' : ((r.within x).need : ℚ) ≤ (r.within x).usable :=
      hneed.trans (usable_le_within hpos hx)
    have hpools := hx'.pools_le_left hneed'
    have hpinned' : 1024 ≤ (r.within x).pinned := by
      rw [hx'.pinned_eq]
      omega
    have hoverhead' := hx'.overhead_eq
    refine ⟨hlt.le, ?_, ?_, ?_, fun hkept => ?_⟩
    · show r.overhead ≤ (r.within x).overhead
      omega
    · exact hpinned ▸ hpinned'
    · exact hpinned ▸ hpinned'
    · rw [hflight] at hkept
      cases hkept
  · -- The heap is the same, and all that is left more goes to the pools and the bytes in flight.
    have hpinned := h.pinned_le_within hpos hx heq
    have hflight := h.inFlight_within hpos hx heq
    refine ⟨heq.le, ?_, hpinned, hpinned, hflight⟩
    show r.overhead ≤ (r.within x).overhead
    rw [h.overhead_eq, hx'.overhead_eq, ← heq]
    cases hr : r.inFlight with
    | false =>
      rw [if_neg (by simp)]
      omega
    | true =>
      rw [if_pos rfl, if_pos (hflight hr)]
      omega

end IsFree

end Request

open Request

/-- Without given sizes the boundary of what fits is exact and plans grow with the container: only
the first check can fail, it fails exactly below what the least heap of the cores needs, the
container that is then asked for is the least whole one that fits, and whatever fits also fits in a
larger container, with a plan no size of which is smaller. -/
theorem boundary_exact_and_monotone {r : Request ℚ} (hfree : r.anyEnforced = false)
    (hpos : 0 < r.share) (hwords : r.staysInWords = true) :
    (r.failsFirst = false → r.failsSecond = false) ∧
      ((∃ n, r.budget = .short n) ↔
        r.container * r.share < (825 * max r.cores 1 + r.offHeap + r.pyspark + 2048 : ℕ)) ∧
      (∀ n, r.budget = .short n →
        IsLeast {m : ℕ | ∃ p, (r.within m).budget = .planned p} n) ∧
      (∀ p, r.budget = .planned p → ∀ x, r.container ≤ x →
        ∃ q, (r.within x).budget = .planned q ∧ p.IsBelow q) := by
  have h := IsFree.of_staysInWords hfree hwords
  refine ⟨fun hfirst => ?_, h.short_iff, fun n hn => ?_, fun p hp x hx => ?_⟩
  · have hneed : (r.need : ℚ) ≤ r.usable := by
      by_contra hlt
      rw [h.failsFirst_iff_lt_need.2 (not_le.1 hlt)] at hfirst
      cases hfirst
    exact (not_failsSecond_iff r).2 (h.overhead_le_left hneed)
  · have hlt := h.short_iff.1 ⟨n, hn⟩
    have hword := containerFor_le hwords (h.failsFirst_iff_lt_need.2 hlt)
    rw [h.fixed_eq_need hlt] at hword
    rw [h.budget_of_lt_need hlt] at hn
    cases hn
    exact h.isLeast_planned hpos hword
  · have hneed := h.planned_iff.1 ⟨p, hp⟩
    have hneed' : ((r.within x).need : ℚ) ≤ (r.within x).usable :=
      hneed.trans (usable_le_within hpos hx)
    rw [h.budget_of_need_le hneed] at hp
    cases hp
    exact ⟨_, (h.within x).budget_of_need_le hneed', h.isBelow_within hpos hx hneed⟩

/-- Eight cores in a container that is just too small. -/
def Request.eightCores : Request ℚ := { cores := 8, container := 10809, share := 4 / 5 }

theorem eightCores_boundary :
    eightCores.budget = .short 10810 ∧
      IsLeast {m : ℕ | ∃ p, (eightCores.within m).budget = .planned p} 10810 := by
  have hshort : eightCores.budget = .short 10810 := by decide +kernel
  have hpos : 0 < eightCores.share := by decide +kernel
  exact ⟨hshort,
    (boundary_exact_and_monotone rfl hpos (by decide +kernel)).2.2.1 _ hshort⟩

end SparkTuner.Memory
