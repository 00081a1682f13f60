import Mathlib.Algebra.Order.Floor.Semifield
import Mathlib.Data.Rat.Floor
import Mathlib.Tactic.Linarith
import Mathlib.Tactic.NormNum
import SparkTuner.Memory.Budget

/-!
# Requests in exact arithmetic

What the steps of a budget compute when containers and shares are rational numbers. Whole parts end
in a 64-bit word, so each of them is bounded from above without a condition, and from below as long
as it does not fill the word.
-/

namespace SparkTuner.Memory

open Number

/-! ## Whole parts -/

theorem floorWord_eq (q : ℚ) : Quantity.floorWord q = min ⌊q⌋₊ max64 := rfl

@[simp] theorem ofNat_eq (n : ℕ) : (Quantity.ofNat n : ℚ) = n := rfl

theorem floorWord_le_max64 (q : ℚ) : Quantity.floorWord q ≤ max64 := clampWord_le _

theorem floorWord_le {q : ℚ} (h : 0 ≤ q) : (Quantity.floorWord q : ℚ) ≤ q := by
  have hfloor : (Quantity.floorWord q : ℚ) ≤ (⌊q⌋₊ : ℚ) := by
    exact_mod_cast Nat.min_le_left ⌊q⌋₊ max64
  exact hfloor.trans (Nat.floor_le h)

theorem le_floorWord {n : ℕ} {q : ℚ} (hn : n ≤ max64) (h : (n : ℚ) ≤ q) :
    n ≤ Quantity.floorWord q :=
  le_min (Nat.le_floor h) hn

/-- A whole part that does not fill the word is less than one below. -/
theorem lt_floorWord_add_one {q : ℚ} (h : Quantity.floorWord q < max64) :
    q < Quantity.floorWord q + 1 := by
  have heq : Quantity.floorWord q = ⌊q⌋₊ := by
    rw [floorWord_eq] at h ⊢
    omega
  rw [heq]
  exact Nat.lt_floor_add_one q

theorem floorWord_mono {p q : ℚ} (h : p ≤ q) : Quantity.floorWord p ≤ Quantity.floorWord q :=
  min_le_min_right _ (Nat.floor_le_floor h)

theorem floorWord_eq_zero {q : ℚ} (h : q ≤ 0) : Quantity.floorWord q = 0 := by
  rw [floorWord_eq, Nat.floor_of_nonpos h]
  rfl

/-- A tenth of a whole number. -/
theorem floorWord_tenth {n : ℕ} (h : n ≤ max64) :
    Quantity.floorWord ((n : ℚ) * Quantity.tenth) = n / 10 := by
  have hquot : (n : ℚ) * Quantity.tenth = (n : ℚ) / (10 : ℕ) := by
    show (n : ℚ) * ((1 : ℕ) / (10 : ℕ)) = _
    push_cast
    ring
  rw [floorWord_eq, hquot, Nat.floor_div_natCast, Nat.floor_natCast]
  omega

/-! ## Steps of a budget -/

namespace Request

theorem usable_eq (r : Request ℚ) : r.usable = r.container * r.share := rfl

theorem failsFirst_iff (r : Request ℚ) :
    r.failsFirst = true ↔ r.usable < (r.fixed + r.leastOverhead : ℕ) := by
  simp only [failsFirst, decide_eq_true_eq]
  rfl

theorem not_failsFirst_iff (r : Request ℚ) :
    r.failsFirst = false ↔ ((r.fixed + r.leastOverhead : ℕ) : ℚ) ≤ r.usable := by
  rw [← Bool.not_eq_true, failsFirst_iff, not_lt]

theorem not_failsSecond_iff (r : Request ℚ) : r.failsSecond = false ↔ r.overhead ≤ r.left := by
  simp [failsSecond]

theorem baseOverhead_eq {r : Request ℚ} (h : r.heap ≤ max64) : r.baseOverhead = r.heap / 10 :=
  floorWord_tenth h

/-- What is left for the overhead fits into the usable memory. -/
theorem fixed_add_left_le {r : Request ℚ} (h : (r.fixed : ℚ) ≤ r.usable) :
    (r.fixed + r.left : ℚ) ≤ r.usable := by
  have hleft : (r.left : ℚ) ≤ r.usable - r.fixed := floorWord_le (sub_nonneg.2 h)
  linarith

/-- Without a size that was given, none of the four is. -/
theorem anyEnforced_eq_false {K : Type} {r : Request K} (h : r.anyEnforced = false) :
    r.enforcedHeap = none ∧ r.enforcedOverhead = none ∧ r.enforcedPinned = none ∧
      r.enforcedSpill = none := by
  simpa [anyEnforced, and_assoc] using h

/-- The heap within the least and the most that the cores ask for, unless it is given. -/
theorem heap_eq_of_none {K : Type} [Quantity K] {r : Request K} (h : r.enforcedHeap = none) :
    r.heap = max r.heapBudget (750 * max r.cores 1) := by
  rw [heap, h]
  rfl

theorem heapBudget_le {K : Type} [Quantity K] (r : Request K) : r.heapBudget ≤ 2048 * r.cores :=
  Nat.min_le_left _ _

end Request

/-! ## Outcomes -/

namespace Request

variable {K : Type} [Quantity K] {r : Request K}

/-- A plan comes from passing both checks, or from the default pools when only the second one fails
and no size was given. -/
theorem planned_cases {p : Plan} (h : r.budget = .planned p) :
    r.failsFirst = false ∧
      (r.failsSecond = false ∧ p = ⟨r.heap, r.overhead, r.pinned, r.spill, r.inFlight⟩ ∨
        r.failsSecond = true ∧ r.anyEnforced = false ∧
          p = ⟨r.heap, r.defaultOverhead, defaultPinned, defaultSpill, false⟩) := by
  unfold budget at h
  split at h
  next => cases h
  next hfirst =>
    refine ⟨Bool.eq_false_iff.2 hfirst, ?_⟩
    split at h
    next hsecond =>
      split at h
      next => cases h
      next hany =>
        cases h
        exact Or.inr ⟨hsecond, Bool.eq_false_iff.2 hany, rfl⟩
    next hsecond =>
      cases h
      exact Or.inl ⟨Bool.eq_false_iff.2 hsecond, rfl⟩

/-- A shortfall comes from a check that fails, the second one only when a size was given. -/
theorem short_cases {n : Nat} (h : r.budget = .short n) :
    r.failsFirst = true ∧ n = r.containerFor (r.fixed + r.leastOverhead) ∨
      r.failsFirst = false ∧ r.failsSecond = true ∧ r.anyEnforced = true ∧
        n = r.containerFor (r.fixed + r.overhead) := by
  unfold budget at h
  split at h
  next hfirst =>
    cases h
    exact Or.inl ⟨hfirst, rfl⟩
  next hfirst =>
    split at h
    next hsecond =>
      split at h
      next hany =>
        cases h
        exact Or.inr ⟨Bool.eq_false_iff.2 hfirst, hsecond, hany, rfl⟩
      next => cases h
    next => cases h

theorem le_max64_of_mem_sums (h : r.staysInWords = true) {n : ℕ} (hn : n ∈ r.sums) :
    n ≤ max64 :=
  of_decide_eq_true (List.all_eq_true.1 h n hn)

theorem fixed_add_leastOverhead_le (h : r.staysInWords = true) :
    r.fixed + r.leastOverhead ≤ max64 :=
  le_max64_of_mem_sums h (by simp [sums])

theorem containerFor_le (h : r.staysInWords = true) (hfail : r.failsFirst = true) :
    r.containerFor (r.fixed + r.leastOverhead) ≤ max64 :=
  le_max64_of_mem_sums h (by simp [sums, hfail])

theorem heap_le_max64 (h : r.staysInWords = true) : r.heap ≤ max64 := by
  have hsum := fixed_add_leastOverhead_le h
  unfold fixed at hsum
  omega

end Request

end SparkTuner.Memory
