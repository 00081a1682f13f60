import SparkTuner.Proofs.Memory.Requirement

/-!
# Which sums leave a word

Most sums on the way to a budget stay in a word by themselves: a worker has no more memory than a
word can tell, its executors get at most nine tenths of it, and what fits there leaves room for the
default pools. Two kinds do not. Pools that the user gave are added before they are compared with
what is left, and what a shortfall asks for is larger than what there is. These two decide whether
the sums stay in words (`Request.staysInWords_iff`).
-/

namespace SparkTuner.Memory

open Number

/-- Going up stays where nothing is below. -/
theorem climb_eq_self {below : Nat → Bool} {steps r : Nat} (h : below r = false) :
    climb below steps r = r := by
  cases steps with
  | zero => rfl
  | succ steps => exact if_neg (Bool.not_eq_true _ ▸ h)

namespace Request

variable {r : Request ℚ}

/-! ## The container for a size -/

/-- The least container, as it would be without an end of the words. -/
def exactContainer (r : Request ℚ) (size : ℕ) : ℕ := ⌈(size : ℚ) / r.share⌉₊

theorem exactContainer_le_iff (hpos : 0 < r.share) {size m : ℕ} :
    r.exactContainer size ≤ m ↔ (size : ℚ) ≤ m * r.share := by
  rw [exactContainer, Nat.ceil_le, div_le_iff₀ hpos]

theorem isLeast_exactContainer (hpos : 0 < r.share) (size : ℕ) :
    IsLeast {m : ℕ | (size : ℚ) ≤ m * r.share} (r.exactContainer size) :=
  ⟨(exactContainer_le_iff hpos).1 (Nat.le_refl _), fun _ hm => (exactContainer_le_iff hpos).2 hm⟩

theorem ceilWord_eq (q : ℚ) : Quantity.ceilWord q = min ⌈q⌉₊ max64 := by
  have hceil : q.ceil = ⌈q⌉ := Rat.ceil_eq_neg_floor_neg q
  show min q.ceil.toNat max64 = _
  rw [hceil]
  rfl

/-- The search for a container starts at its end, unless that lies behind the words. -/
theorem containerFor_le_of_exact (hpos : 0 < r.share) {size : ℕ}
    (h : r.exactContainer size ≤ max64) : r.containerFor size ≤ max64 := by
  have hstart : Quantity.ceilWord ((Quantity.ofNat size : ℚ) / r.share) = r.exactContainer size :=
    (ceilWord_eq _).trans (Nat.min_eq_left h)
  have hreach := (isLeast_exactContainer hpos size).1
  have hbelow : decide ((Quantity.ofNat (r.exactContainer size) : ℚ) * r.share <
      Quantity.ofNat size) = false := decide_eq_false (not_lt.2 hreach)
  rw [containerFor, correct, hstart, climb_eq_self hbelow]
  exact (descend_le _ _).trans h

theorem containerFor_eq_exact (hpos : 0 < r.share) {size : ℕ}
    (h : r.containerFor size ≤ max64) : r.containerFor size = r.exactContainer size :=
  (isLeast_containerFor hpos h).unique (isLeast_exactContainer hpos size)

/-- What a worker needs is a word exactly if it is one without an end of the words. -/
theorem workerNeed_le_iff (hpos : 0 < r.share) (size : ℕ) {executors : ℕ}
    (hexecutors : 1 ≤ executors) :
    (r.containerFor size ≤ max64 ∧ workerNeed (r.containerFor size) executors ≤ max64) ↔
      r.exactContainer size * executors ≤ max64 := by
  rw [workerNeed, Nat.max_eq_left hexecutors]
  constructor
  · rintro ⟨hword, hneed⟩
    exact containerFor_eq_exact hpos hword ▸ hneed
  · intro hneed
    have hword := containerFor_le_of_exact hpos
      ((Nat.le_mul_of_pos_right _ hexecutors).trans hneed)
    exact ⟨hword, (containerFor_eq_exact hpos hword).symm ▸ hneed⟩

/-! ## Sizes that fit a worker -/

/-- A part of the memory of a worker that a word can tell, and of it what a platform leaves to
executors. -/
structure IsHosted (r : Request ℚ) : Prop where
  share_pos : 0 < r.share
  share_le : r.share ≤ 9 / 10
  container_le : r.container ≤ max64

namespace IsHosted

variable (h : r.IsHosted)

include h

theorem usable_le : r.usable ≤ max64 * (9 / 10) := by
  rw [usable_eq]
  have hword : (0 : ℚ) ≤ max64 := Nat.cast_nonneg _
  exact mul_le_mul h.container_le h.share_le h.share_pos.le hword

/-- A size whose container is a word leaves room for the default pools in a word. -/
theorem size_le_of_exact {size : ℕ} (hword : r.exactContainer size ≤ max64) :
    (size : ℚ) ≤ max64 * (9 / 10) := by
  have hreach := (exactContainer_le_iff h.share_pos).1 hword
  have hzero : (0 : ℚ) ≤ max64 := Nat.cast_nonneg _
  exact hreach.trans (mul_le_mul_of_nonneg_left h.share_le hzero)

end IsHosted

/-- Nine tenths of a word and the default pools are a word. -/
theorem add_pools_le_max64 {size : ℕ} (h : (size : ℚ) ≤ max64 * (9 / 10)) :
    size + defaultPools ≤ max64 := by
  have hten : 10 * size ≤ 9 * max64 := by
    have : (10 * size : ℚ) ≤ 9 * max64 := by linarith
    exact_mod_cast this
  unfold max64 at hten ⊢
  unfold defaultPools defaultPinned defaultSpill
  omega

/-- The sums before the first check are words if what it compares leaves room for the default
pools. -/
theorem first_sums_le (h : ((r.fixed + r.leastOverhead : ℕ) : ℚ) ≤ max64 * (9 / 10)) :
    r.reserved ≤ max64 ∧ r.defaultOverhead ≤ max64 ∧ r.fixed + r.leastOverhead ≤ max64 := by
  have hroom := add_pools_le_max64 h
  have hheap : r.heap ≤ max64 := by
    unfold fixed at hroom
    omega
  rw [defaultOverhead, baseOverhead_eq hheap, reserved]
  unfold fixed at hroom ⊢
  omega

/-! ## Which sums leave a word -/

/-- The pools with the room for bytes in flight leave a word, or what a worker needs does. -/
def LeavesWords (r : Request ℚ) (executors : ℕ) : Prop :=
  (r.failsFirst = false ∧
      max64 < r.heap / 10 + r.pinned + r.spill + if r.wantsInFlight then 4096 else 0) ∨
    (∃ n, r.budget = .short n) ∧
      max64 < r.exactContainer (r.fixed + r.overheadAsked) * executors

/-- The sums of a request that fails the first check. -/
theorem staysInWords_iff_of_fails (hfirst : r.failsFirst = true) :
    r.staysInWords = true ↔
      (r.enforcedHeap = none → r.reserved ≤ max64) ∧ r.defaultOverhead ≤ max64 ∧
        r.fixed + r.leastOverhead ≤ max64 ∧
        r.containerFor (r.fixed + r.leastOverhead) ≤ max64 := by
  cases hheap : r.enforcedHeap <;> simp [staysInWords, sums, hfirst, hheap]

/-- The sums of a request that passes it. -/
theorem staysInWords_iff_of_passes (hfirst : r.failsFirst = false) :
    r.staysInWords = true ↔
      (r.enforcedHeap = none → r.reserved ≤ max64) ∧ r.defaultOverhead ≤ max64 ∧
        r.fixed + r.leastOverhead ≤ max64 ∧ r.pooled ≤ max64 ∧
        (r.wantsInFlight = true → r.pooled + inFlightRoom ≤ max64) ∧
        (r.failsSecond = true → r.anyEnforced = true → r.fixed + r.overhead ≤ max64 ∧
          r.containerFor (r.fixed + r.overhead) ≤ max64) := by
  cases hheap : r.enforcedHeap <;> cases hflight : r.wantsInFlight <;>
    cases hsecond : r.failsSecond <;> cases hany : r.anyEnforced <;>
    simp [staysInWords, sums, hfirst, hheap, hflight, hsecond, hany]

/-- The pools, and with them the room for bytes in flight, as sums of whole sizes. -/
theorem pooled_le_iff (hheap : r.heap ≤ max64) :
    (r.pooled ≤ max64 ∧ (r.wantsInFlight = true → r.pooled + inFlightRoom ≤ max64)) ↔
      r.heap / 10 + r.pinned + r.spill + (if r.wantsInFlight then 4096 else 0) ≤ max64 := by
  rw [pooled, baseOverhead_eq hheap, inFlightRoom]
  cases r.wantsInFlight with
  | true =>
    simp only [if_true, forall_const]
    omega
  | false => simp

theorem short_eq {n : ℕ} (h : r.budget = .short n) :
    n = r.containerFor (r.fixed + r.overheadAsked) := by
  rcases short_cases h with ⟨hfirst, hn⟩ | ⟨hfirst, -, -, hn⟩
  · rw [overheadAsked_of_fails hfirst, hn]
  · rw [overheadAsked_of_passes hfirst, hn]

/-- What the first check compares leaves room for the default pools: either it is there, or the
container for it is a word. -/
theorem IsHosted.first_size_le (h : r.IsHosted)
    (hshort : ∀ n, r.budget = .short n →
      r.exactContainer (r.fixed + r.overheadAsked) ≤ max64) :
    ((r.fixed + r.leastOverhead : ℕ) : ℚ) ≤ max64 * (9 / 10) := by
  cases hfirst : r.failsFirst with
  | true =>
    have hword := hshort _ (if_pos hfirst)
    rw [overheadAsked_of_fails hfirst] at hword
    exact h.size_le_of_exact hword
  | false => exact ((not_failsFirst_iff r).1 hfirst).trans h.usable_le

/-- All sums for a budget and its report are words, unless one of the two leaves them. -/
theorem staysInWords_iff (h : r.IsHosted) {executors : ℕ} (hexecutors : 1 ≤ executors) :
    (r.staysInWords = true ∧ ∀ n, r.budget = .short n → workerNeed n executors ≤ max64) ↔
      ¬r.LeavesWords executors := by
  have hworker := workerNeed_le_iff h.share_pos (r.fixed + r.overheadAsked) hexecutors
  constructor
  · rintro ⟨hwords, hneed⟩ (⟨hfirst, hpools⟩ | ⟨⟨n, hn⟩, hlarge⟩)
    · obtain ⟨-, -, -, hpooled, hroom, -⟩ := (staysInWords_iff_of_passes hfirst).1 hwords
      exact absurd ((pooled_le_iff (heap_le_max64 hwords)).1 ⟨hpooled, hroom⟩) (not_le.2 hpools)
    · obtain ⟨rfl, -, hword⟩ := eq_containerFor hwords hn
      exact absurd (hworker.1 ⟨hword, hneed _ hn⟩) (not_le.2 hlarge)
  · intro hstays
    obtain ⟨hpools, hshort⟩ := not_or.1 hstays
    have hsmall : ∀ n, r.budget = .short n →
        r.exactContainer (r.fixed + r.overheadAsked) * executors ≤ max64 :=
      fun n hn => not_lt.1 fun hlarge => hshort ⟨⟨n, hn⟩, hlarge⟩
    have hfirstSize := h.first_size_le fun n hn =>
      (Nat.le_mul_of_pos_right _ hexecutors).trans (hsmall n hn)
    obtain ⟨hreserved, hdefault, hfixed⟩ := first_sums_le hfirstSize
    refine ⟨?_, fun n hn => short_eq hn ▸ (hworker.2 (hsmall n hn)).2⟩
    cases hfirst : r.failsFirst with
    | true =>
      have hbudget : r.budget = .short (r.containerFor (r.fixed + r.leastOverhead)) := if_pos hfirst
      have hword := (hworker.2 (hsmall _ hbudget)).1
      rw [overheadAsked_of_fails hfirst] at hword
      exact (staysInWords_iff_of_fails hfirst).2 ⟨fun _ => hreserved, hdefault, hfixed, hword⟩
    | false =>
      have hheap : r.heap ≤ max64 := by
        unfold fixed at hfixed
        omega
      have hpooled := (pooled_le_iff hheap).2 (not_lt.1 fun hlarge => hpools ⟨hfirst, hlarge⟩)
      refine (staysInWords_iff_of_passes hfirst).2
        ⟨fun _ => hreserved, hdefault, hfixed, hpooled.1, hpooled.2, fun hsecond hany => ?_⟩
      have hbudget : r.budget = .short (r.containerFor (r.fixed + r.overhead)) := by
        simp [budget, hfirst, hsecond, hany]
      have hsize := hsmall _ hbudget
      have hword := (hworker.2 hsize).1
      rw [overheadAsked_of_passes hfirst] at hsize hword
      have hroom := h.size_le_of_exact ((Nat.le_mul_of_pos_right _ hexecutors).trans hsize)
      exact ⟨(Nat.le_add_right _ _).trans (add_pools_le_max64 hroom), hword⟩

end Request

end SparkTuner.Memory
