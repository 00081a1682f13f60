import SparkTuner.Proofs.Memory.Boundary
import SparkTuner.Proofs.Memory.Plan

/-!
# What a shortfall asks for when sizes were given

The container that a shortfall asks for is computed from the heap of the container that was too
small, and from the overhead of the check that failed. It is enough exactly if the heap does not
grow on the way to it and the pools fit into that overhead (`Request.enough_iff`). Below it nothing
fits unless the heap is smaller there (`Request.short_of_lt`).
-/

namespace SparkTuner.Memory

open Number

namespace Request

/-! ## Pools in a given overhead -/

/-- The pinned pool when `left` is left for the overhead. -/
def pinnedIn {K : Type} [Quantity K] (r : Request K) (left : ℕ) : ℕ :=
  r.enforcedPinned.getD (min ((left - r.baseOverhead) / 2) largestPinned)

/-- The overhead with the pools at their size when `left` is left for it. -/
def pooledIn {K : Type} [Quantity K] (r : Request K) (left : ℕ) : ℕ :=
  r.baseOverhead + r.pinnedIn left + r.enforcedSpill.getD (r.pinnedIn left)

/-- The overhead that a request which does not fit asks for: that of the check that failed. -/
def overheadAsked {K : Type} [Quantity K] (r : Request K) : ℕ :=
  if r.failsFirst then r.leastOverhead else r.overhead

theorem overheadAsked_of_fails {K : Type} [Quantity K] {r : Request K} (h : r.failsFirst = true) :
    r.overheadAsked = r.leastOverhead := if_pos h

theorem overheadAsked_of_passes {K : Type} [Quantity K] {r : Request K}
    (h : r.failsFirst = false) : r.overheadAsked = r.overhead := by
  rw [overheadAsked, h]
  rfl

theorem pooled_eq {K : Type} [Quantity K] (r : Request K) : r.pooled = r.pooledIn r.left := rfl

/-- Where pools do not fit, whatever fits them later leaves at least what they ask for now, also
beside a larger heap. -/
theorem pooledIn_le_of_fits {r s : Request ℚ} {left left' : ℕ}
    (hpinned : s.enforcedPinned = r.enforcedPinned) (hspill : s.enforcedSpill = r.enforcedSpill)
    (hbase : r.baseOverhead ≤ s.baseOverhead) (hlack : left < r.pooledIn left)
    (hfits : s.pooledIn left' ≤ left') : r.pooledIn left ≤ left' := by
  unfold pooledIn pinnedIn largestPinned at hlack hfits ⊢
  rw [hpinned, hspill] at hfits
  generalize r.enforcedPinned = pinned? at hlack hfits ⊢
  generalize r.enforcedSpill = spill? at hlack hfits ⊢
  cases pinned? with
  | some pinned =>
    -- Given pools do not depend on what is left.
    cases spill? <;> simp only [Option.getD_none, Option.getD_some] at hlack hfits ⊢ <;> omega
  | none =>
    -- A computed pool takes half of what is left, so that half of more is not less.
    cases spill? <;> simp only [Option.getD_none, Option.getD_some] at hlack hfits ⊢ <;> omega

/-! ## The two checks -/

section Checks

variable {r : Request ℚ}

theorem le_left {size : ℕ} (hword : size ≤ max64)
    (h : ((r.fixed + size : ℕ) : ℚ) ≤ r.usable) : size ≤ r.left := by
  refine le_floorWord hword ?_
  rw [ofNat_eq]
  push_cast at h
  linarith

theorem leastOverhead_le_max64 (hwords : r.staysInWords = true) : r.leastOverhead ≤ max64 :=
  (Nat.le_add_left _ _).trans (fixed_add_leastOverhead_le hwords)

/-- The second check fails for the pools alone: what was given fits after the first check, and room
for bytes in flight is added only where it fits. -/
theorem overhead_eq_pooled (hleast : r.leastOverhead ≤ r.left) (h : r.failsSecond = true) :
    r.overhead = r.pooled ∧ r.left < r.pooled := by
  have hlack : r.left < r.overhead := of_decide_eq_true h
  have hgiven : r.enforcedOverhead.getD 0 ≤ r.left := by
    cases hsome : r.enforcedOverhead with
    | none => exact Nat.zero_le _
    | some n =>
      rw [leastOverhead, hsome] at hleast
      exact hleast
  unfold overhead at hlack ⊢
  cases hflight : r.inFlight with
  | true =>
    have hroom : r.pooled + inFlightRoom ≤ r.left := by
      simp only [inFlight, Bool.and_eq_true, decide_eq_true_eq] at hflight
      exact hflight.2
    rw [hflight, if_pos rfl] at hlack
    omega
  | false =>
    rw [hflight, if_neg Bool.false_ne_true] at hlack
    rw [if_neg Bool.false_ne_true]
    omega

theorem pooled_le_left (hany : r.anyEnforced = true) {p : Plan} (hp : r.budget = .planned p) :
    r.pooled ≤ r.left := by
  obtain ⟨-, ⟨hsecond, -⟩ | ⟨-, hfree, -⟩⟩ := planned_cases hp
  · refine le_trans ?_ ((not_failsSecond_iff r).1 hsecond)
    exact le_trans (Nat.le_add_right _ _) (pooled_le_overhead r)
  · rw [hany] at hfree
    cases hfree

/-- A plan is made where the least overhead fits and then the pools do. -/
theorem planned_of_fits (hword : r.leastOverhead ≤ max64)
    (hfirst : ((r.fixed + r.leastOverhead : ℕ) : ℚ) ≤ r.usable) (hpools : r.pooled ≤ r.left) :
    ∃ p, r.budget = .planned p := by
  have hsecond : r.failsSecond = false := by
    refine Bool.eq_false_iff.2 fun hfails => ?_
    exact absurd (overhead_eq_pooled (le_left hword hfirst) hfails).2 (not_lt.2 hpools)
  have hfirst' := (not_failsFirst_iff r).2 hfirst
  exact ⟨⟨r.heap, r.overhead, r.pinned, r.spill, r.inFlight⟩, by simp [budget, hfirst', hsecond]⟩

end Checks

/-! ## The container that is asked for -/

section Short

variable {r : Request ℚ} {n : ℕ}

/-- The container that a shortfall asks for, in a word as all sizes on the way to it. -/
theorem eq_containerFor (hwords : r.staysInWords = true) (h : r.budget = .short n) :
    n = r.containerFor (r.fixed + r.overheadAsked) ∧ r.fixed + r.overheadAsked ≤ max64 ∧
      n ≤ max64 := by
  rcases short_cases h with ⟨hfirst, hn⟩ | ⟨hfirst, hsecond, hany, hn⟩
  · rw [overheadAsked_of_fails hfirst]
    exact ⟨hn, fixed_add_leastOverhead_le hwords, hn ▸ containerFor_le hwords hfirst⟩
  · rw [overheadAsked_of_passes hfirst]
    have hmem : ∀ k ∈ [r.fixed + r.overhead, r.containerFor (r.fixed + r.overhead)], k ≤ max64 := by
      intro k hk
      refine le_max64_of_mem_sums hwords ?_
      simp only [sums, hfirst, hsecond, hany]
      exact List.mem_append_right _ (List.mem_append_right _ hk)
    exact ⟨hn, hmem _ (by simp), hn ▸ hmem _ (by simp)⟩

theorem usable_lt_of_short (hwords : r.staysInWords = true) (h : r.budget = .short n) :
    r.usable < (r.fixed + r.overheadAsked : ℕ) := by
  obtain ⟨-, hword, -⟩ := eq_containerFor hwords h
  rcases short_cases h with ⟨hfirst, -⟩ | ⟨hfirst, hsecond, -, -⟩
  · rw [overheadAsked_of_fails hfirst]
    exact (failsFirst_iff r).1 hfirst
  · rw [overheadAsked_of_passes hfirst] at hword ⊢
    have hlack : r.left < r.overhead := of_decide_eq_true hsecond
    have hnext : r.usable - r.fixed < r.left + 1 := lt_floorWord_add_one (by
      show r.left < max64
      omega)
    have hcast : (r.left + 1 : ℚ) ≤ r.overhead := by exact_mod_cast hlack
    push_cast
    linarith

/-- The usable share of the container that is asked for reaches what was asked, by less than one
MiB more. -/
theorem usable_within_asked (hpos : 0 < r.share) (hle : r.share ≤ 1)
    (hwords : r.staysInWords = true) (h : r.budget = .short n) :
    ((r.fixed + r.overheadAsked : ℕ) : ℚ) ≤ (r.within n).usable ∧
      (r.within n).usable < (r.fixed + r.overheadAsked : ℕ) + 1 := by
  obtain ⟨rfl, -, hword⟩ := eq_containerFor hwords h
  obtain ⟨hreach, hleast⟩ := isLeast_containerFor hpos hword
  refine ⟨hreach, ?_⟩
  generalize r.containerFor (r.fixed + r.overheadAsked) = m at hreach hleast
  show (m : ℚ) * r.share < _
  cases m with
  | zero =>
    have hzero : (0 : ℚ) ≤ (r.fixed + r.overheadAsked : ℕ) := Nat.cast_nonneg _
    push_cast at hzero ⊢
    linarith
  | succ k =>
    -- The container below does not reach, and one MiB more adds a share of at most one.
    have hbelow : (k : ℚ) * r.share < (r.fixed + r.overheadAsked : ℕ) := by
      by_contra hge
      exact absurd (hleast (not_lt.1 hge)) (by omega)
    push_cast at hbelow ⊢
    linarith

theorem heap_le_asked (hpos : 0 < r.share) (hle : r.share ≤ 1) (hwords : r.staysInWords = true)
    (h : r.budget = .short n) : r.heap ≤ (r.within n).heap := by
  have husable := usable_lt_of_short hwords h
  have hreach := (usable_within_asked hpos hle hwords h).1
  have hlt : r.container * r.share < (n : ℚ) * r.share := husable.trans_le hreach
  exact heap_le_within hpos (lt_of_mul_lt_mul_right hlt hpos.le).le

theorem baseOverhead_le_within {x : ℚ} (hheap : r.heap ≤ (r.within x).heap) :
    r.baseOverhead ≤ (r.within x).baseOverhead := by
  refine floorWord_mono (mul_le_mul_of_nonneg_right ?_ ?_)
  · rw [ofNat_eq, ofNat_eq]
    exact_mod_cast hheap
  · norm_num [Quantity.tenth, Quantity.ofDecimal]

/-- The least overhead is given, or grows with the heap. -/
theorem leastOverhead_le_within {x : ℚ} (hheap : r.heap ≤ (r.within x).heap) :
    r.leastOverhead ≤ (r.within x).leastOverhead := by
  unfold leastOverhead defaultOverhead
  show r.enforcedOverhead.getD _ ≤ r.enforcedOverhead.getD _
  cases r.enforcedOverhead with
  | some given => exact Nat.le_refl _
  | none => exact Nat.add_le_add_right (baseOverhead_le_within hheap) _

/-- A container with no smaller heap that fits reaches what was asked beside its heap. -/
theorem asked_le_usable (hany : r.anyEnforced = true) (hwords : r.staysInWords = true)
    (h : r.budget = .short n) {x : ℚ} (hheap : r.heap ≤ (r.within x).heap)
    (hfits : ∃ p, (r.within x).budget = .planned p) :
    (((r.within x).fixed + r.overheadAsked : ℕ) : ℚ) ≤ (r.within x).usable := by
  obtain ⟨p, hp⟩ := hfits
  obtain ⟨hfirst, -⟩ := planned_cases hp
  rcases short_cases h with ⟨hshort, -⟩ | ⟨hpassed, hsecond, -, -⟩
  · rw [overheadAsked_of_fails hshort]
    refine le_trans ?_ ((not_failsFirst_iff _).1 hfirst)
    exact_mod_cast Nat.add_le_add_left (leastOverhead_le_within hheap) _
  · have hleast : r.leastOverhead ≤ r.left :=
      le_left (leastOverhead_le_max64 hwords) ((not_failsFirst_iff r).1 hpassed)
    obtain ⟨hasked, hlack⟩ := overhead_eq_pooled hleast hsecond
    rw [overheadAsked_of_passes hpassed, hasked, pooled_eq]
    rw [pooled_eq] at hlack
    have hleft := pooledIn_le_of_fits (r := r) (s := r.within x) rfl rfl
      (baseOverhead_le_within hheap) hlack (pooled_le_left hany hp)
    push_cast
    exact fits_of_overhead_le hfirst hleft

/-- The container that is asked for is too small as soon as the heap has grown. -/
theorem heap_eq_of_enough (hany : r.anyEnforced = true) (hpos : 0 < r.share) (hle : r.share ≤ 1)
    (hwords : r.staysInWords = true) (h : r.budget = .short n)
    (hfits : ∃ p, (r.within n).budget = .planned p) : (r.within n).heap = r.heap := by
  have hgrown := heap_le_asked hpos hle hwords h
  have hlt := (asked_le_usable hany hwords h hgrown hfits).trans_lt
    (usable_within_asked hpos hle hwords h).2
  have hlt' : (r.within n).fixed + r.overheadAsked < r.fixed + r.overheadAsked + 1 := by
    exact_mod_cast hlt
  have hfixed : r.fixed = r.heap + r.offHeap + r.pyspark := rfl
  have hfixed' : (r.within n).fixed = (r.within n).heap + r.offHeap + r.pyspark := rfl
  omega

/-- The heap decides what is kept beside the overhead, and the overhead that is computed. -/
theorem within_of_heap_eq {x : ℚ} (hheap : (r.within x).heap = r.heap) :
    (r.within x).fixed = r.fixed ∧ (r.within x).baseOverhead = r.baseOverhead ∧
      (r.within x).leastOverhead = r.leastOverhead := by
  have hbase : (r.within x).baseOverhead = r.baseOverhead := by
    rw [baseOverhead, baseOverhead, hheap]
  refine ⟨congrArg (· + r.offHeap + r.pyspark) hheap, hbase, ?_⟩
  rw [leastOverhead, leastOverhead, defaultOverhead, defaultOverhead, hbase]
  rfl

theorem left_within_asked (hpos : 0 < r.share) (hle : r.share ≤ 1) (hwords : r.staysInWords = true)
    (h : r.budget = .short n) (hfixed : (r.within n).fixed = r.fixed) :
    (r.within n).left = r.overheadAsked := by
  obtain ⟨hreach, hnext⟩ := usable_within_asked hpos hle hwords h
  rw [← hfixed] at hreach hnext
  have hword : r.overheadAsked ≤ max64 :=
    (Nat.le_add_left _ _).trans (eq_containerFor hwords h).2.1
  refine le_antisymm ?_ (le_left hword hreach)
  have hroom : ((r.within n).fixed + (r.within n).left : ℚ) ≤ (r.within n).usable := by
    refine fixed_add_left_le (le_trans ?_ hreach)
    exact_mod_cast Nat.le_add_right _ _
  have hlt : ((r.within n).left : ℚ) < r.overheadAsked + 1 := by
    push_cast at hnext
    linarith
  exact Nat.lt_succ_iff.1 (by exact_mod_cast hlt)

theorem leastOverhead_le_overheadAsked (hwords : r.staysInWords = true)
    (h : r.budget = .short n) : r.leastOverhead ≤ r.overheadAsked := by
  rcases short_cases h with ⟨hfirst, -⟩ | ⟨hfirst, hsecond, -, -⟩
  · rw [overheadAsked_of_fails hfirst]
  · have hleast := le_left (leastOverhead_le_max64 hwords) ((not_failsFirst_iff r).1 hfirst)
    have hlack : r.left < r.overhead := of_decide_eq_true hsecond
    rw [overheadAsked_of_passes hfirst]
    omega

/-- The container that is asked for is enough exactly if the heap is the same in it and the pools
fit into the overhead that was asked for. -/
theorem enough_iff (hany : r.anyEnforced = true) (hpos : 0 < r.share) (hle : r.share ≤ 1)
    (hwords : r.staysInWords = true) (h : r.budget = .short n) :
    (∃ p, (r.within n).budget = .planned p) ↔
      (r.within n).heap = r.heap ∧ r.pooledIn r.overheadAsked ≤ r.overheadAsked := by
  have hpooled : (r.within n).heap = r.heap →
      ((r.within n).pooled ≤ (r.within n).left ↔
        r.pooledIn r.overheadAsked ≤ r.overheadAsked) := by
    intro hheap
    obtain ⟨hfixed, hbase, -⟩ := within_of_heap_eq hheap
    rw [pooled_eq, left_within_asked hpos hle hwords h hfixed, pooledIn, pinnedIn, hbase]
    rfl
  constructor
  · intro hfits
    have hheap := heap_eq_of_enough hany hpos hle hwords h hfits
    obtain ⟨p, hp⟩ := hfits
    exact ⟨hheap, (hpooled hheap).1 (pooled_le_left hany hp)⟩
  · rintro ⟨hheap, hpools⟩
    obtain ⟨hfixed, -, hleast⟩ := within_of_heap_eq hheap
    refine planned_of_fits (hleast ▸ leastOverhead_le_max64 hwords) ?_ ((hpooled hheap).2 hpools)
    rw [hleast, hfixed]
    refine le_trans ?_ (usable_within_asked hpos hle hwords h).1
    exact_mod_cast Nat.add_le_add_left (leastOverhead_le_overheadAsked hwords h) _

/-- No smaller container fits, unless the heap is smaller in it. -/
theorem short_of_lt (hany : r.anyEnforced = true) (hpos : 0 < r.share)
    (hwords : r.staysInWords = true) (h : r.budget = .short n) {m : ℕ} (hm : m < n)
    (hheap : r.heap ≤ (r.within m).heap) : ∃ k, (r.within m).budget = .short k := by
  cases hbudget : (r.within m).budget with
  | short k => exact ⟨k, rfl⟩
  | planned p =>
    have husable := asked_le_usable hany hwords h hheap ⟨p, hbudget⟩
    obtain ⟨rfl, -, hword⟩ := eq_containerFor hwords h
    have hreach : ((r.fixed + r.overheadAsked : ℕ) : ℚ) ≤ (m : ℚ) * r.share := by
      refine le_trans ?_ husable
      have hfixed : r.fixed ≤ (r.within m).fixed :=
        Nat.add_le_add_right (Nat.add_le_add_right hheap _) _
      exact_mod_cast Nat.add_le_add_right hfixed _
    exact absurd ((isLeast_containerFor hpos hword).2 hreach) (not_le.2 hm)

/-- The container that is asked for is the least whole one that fits if it is enough and nothing
fits below it beside a smaller heap. -/
theorem isLeast_iff_of_short (hany : r.anyEnforced = true) (hpos : 0 < r.share)
    (hle : r.share ≤ 1) (hwords : r.staysInWords = true) (h : r.budget = .short n) :
    IsLeast {m : ℕ | ∃ p, (r.within m).budget = .planned p} n ↔
      (r.within n).heap = r.heap ∧ r.pooledIn r.overheadAsked ≤ r.overheadAsked ∧
        ∀ m < n, (r.within m).heap < r.heap → ∃ k, (r.within m).budget = .short k := by
  have henough := enough_iff hany hpos hle hwords h
  constructor
  · rintro ⟨hfits, hleast⟩
    obtain ⟨hheap, hpools⟩ := henough.1 hfits
    refine ⟨hheap, hpools, fun m hm _ => ?_⟩
    cases hbudget : (r.within m).budget with
    | short k => exact ⟨k, rfl⟩
    | planned p => exact absurd (hleast ⟨p, hbudget⟩) (not_le.2 hm)
  · rintro ⟨hheap, hpools, hsmaller⟩
    refine ⟨henough.2 ⟨hheap, hpools⟩, fun m ⟨p, hp⟩ => not_lt.1 fun hm => ?_⟩
    have hshort : ∃ k, (r.within m).budget = .short k := by
      rcases Nat.lt_or_ge (r.within m).heap r.heap with hlt | hge
      · exact hsmaller m hm hlt
      · exact short_of_lt hany hpos hwords h hm hge
    obtain ⟨k, hk⟩ := hshort
    rw [hp] at hk
    cases hk

end Short

end Request

open Request

/-- Where a size was given, the container that a shortfall asks for is the least whole one that fits
exactly under three conditions: the heap is the same in it, the pools fit into the overhead that was
asked for, and nothing fits below it beside a smaller heap. A given heap leaves the second of them
alone. -/
theorem shortfall_exact_iff {r : Request ℚ} {n : ℕ} (hany : r.anyEnforced = true)
    (hpos : 0 < r.share) (hle : r.share ≤ 1) (hwords : r.staysInWords = true)
    (h : r.budget = .short n) :
    (IsLeast {m : ℕ | ∃ p, (r.within m).budget = .planned p} n ↔
        (r.within n).heap = r.heap ∧ r.pooledIn r.overheadAsked ≤ r.overheadAsked ∧
          ∀ m < n, (r.within m).heap < r.heap → ∃ k, (r.within m).budget = .short k) ∧
      (r.enforcedHeap.isSome = true →
        (IsLeast {m : ℕ | ∃ p, (r.within m).budget = .planned p} n ↔
          r.pooledIn r.overheadAsked ≤ r.overheadAsked)) := by
  have hexact := isLeast_iff_of_short hany hpos hle hwords h
  refine ⟨hexact, fun hgiven => hexact.trans ?_⟩
  obtain ⟨given, hsome⟩ := Option.isSome_iff_exists.1 hgiven
  refine ⟨fun hconds => hconds.2.1, fun hpools => ?_⟩
  refine ⟨heap_within_of_given hsome n, hpools, fun m _ hlt => ?_⟩
  exact absurd (heap_within_of_given hsome m) hlt.ne

/-- Four cores whose heap and pinned pool were given. -/
def Request.givenPinned : Request ℚ :=
  { cores := 4, container := 20000, share := 4 / 5, enforcedHeap := some 12000,
    enforcedPinned := some 4096 }

/-- Here the second check fails, which asks for the pools that were given. -/
theorem givenPinned_exact :
    givenPinned.budget = .short 26740 ∧
      IsLeast {m : ℕ | ∃ p, (givenPinned.within m).budget = .planned p} 26740 := by
  have hshort : givenPinned.budget = .short 26740 := by decide +kernel
  have hexact := shortfall_exact_iff rfl (by decide +kernel) (by decide +kernel)
    (by decide +kernel) hshort
  exact ⟨hshort, (hexact.2 rfl).2 (by decide +kernel)⟩

/-- In a smaller container the first check fails, which asks for the default pools only: the
container that it asks for does not fit. -/
theorem shortfall_not_enough :
    let r := givenPinned.within 10000
    r.anyEnforced = true ∧ 0 < r.share ∧ r.share ≤ 1 ∧ r.staysInWords = true ∧
      r.budget = .short 19060 ∧ (r.within 19060).budget = .short 26740 := by
  decide +kernel

end SparkTuner.Memory
