import Mathlib.Algebra.Order.Field.Rat
import Mathlib.Order.Bounds.Basic
import SparkTuner.Memory.Budget

/-!
# The corrected start is the least container

Going up ends at the first number that reaches, unless the steps run out; going down ends at the
least number of the stretch of reaching numbers that it starts in. Where whatever reaches is reached
by everything above, too, both together find the least number that reaches (`isLeast_correct`).

The steps do not run out where some number at or above the start reaches: both ways are then loops
that end by themselves (`correct_of_reaches`). Of the products nothing is needed but their order.
-/

namespace SparkTuner.Memory

open Number

variable {below reaches : Nat → Bool}

/-- Going up ends at a number that is not below, or after all its steps. -/
theorem climb_eq_add_of_below {steps r : Nat} (h : below (climb below steps r) = true) :
    climb below steps r = r + steps := by
  induction steps generalizing r with
  | zero => rfl
  | succ steps ih =>
    simp only [climb] at h ⊢
    split
    next hb =>
      rw [if_pos hb] at h
      rw [ih h]
      omega
    next hb =>
      rw [if_neg hb] at h
      exact absurd h hb

/-- Every number from the end of the way down to its start reaches. -/
theorem reaches_of_descend_le {r m : Nat} (hr : reaches r = true) (hm : descend reaches r ≤ m)
    (hmr : m ≤ r) : reaches m = true := by
  induction r with
  | zero => exact (Nat.le_zero.1 hmr) ▸ hr
  | succ r ih =>
    simp only [descend] at hm
    split at hm
    next hb =>
      rcases Nat.lt_or_eq_of_le hmr with hlt | rfl
      · exact ih hb hm (Nat.le_of_lt_succ hlt)
      · exact hr
    next => rw [Nat.le_antisymm hmr hm]; exact hr

/-- The number below the end of the way down does not reach. -/
theorem not_reaches_pred_descend {r m : Nat} (h : descend reaches r = m + 1) :
    reaches m = false := by
  induction r with
  | zero => cases h
  | succ r ih =>
    simp only [descend] at h
    split at h
    next hb => exact ih h
    next hb =>
      cases h
      simpa using hb

/-- Going down from a number that nothing below it reaches goes nowhere. -/
theorem descend_eq_self (hmono : ∀ m n, m ≤ n → reaches m = true → reaches n = true) {r : Nat}
    (hr : reaches r = false) : descend reaches r = r := by
  cases r with
  | zero => rfl
  | succ r =>
    have hpred : reaches r ≠ true := fun h => by
      rw [hmono r (r + 1) (Nat.le_succ r) h] at hr
      cases hr
    simp only [descend]
    rw [if_neg hpred]

/-- Going down ends at the least number that reaches. -/
theorem isLeast_descend {r : ℕ} (hr : reaches r = true)
    (hmono : ∀ m n, m ≤ n → n ≤ r → reaches m = true → reaches n = true) :
    IsLeast {n | reaches n = true} (descend reaches r) := by
  refine ⟨reaches_of_descend_le hr (Nat.le_refl _) (descend_le reaches r), fun m hm => ?_⟩
  by_contra hlt
  obtain ⟨k, hk⟩ : ∃ k, descend reaches r = k + 1 := ⟨descend reaches r - 1, by omega⟩
  have hkr : k ≤ r := by
    have hle := descend_le reaches r
    omega
  have hpred := not_reaches_pred_descend hk
  rw [hmono m k (by omega) hkr hm] at hpred
  cases hpred

/-- A search that does not leave the words ends at the least number that reaches. -/
theorem isLeast_correct (hbelow : ∀ n, below n = !reaches n)
    (hmono : ∀ m n, m ≤ n → reaches m = true → reaches n = true) {start : Nat}
    (hword : correct below reaches start ≤ max64) :
    IsLeast {n | reaches n = true} (correct below reaches start) := by
  unfold correct at hword ⊢
  generalize htop : climb below (max64 + 1 - start) start = top at hword ⊢
  have hreach : reaches top = true := by
    by_contra hnot
    have hnot' : reaches top = false := Bool.eq_false_iff.2 hnot
    have hb : below (climb below (max64 + 1 - start) start) = true := by
      rw [htop, hbelow, hnot']
      rfl
    have hend := climb_eq_add_of_below hb
    rw [descend_eq_self hmono hnot'] at hword
    omega
  exact isLeast_descend hreach fun m n hmn _ => hmono m n hmn

/-! ## The two loops -/

/-- A loop that goes on by `next` while `goesOn` holds, entered at `start`, ends at `last`. -/
inductive LoopEnds (goesOn : ℕ → Bool) (next : ℕ → ℕ) : (start last : ℕ) → Prop where
  | here {r : ℕ} (h : goesOn r = false) : LoopEnds goesOn next r r
  | later {r last : ℕ} (h : goesOn r = true) (hrest : LoopEnds goesOn next (next r) last) :
      LoopEnds goesOn next r last

/-- Going up while a number is below, and then down while the one before also reaches, ends at
`last` and nowhere else, and leaves the words nowhere. -/
def SearchEnds (below reaches : ℕ → Bool) (start last : ℕ) : Prop :=
  ∃ top ≤ max64, (∀ n, LoopEnds below (· + 1) start n ↔ n = top) ∧
    ∀ n, LoopEnds (fun r => decide (0 < r) && reaches (r - 1)) (· - 1) top n ↔ n = last

section Loops

variable {goesOn : ℕ → Bool} {next : ℕ → ℕ} {r m n start steps : ℕ}

theorem LoopEnds.unique (h : LoopEnds goesOn next r m) (h' : LoopEnds goesOn next r n) :
    m = n := by
  induction h with
  | here hstop =>
    cases h' with
    | here => rfl
    | later hgo => cases hstop.symm.trans hgo
  | later hgo _ ih =>
    cases h' with
    | here hstop => cases hstop.symm.trans hgo
    | later _ hrest => exact ih hrest

theorem LoopEnds.iff_eq (h : LoopEnds goesOn next r m) :
    LoopEnds goesOn next r n ↔ n = m :=
  ⟨fun h' => h'.unique h, fun heq => heq ▸ h⟩

theorem LoopEnds.not_goesOn (h : LoopEnds goesOn next r m) : goesOn m = false := by
  induction h with
  | here hstop => exact hstop
  | later _ _ ih => exact ih

theorem LoopEnds.le_of_not_below (h : LoopEnds below (· + 1) r n) (hrm : r ≤ m)
    (hm : below m = false) : n ≤ m := by
  induction h with
  | here => exact hrm
  | @later r last hb _ ih =>
    have hne : r ≠ m := fun heq => by
      rw [heq, hm] at hb
      cases hb
    exact ih (Nat.lt_of_le_of_ne hrm hne)

/-- With steps enough for the way to a number that is not below, going up is the whole loop. -/
theorem loopEnds_climb (hrm : r ≤ m) (hm : below m = false) (hsteps : m < r + steps) :
    LoopEnds below (· + 1) r (climb below steps r) := by
  induction steps generalizing r with
  | zero => omega
  | succ steps ih =>
    simp only [climb]
    split
    next hb =>
      have hne : r ≠ m := fun heq => by
        rw [heq, hm] at hb
        cases hb
      exact .later hb (ih (Nat.lt_of_le_of_ne hrm hne) (by omega))
    next hb => exact .here (Bool.eq_false_iff.2 hb)

theorem loopEnds_descend (reaches : ℕ → Bool) (r : ℕ) :
    LoopEnds (fun r => decide (0 < r) && reaches (r - 1)) (· - 1) r (descend reaches r) := by
  induction r with
  | zero => exact .here rfl
  | succ r ih =>
    simp only [descend]
    split
    next hb =>
      refine .later ?_ ih
      simpa using hb
    next hb =>
      refine .here ?_
      simpa using hb

/-- Where a number at or above the start reaches, both loops end, and what they find is the least
number that reaches. Numbers that do not fit a word do not matter. -/
theorem correct_of_reaches (hbelow : ∀ n ≤ max64, below n = !reaches n)
    (hmono : ∀ m n, m ≤ n → n ≤ max64 → reaches m = true → reaches n = true)
    (hstart : start ≤ m) (hword : m ≤ max64) (hm : reaches m = true) :
    SearchEnds below reaches start (correct below reaches start) ∧
      IsLeast {n | reaches n = true} (correct below reaches start) := by
  have hnot : below m = false := by
    rw [hbelow m hword, hm]
    rfl
  -- there are steps for every word from the start on, so they suffice for the way to `m`
  have hup : LoopEnds below (· + 1) start (climb below (max64 + 1 - start) start) :=
    loopEnds_climb hstart hnot (by omega)
  unfold correct
  generalize climb below (max64 + 1 - start) start = top at hup ⊢
  have htop : top ≤ max64 := (hup.le_of_not_below hstart hnot).trans hword
  have hreach : reaches top = true := by simpa [hbelow top htop] using hup.not_goesOn
  refine ⟨⟨top, htop, fun _ => hup.iff_eq, fun _ => (loopEnds_descend reaches top).iff_eq⟩, ?_⟩
  exact isLeast_descend hreach fun m n hmn hn => hmono m n hmn (hn.trans htop)

end Loops

/-- Both loops compare products with the need. All they use of the two comparisons is that one is
the negation of the other. -/
theorem correct_of_products {K : Type} [LT K] [LE K] [DecidableLT K] [DecidableLE K]
    {product : ℕ → K} {need : K} {start m : ℕ}
    (hlt : ∀ n ≤ max64, product n < need ↔ ¬need ≤ product n)
    (hmono : ∀ m n, m ≤ n → n ≤ max64 → need ≤ product m → need ≤ product n)
    (hstart : start ≤ m) (hword : m ≤ max64) (hm : need ≤ product m) :
    let below := fun n => decide (product n < need)
    let reaches := fun n => decide (need ≤ product n)
    SearchEnds below reaches start (correct below reaches start) ∧
      IsLeast {n | need ≤ product n} (correct below reaches start) := by
  intro below reaches
  have hbelow : ∀ n ≤ max64, below n = !reaches n := fun n hn => by
    simp only [below, reaches, hlt n hn, decide_not]
  have hup : ∀ m n, m ≤ n → n ≤ max64 → reaches m = true → reaches n = true :=
    fun m n hmn hn hm => decide_eq_true (hmono m n hmn hn (of_decide_eq_true hm))
  obtain ⟨hends, hleast⟩ := correct_of_reaches hbelow hup hstart hword (decide_eq_true hm)
  simp only [reaches, decide_eq_true_eq] at hleast
  exact ⟨hends, hleast⟩

/-- However the products and the quotient to start from are rounded: where the products do not go
down, and one at or above the start reaches the need, both loops end, at the least number whose
product reaches it. The container that a request asks for is found so in every arithmetic. -/
theorem container_search_finds_least :
    (∀ {K : Type} [LinearOrder K] (product : ℕ → K) (need : K) (start : ℕ),
      MonotoneOn product (Set.Iic max64) →
      (∃ r, start ≤ r ∧ r ≤ max64 ∧ need ≤ product r) →
      let below := fun r => decide (product r < need)
      let reaches := fun r => decide (need ≤ product r)
      let required := correct below reaches start
      SearchEnds below reaches start required ∧ IsLeast {r | need ≤ product r} required ∧
        (need ≤ product 0 → required = 0)) ∧
    ∀ {K : Type} [Quantity K] (request : Request K) (need : ℕ),
      let product := fun n : ℕ => (Quantity.ofNat n : K) * request.share
      let target : K := Quantity.ofNat need
      let start := Quantity.ceilWord (target / request.share)
      (∀ n ≤ max64, product n < target ↔ ¬target ≤ product n) →
      (∀ m n, m ≤ n → n ≤ max64 → target ≤ product m → target ≤ product n) →
      (∃ n, start ≤ n ∧ n ≤ max64 ∧ target ≤ product n) →
      SearchEnds (fun n => product n < target) (fun n => target ≤ product n) start
          (request.containerFor need) ∧
        IsLeast {n | target ≤ product n} (request.containerFor need) := by
  constructor
  · intro K _ product need start hmono ⟨r, hstart, hword, hr⟩ below reaches required
    obtain ⟨hends, hleast⟩ := correct_of_products (fun n _ => not_le.symm)
      (fun m n hmn hn hm => hm.trans (hmono (hmn.trans hn) hn hmn)) hstart hword hr
    exact ⟨hends, hleast, fun hzero => Nat.le_zero.1 (hleast.2 hzero)⟩
  · intro K _ request need product target start hlt hmono ⟨n, hstart, hword, hn⟩
    exact correct_of_products hlt hmono hstart hword hn

/-- Products rounded down to whole numbers, searched from a quotient that is too low and from one
that is too high, and exact ones of a request. -/
theorem flooredProducts_searched :
    let product := fun r : ℕ => r * 7 / 10
    let below := fun r => decide (product r < 5)
    let reaches := fun r => decide (5 ≤ product r)
    let request : Request ℚ := { cores := 4, container := 10000, share := 4 / 5 }
    SearchEnds below reaches 3 8 ∧ SearchEnds below reaches 100 8 ∧
      IsLeast {r | 5 ≤ product r} 8 ∧
      IsLeast {n : ℕ | ((101 : ℕ) : ℚ) ≤ n * (4 / 5)} (request.containerFor 101) ∧
      request.containerFor 101 = 127 := by
  intro product below reaches request
  obtain ⟨hsearch, hrequest⟩ := container_search_finds_least
  have hmono : MonotoneOn product (Set.Iic max64) := fun m _ n _ hmn =>
    Nat.div_le_div_right (Nat.mul_le_mul_right 7 hmn)
  obtain ⟨hup, hleast, -⟩ := hsearch product 5 3 hmono ⟨8, by decide, by decide, by decide⟩
  obtain ⟨hdown, hleast', -⟩ := hsearch product 5 100 hmono ⟨100, by decide, by decide, by decide⟩
  have hfound : correct below reaches 3 = 8 := by decide +kernel
  have hfound' : correct below reaches 100 = 8 := (hleast'.unique hleast).trans hfound
  have hexact : ∀ m n : ℕ, m ≤ n → ((101 : ℕ) : ℚ) ≤ m * (4 / 5) →
      ((101 : ℕ) : ℚ) ≤ n * (4 / 5) := by
    intro m n hmn hm
    exact hm.trans (mul_le_mul_of_nonneg_right (Nat.cast_le.2 hmn) (by decide +kernel))
  obtain ⟨-, hcontainer⟩ := hrequest request 101 (fun n _ => not_le.symm)
    (fun m n hmn _ => hexact m n hmn) ⟨127, by decide +kernel, by decide, by decide +kernel⟩
  exact ⟨hfound ▸ hup, hfound' ▸ hdown, hfound ▸ hleast, hcontainer, by decide +kernel⟩

end SparkTuner.Memory
