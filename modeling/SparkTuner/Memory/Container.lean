import SparkTuner.Number.Numeral

/-!
# The least container

Finding the least whole number whose product with a share reaches a need. The quotient that the
search starts from may be off by rounding in either direction, so it is corrected upwards and then
downwards; only the product decides.
-/

namespace SparkTuner.Memory

open Number

/-- Goes up from `r` while `below` holds, at most `steps` times. -/
def climb (below : Nat → Bool) : (steps r : Nat) → Nat
  | 0, r => r
  | steps + 1, r => if below r then climb below steps (r + 1) else r

/-- Goes down while the number below also reaches. -/
def descend (reaches : Nat → Bool) : Nat → Nat
  | 0 => 0
  | r + 1 => if reaches r then descend reaches r else r + 1

/-- The number found from a start in a 64-bit word. A result above `max64` says that no word
reaches. -/
def correct (below reaches : Nat → Bool) (start : Nat) : Nat :=
  descend reaches (climb below (max64 + 1 - start) start)

theorem descend_le (reaches : Nat → Bool) (r : Nat) : descend reaches r ≤ r := by
  induction r with
  | zero => simp [descend]
  | succ r ih => simp only [descend]; split <;> omega

end SparkTuner.Memory
