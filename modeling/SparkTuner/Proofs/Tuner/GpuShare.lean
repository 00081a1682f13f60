import SparkTuner.Proofs.Number.Fixed
import SparkTuner.Proofs.Tuner.Cores

/-!
# The share of a GPU that a task gets

The GPU of an executor is shared by as many tasks as there are cores. The share is written with four
places at most, so it is the nearest decimal to the exact one (`gpu_share_is_nearest_decimal`).
Where that is the larger of the two, one task less than there are cores fits on the GPU.
-/

namespace SparkTuner

open Ledger Number

namespace Rules

variable {cores : ℕ}

/-- The share of a GPU in ten-thousandths. -/
def shareUnits (cores : ℕ) : ℕ := roundHalfEven 10000 cores

theorem gpuShare_eq (h : 1 ≤ cores) : gpuShare ℚ cores = .finite false 1 cores := by
  have hinverse : (Quantity.ofNat 1 / Quantity.ofNat cores : ℚ) = (cores : ℚ)⁻¹ := by
    rw [Memory.ofNat_eq, Memory.ofNat_eq, Nat.cast_one, one_div]
  rw [gpuShare, hinverse]
  show Exact.finite (decide ((cores : ℚ)⁻¹.num < 0)) (cores : ℚ)⁻¹.num.natAbs (cores : ℚ)⁻¹.den = _
  rw [Rat.inv_natCast_num_of_pos h, Rat.inv_natCast_den_of_pos h]
  rfl

theorem fractionText_gpuShare (h : 1 ≤ cores) :
    fractionText (gpuShare ℚ cores) = fourPlaces (shareUnits cores) := by
  rw [gpuShare_eq h]
  rfl

/-- The text stands for the share that each task of an executor with so many cores gets of a
GPU. -/
structure IsShare (cores : ℕ) (text : String) (share : ℚ) : Prop where
  written : ∃ units : ℕ, IsShort units text.toList ∧ share = units / 10000
  nearest : |share - 1 / cores| ≤ 1 / 20000
  positive : cores < 20000 → 0 < share
  /-- A share that is not rounded up leaves room for every core. -/
  fits : 2 * (10000 % cores) < cores → cores * share ≤ 1
  exceeds : cores < 2 * (10000 % cores) → 1 < cores * share
  nearly : cores * share ≤ 1 + cores / 20000

theorem isShare_shareUnits (h : 1 ≤ cores) :
    IsShare cores (fourPlaces (shareUnits cores)) (shareUnits cores / 10000) := by
  have hcores : (0 : ℚ) < cores := by exact_mod_cast h
  obtain ⟨habove, hbelow⟩ := roundHalfEven_near 10000 h
  have habove' : (20000 : ℚ) ≤ 2 * (shareUnits cores * cores) + cores := by exact_mod_cast habove
  have hbelow' : 2 * (shareUnits cores * cores) ≤ (20000 : ℚ) + cores := by exact_mod_cast hbelow
  constructor
  case written => exact ⟨shareUnits cores, isShort_fourPlaces _, rfl⟩
  case nearest =>
    have hdifference : (shareUnits cores / 10000 - 1 / cores : ℚ) =
        (shareUnits cores * cores - 10000) / (10000 * cores) := by
      field_simp
    rw [hdifference, abs_le, le_div_iff₀ (by positivity), div_le_iff₀ (by positivity)]
    constructor
    · linarith
    · linarith
  case positive =>
    intro hfew
    have hpos : 0 < shareUnits cores := roundHalfEven_pos h (by omega)
    positivity
  case fits =>
    intro hdown
    have hle : (shareUnits cores * cores : ℚ) ≤ 10000 := by
      exact_mod_cast roundHalfEven_mul_le hdown
    linarith
  case exceeds =>
    intro hup
    have hlt : (10000 : ℚ) < shareUnits cores * cores := by
      exact_mod_cast lt_roundHalfEven_mul h hup
    linarith
  case nearly => linarith

end Rules

/-- Where the rules recommend a share of a GPU, it is the decimal of four places that is nearest to
the exact share, and is written without zeros at its end. -/
theorem gpu_share_is_nearest_decimal {t : Tuner ℚ} {r : Recommendations}
    (hrun : t.recommend? = some r) (hshape : t.context.shape.isSome = true)
    (hfree : t.enforced.get? Key.taskGpuAmount = none)
    (hskip : Key.taskGpuAmount ∉ t.policy.skip) (hlimited : Key.taskGpuAmount ∉ t.policy.limited) :
    ∃ text share, r.chosen? Key.taskGpuAmount = some text ∧ readFraction? text = some share ∧
      Rules.IsShare t.cores text share := by
  obtain ⟨-, rfl⟩ := Tuner.of_recommend? hrun
  have hshare := Rules.isShare_shareUnits t.one_le_cores
  have hpositive : (Rules.gpuShare ℚ t.cores).isPositive = true := by
    rw [Rules.gpuShare_eq t.one_le_cores]
    rfl
  have hchosen := t.computes_share hfree hlimited
  rw [if_neg hskip, hshape, hpositive, Bool.true_and, if_pos rfl,
    Rules.fractionText_gpuShare t.one_le_cores] at hchosen
  exact ⟨_, _, hchosen, (isShort_fourPlaces _).readFraction?, hshare⟩

/-- A tuner for a cluster of one worker with so many cores and 4 GiB for each. -/
def Tuner.ofCores (K : Type) [Quantity K] (cores : ℕ) : Tuner K where
  app := AppSummary.blank
  driverLog := none
  platform := .onPrem
  tool := default
  strategy := default
  cluster :=
    { system := some
        { numCores := some cores, memory := some (Size.ofMib (4096 * cores)), numWorkers := some 1 }
      gpu := some { count := some 1 } }
  worker := none
  enforced := .empty
  policy := {}
  latest := .notChecked
  diagnostics := []

theorem twelveCores_share :
    let t := Tuner.ofCores ℚ 12
    let r := t.final.ledger.finish
    t.recommend? = some r ∧ t.context.shape.isSome = true ∧ t.cores = 12 ∧
      r.chosen? Key.taskGpuAmount = some "0.0833" ∧
      ∃ text share, r.chosen? Key.taskGpuAmount = some text ∧ readFraction? text = some share ∧
        Rules.IsShare t.cores text share := by
  intro t r
  obtain ⟨hwords, hshape, hcores, hvalue⟩ : t.final.staysInWords = true ∧
      t.context.shape.isSome = true ∧ t.cores = 12 ∧
      r.chosen? Key.taskGpuAmount = some "0.0833" := by
    decide +kernel
  have hrun : t.recommend? = some r := if_pos hwords
  exact ⟨hrun, hshape, hcores, hvalue,
    gpu_share_is_nearest_decimal hrun hshape rfl List.not_mem_nil List.not_mem_nil⟩

/-- Six tasks with the share for six cores do not fit on a GPU, and the share for 30000 cores is
rounded to nothing. -/
theorem sixCores_exceed :
    ∃ six many : Recommendations,
      (Tuner.ofCores Float 6).recommend? = some six ∧ (Tuner.ofCores Float 6).cores = 6 ∧
      six.chosen? Key.taskGpuAmount = some "0.1667" ∧
      (∃ share, readFraction? "0.1667" = some share ∧ 1 < 6 * share) ∧
      (Tuner.ofCores Float 30000).recommend? = some many ∧
      (Tuner.ofCores Float 30000).cores = 30000 ∧
      many.chosen? Key.taskGpuAmount = some "0" := by
  obtain ⟨hwords, hcores, htext⟩ : (Tuner.ofCores Float 6).final.staysInWords = true ∧
      (Tuner.ofCores Float 6).cores = 6 ∧
      (Tuner.ofCores Float 6).final.ledger.finish.chosen? Key.taskGpuAmount = some "0.1667" := by
    decide +kernel
  obtain ⟨hwords', hcores', htext'⟩ : (Tuner.ofCores Float 30000).final.staysInWords = true ∧
      (Tuner.ofCores Float 30000).cores = 30000 ∧
      (Tuner.ofCores Float 30000).final.ledger.finish.chosen? Key.taskGpuAmount = some "0" := by
    decide +kernel
  have hread : readFraction? "0.1667" = some (1667 / 10000) := by decide +kernel
  exact ⟨_, _, if_pos hwords, hcores, htext, ⟨1667 / 10000, hread, by norm_num⟩,
    if_pos hwords', hcores', htext'⟩

end SparkTuner
