import SparkTuner.Proofs.Memory.Exact
import SparkTuner.Proofs.Rules.Free
import SparkTuner.Rules.Partitions

/-!
# Sizes of input partitions

The size that suits the input is the size now, scaled by what moves the mean input of a task to the
nearer end of the band from 128 to 256 MiB (`idealPartition`), as a whole number from 1 to 4096.
In exact arithmetic this is monotone in both arguments and lands in the band up to the part of a MiB
that is cut (`scaled_partition_lands_in_band`). After a GPU ran out of memory the size is at most
half of the one in effect, whatever the arithmetic (`shrunkPartition_bounds`).
-/

namespace SparkTuner

open Ledger Number

namespace Rules

/-! ## Scaling -/

section Scaling

variable {current : ℕ} {mean : ℚ}

/-- The mean input, moved to the nearer end of the band if it is outside. -/
def bandedInput (mean : ℚ) : ℚ := max 128 (min mean 256)

/-- The size with which the mean input would be the one moved into the band. -/
def idealPartition (current : ℕ) (mean : ℚ) : ℚ := current * bandedInput mean / mean

theorem bandedInput_of_lt (h : mean < 128) : bandedInput mean = 128 := by
  have hmin : min mean 256 ≤ 128 := (min_le_left _ _).trans h.le
  rw [bandedInput, max_eq_left hmin]

theorem bandedInput_of_gt (h : 256 < mean) : bandedInput mean = 256 := by
  rw [bandedInput, min_eq_right h.le]
  norm_num

theorem bandedInput_of_within (hlow : 128 ≤ mean) (hhigh : mean ≤ 256) :
    bandedInput mean = mean := by
  rw [bandedInput, min_eq_left hhigh, max_eq_right hlow]

theorem bandedInput_pos (mean : ℚ) : 0 < bandedInput mean :=
  lt_of_lt_of_le (by norm_num) (le_max_left _ _)

/-- The larger the mean is, the smaller is the factor that moves it into the band. -/
theorem bandedInput_mul_le {larger : ℚ} (hmean : 0 < mean) (hle : mean ≤ larger) :
    bandedInput larger * mean ≤ bandedInput mean * larger := by
  have hlarger : 0 < larger := hmean.trans_le hle
  unfold bandedInput
  rw [max_mul_of_nonneg _ _ hmean.le, max_mul_of_nonneg _ _ hlarger.le,
    min_mul_of_nonneg _ _ hmean.le, min_mul_of_nonneg _ _ hlarger.le]
  have hlow : 128 * mean ≤ 128 * larger := by linarith
  have hhigh : 256 * mean ≤ 256 * larger := by linarith
  exact max_le_max hlow (min_le_min (mul_comm larger mean).le hhigh)

theorem idealPartition_nonneg (hmean : 0 < mean) : 0 ≤ idealPartition current mean := by
  have hbanded := bandedInput_pos mean
  unfold idealPartition
  positivity

theorem idealPartition_antitone {larger : ℚ} (hmean : 0 < mean) (hle : mean ≤ larger) :
    idealPartition current larger ≤ idealPartition current mean := by
  have hlarger : 0 < larger := hmean.trans_le hle
  have hbanded := bandedInput_mul_le hmean hle
  have hcurrent : (0 : ℚ) ≤ current := Nat.cast_nonneg current
  unfold idealPartition
  rw [div_le_div_iff₀ hlarger hmean, mul_assoc, mul_assoc]
  exact mul_le_mul_of_nonneg_left hbanded hcurrent

theorem idealPartition_monotone {larger : ℕ} (hmean : 0 < mean) (hle : current ≤ larger) :
    idealPartition current mean ≤ idealPartition larger mean := by
  have hcurrent : (current : ℚ) ≤ larger := by exact_mod_cast hle
  have hbanded := bandedInput_pos mean
  unfold idealPartition
  gcongr

/-- A positive mean is scaled by the ideal size, cut to a whole number in the bounds. -/
theorem scaledPartition_eq (hmean : 0 < mean) :
    scaledPartition current mean =
      min (max (Quantity.floorWord (idealPartition current mean)) 1) largestPartition := by
  have hpositive : ¬mean ≤ (Quantity.ofNat 0 : ℚ) := not_le.2 hmean
  have hleast : (Quantity.ofNat leastTaskInput : ℚ) = 128 := by norm_num [leastTaskInput]
  have hmost : (Quantity.ofNat mostTaskInput : ℚ) = 256 := by norm_num [mostTaskInput]
  unfold scaledPartition
  rw [if_neg hpositive]
  dsimp only
  rw [hleast, hmost]
  congr 3
  unfold idealPartition
  by_cases hlow : mean < 128
  · rw [if_pos hlow, bandedInput_of_lt hlow]
    exact mul_div_assoc' _ _ _
  · rw [if_neg hlow]
    by_cases hhigh : 256 < mean
    · rw [if_pos hhigh, bandedInput_of_gt hhigh]
      exact div_div_eq_mul_div _ _ _
    · rw [if_neg hhigh, bandedInput_of_within (not_lt.1 hlow) (not_lt.1 hhigh)]
      exact (mul_div_cancel_right₀ _ hmean.ne').symm

/-- The ideal size is within the bounds, so that cutting it to a whole number is all that is
done to it. -/
def IsUnclamped (current : ℕ) (mean : ℚ) : Prop :=
  1 ≤ idealPartition current mean ∧ idealPartition current mean < 4097

theorem scaledPartition_of_isUnclamped (hmean : 0 < mean) (h : IsUnclamped current mean) :
    scaledPartition current mean ≤ idealPartition current mean ∧
      idealPartition current mean < scaledPartition current mean + 1 := by
  obtain ⟨hlow, hhigh⟩ := h
  have hword : (4097 : ℕ) ≤ max64 := by decide
  have hcut : (Quantity.floorWord (idealPartition current mean) : ℚ) ≤
      idealPartition current mean :=
    Memory.floorWord_le (idealPartition_nonneg hmean)
  have hone : 1 ≤ Quantity.floorWord (idealPartition current mean) :=
    Memory.le_floorWord (by decide) (by exact_mod_cast hlow)
  have hmost : Quantity.floorWord (idealPartition current mean) < 4097 := by
    exact_mod_cast hcut.trans_lt hhigh
  have hsame : scaledPartition current mean =
      Quantity.floorWord (idealPartition current mean) := by
    rw [scaledPartition_eq hmean]
    unfold largestPartition
    omega
  rw [hsame]
  exact ⟨hcut, Memory.lt_floorWord_add_one (by omega)⟩

/-- The mean input once the size is scaled. -/
def scaledInput (current : ℕ) (mean : ℚ) : ℚ := mean * scaledPartition current mean / current

/-- The mean input lands where it was to be moved, or below by less than one MiB of the size
is worth. -/
theorem scaledInput_bounds (hcurrent : 1 ≤ current) (hmean : 0 < mean)
    (h : IsUnclamped current mean) :
    bandedInput mean - mean / current < scaledInput current mean ∧
      scaledInput current mean ≤ bandedInput mean := by
  have hpos : (0 : ℚ) < current := by exact_mod_cast hcurrent
  obtain ⟨hle, hlt⟩ := scaledPartition_of_isUnclamped hmean h
  unfold idealPartition at hle hlt
  rw [le_div_iff₀ hmean] at hle
  rw [div_lt_iff₀ hmean] at hlt
  unfold scaledInput
  constructor
  · rw [lt_div_iff₀ hpos, sub_mul, div_mul_cancel₀ _ hpos.ne']
    linarith
  · rw [div_le_iff₀ hpos]
    linarith

/-- How a size is scaled for a mean input. -/
structure ScalesIntoBand (current : ℕ) (mean : ℚ) : Prop where
  bounds : 1 ≤ scaledPartition current mean ∧ scaledPartition current mean ≤ 4096
  antitone : ∀ larger, mean ≤ larger →
    scaledPartition current larger ≤ scaledPartition current mean
  monotone : ∀ larger, current ≤ larger →
    scaledPartition current mean ≤ scaledPartition larger mean
  small : IsUnclamped current mean → mean < 128 →
    128 - mean / current < scaledInput current mean ∧ scaledInput current mean ≤ 128
  large : IsUnclamped current mean → 256 < mean →
    256 - mean / current < scaledInput current mean ∧ scaledInput current mean ≤ 256
  within : IsUnclamped current mean → 128 ≤ mean → mean ≤ 256 → scaledInput current mean = mean

end Scaling

end Rules

/-- Scaling a partition size by the mean input lands in the band and is monotone. -/
theorem scaled_partition_lands_in_band {current : ℕ} {mean : ℚ} (hcurrent : 1 ≤ current)
    (hmean : 0 < mean) : Rules.ScalesIntoBand current mean := by
  have hwithin : ∀ (n : ℕ), min (max n 1) Rules.largestPartition =
      min (max n 1) 4096 := fun _ => rfl
  constructor
  case bounds =>
    rw [Rules.scaledPartition_eq hmean, hwithin]
    omega
  case antitone =>
    intro larger hle
    have hideal : Rules.idealPartition current larger ≤ Rules.idealPartition current mean :=
      Rules.idealPartition_antitone hmean hle
    have hcut := Memory.floorWord_mono hideal
    rw [Rules.scaledPartition_eq hmean, Rules.scaledPartition_eq (hmean.trans_le hle)]
    omega
  case monotone =>
    intro larger hle
    have hcut := Memory.floorWord_mono (Rules.idealPartition_monotone hmean hle)
    rw [Rules.scaledPartition_eq hmean, Rules.scaledPartition_eq hmean]
    omega
  case small =>
    intro h hlow
    rw [← Rules.bandedInput_of_lt hlow]
    exact Rules.scaledInput_bounds hcurrent hmean h
  case large =>
    intro h hhigh
    rw [← Rules.bandedInput_of_gt hhigh]
    exact Rules.scaledInput_bounds hcurrent hmean h
  case within =>
    intro h hlow hhigh
    -- Nothing is cut: the ideal size is the size now.
    have hideal : Rules.idealPartition current mean = current := by
      rw [Rules.idealPartition, Rules.bandedInput_of_within hlow hhigh,
        mul_div_cancel_right₀ _ hmean.ne']
    obtain ⟨hle, hlt⟩ := Rules.scaledPartition_of_isUnclamped hmean h
    rw [hideal] at hle hlt
    have hsame : Rules.scaledPartition current mean = current := by
      have hle' : Rules.scaledPartition current mean ≤ current := by exact_mod_cast hle
      have hlt' : current < Rules.scaledPartition current mean + 1 := by exact_mod_cast hlt
      omega
    have hpos : (current : ℚ) ≠ 0 := by
      have : current ≠ 0 := by omega
      exact_mod_cast this
    rw [Rules.scaledInput, hsame, mul_div_cancel_right₀ _ hpos]

/-- A size of 512 MiB for 1000 MiB of input is cut to 131 MiB, which brings the input to almost
256 MiB. -/
theorem largeInput_lands_in_band :
    (1 : ℕ) ≤ 512 ∧ (0 : ℚ) < 1000 ∧ Rules.IsUnclamped 512 1000 ∧ (256 : ℚ) < 1000 ∧
      Rules.scaledPartition 512 (1000 : ℚ) = 131 ∧ Rules.ScalesIntoBand 512 1000 ∧
      256 - 1000 / (512 : ℕ) < Rules.scaledInput 512 1000 ∧ Rules.scaledInput 512 1000 ≤ 256 := by
  have hcurrent : (1 : ℕ) ≤ 512 := by decide
  have hmean : (0 : ℚ) < 1000 := by norm_num
  have hlarge : (256 : ℚ) < 1000 := by norm_num
  have hunclamped : Rules.IsUnclamped 512 1000 := by
    rw [Rules.IsUnclamped, Rules.idealPartition, Rules.bandedInput_of_gt hlarge]
    norm_num
  have hscales := scaled_partition_lands_in_band hcurrent hmean
  exact ⟨hcurrent, hmean, hunclamped, hlarge, by decide +kernel, hscales,
    hscales.large hunclamped hlarge⟩

namespace Rules

/-! ## After a GPU ran out of memory -/

section OutOfMemory

variable {K : Type} [Quantity K] {ctx : Context K} {s : State} {current : ℕ} {mean : K}

theorem one_le_scaledPartition (hcurrent : 1 ≤ current) : 1 ≤ scaledPartition current mean := by
  unfold scaledPartition largestPartition
  split
  · exact hcurrent
  · dsimp only
    omega

theorem scaledPartition_le (hmean : ¬mean ≤ Quantity.ofNat 0) :
    scaledPartition current mean ≤ 4096 := by
  unfold scaledPartition
  rw [if_neg hmean]
  exact Nat.min_le_right _ _

/-- Without a positive mean the size is neither scaled nor kept in the bounds. -/
theorem scaledPartition_of_nonpos (hmean : mean ≤ Quantity.ofNat 0) :
    scaledPartition current mean = current :=
  if_pos hmean

/-- The mean input of a task in MiB. -/
def meanInputMib (app : AppSummary K) : K :=
  app.meanInputBytes / (Quantity.ofNat 1024 * Quantity.ofNat 1024)

/-- Half of the size in effect, or less if that suits the input. -/
def shrunkPartition (app : AppSummary K) (current : ℕ) : ℕ :=
  min (max (current / 2) 1) (scaledPartition current (meanInputMib app))

theorem shrunkPartition_bounds (app : AppSummary K) (hcurrent : 1 ≤ current) :
    1 ≤ shrunkPartition app current ∧ shrunkPartition app current ≤ max (current / 2) 1 := by
  have hscaled : 1 ≤ scaledPartition current (meanInputMib app) :=
    one_le_scaledPartition hcurrent
  unfold shrunkPartition
  omega

/-- The bound is exceeded for large sizes without statistics of the input, and only for these. -/
theorem shrunkPartition_le_iff (app : AppSummary K) (hcurrent : 1 ≤ current) :
    shrunkPartition app current ≤ 4096 ↔
      ¬(meanInputMib app ≤ Quantity.ofNat 0 ∧ 8194 ≤ current) := by
  unfold shrunkPartition
  by_cases hmean : meanInputMib app ≤ Quantity.ofNat 0
  · rw [scaledPartition_of_nonpos hmean]
    simp only [hmean, true_and]
    omega
  · have hscaled : scaledPartition current (meanInputMib app) ≤ 4096 := scaledPartition_le hmean
    simp only [hmean, false_and, not_false_iff, iff_true]
    omega

omit [Quantity K] in
/-- The tool asks for at most half of the size, and says why. -/
theorem exists_partitionMib {app : AppSummary K} (hoom : app.gpuOomStages ≠ []) :
    ∃ comment, ∀ current inputBased, Tool.partitionMib .profiling app current inputBased =
      ⟨min (max (current / 2) 1) inputBased, some comment⟩ := by
  have hnonempty : ¬app.gpuOomStages.isEmpty = true := by simpa using hoom
  exact ⟨_, fun current inputBased => if_neg hnonempty⟩

/-- After a GPU ran out of memory a free size is set to the shrunk one, and this is explained. -/
theorem exists_ledger_maxPartitionBytes (hfree : s.ledger.IsFree Key.maxPartitionBytes)
    (htool : ctx.tool = .profiling) (hoom : ctx.app.gpuOomStages ≠ []) :
    ∃ comment, (maxPartitionBytes ctx s).ledger =
      (s.ledger.apply (.recommend Key.maxPartitionBytes
        (Size.ofMib (shrunkPartition ctx.app (partitionInEffect K s.ledger))))).sayAll
          [comment] := by
  obtain ⟨comment, htarget⟩ := exists_partitionMib hoom
  have hsuggest : ∀ text, s.ledger.suggest Key.maxPartitionBytes (.text text) =
      [.recommend Key.maxPartitionBytes text] := fun _ => hfree.suggest_eq rfl
  refine ⟨comment, ?_⟩
  unfold maxPartitionBytes
  simp only [htool, htarget, hsuggest]
  rw [if_neg (by simp), if_pos ⟨List.cons_ne_nil _ _, hfree.accepts⟩, State.ledger_write,
    run_append]
  refine run_remarks ?_ [comment]
  rw [isSkipped_run]
  exact hfree.unskipped

end OutOfMemory

end Rules

end SparkTuner
