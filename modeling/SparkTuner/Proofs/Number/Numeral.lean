import Mathlib.Data.Nat.Notation
import SparkTuner.Number.Numeral
import SparkTuner.Text.Blank

/-!
# Numerals that were written are read back

The digits of a number are ASCII digits (`isDigit_of_mem_toDigits`), and they have its value
(`digitsValue_toDigits`).
-/

namespace SparkTuner

open Number Text

theorem isDigit_of_mem_toDigits {n : ℕ} {c : Char} (h : c ∈ Nat.toDigits 10 n) :
    isDigit c = true := by
  have hdigit := Nat.isDigit_of_mem_toDigits (by omega) (by omega) h
  simpa [Char.isDigit, isDigit, Char.le_def] using hdigit

theorem digitsValue_toDigits (n : ℕ) : digitsValue (Nat.toDigits 10 n) = n := by
  have hvalue := Nat.ofDigitChars_ten_toDigits (n := n)
  rw [Nat.ofDigitChars_eq_foldl] at hvalue
  exact hvalue

theorem readDigits?_eq_some_iff {cs : List Char} {n : ℕ} :
    readDigits? cs = some n ↔ cs ≠ [] ∧ (∀ c ∈ cs, isDigit c = true) ∧ digitsValue cs = n := by
  simp only [readDigits?, Option.ite_none_right_eq_some, Option.some.injEq, List.all_eq_true,
    and_assoc]

theorem readDigits?_toDigits (n : ℕ) : readDigits? (Nat.toDigits 10 n) = some n :=
  readDigits?_eq_some_iff.2
    ⟨Nat.toDigits_ne_nil, fun _ => isDigit_of_mem_toDigits, digitsValue_toDigits n⟩

theorem digitChar_digitValue {c : Char} (h : isDigit c = true) :
    digitValue c < 10 ∧ Nat.digitChar (digitValue c) = c := by
  simp only [isDigit, Bool.and_eq_true, decide_eq_true_eq] at h
  have hlow : 0x30 ≤ c.toNat := h.1
  have hhigh : c.toNat ≤ 0x39 := h.2
  have hvalue : digitValue c = c.toNat - 0x30 := rfl
  have hless : digitValue c < 10 := by omega
  refine ⟨hless, Char.toNat_inj.1 ?_⟩
  rw [Nat.toNat_digitChar_of_lt_ten hless]
  omega

/-- The numbers below ten are the ones of a single digit. -/
theorem toDigits_eq_singleton_iff {n : ℕ} {c : Char} (h : isDigit c = true) :
    Nat.toDigits 10 n = [c] ↔ n = digitValue c := by
  constructor
  · intro hdigits
    have hvalue := digitsValue_toDigits n
    rw [hdigits] at hvalue
    exact hvalue.symm.trans (Nat.zero_add _)
  · rintro rfl
    obtain ⟨hless, hchar⟩ := digitChar_digitValue h
    rw [Nat.toDigits_of_lt_base hless, hchar]

theorem isBlank_of_isDigit {c : Char} (h : isDigit c = true) : isBlank c = false := by
  simp only [isDigit, Bool.and_eq_true, decide_eq_true_eq] at h
  have h1 : 0x30 ≤ c.toNat := h.1
  have h2 : c.toNat ≤ 0x39 := h.2
  simp only [isBlank, Bool.or_eq_false_iff, Bool.and_eq_false_iff, decide_eq_false_iff_not,
    beq_eq_false_iff_ne]
  omega

end SparkTuner
