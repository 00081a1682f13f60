import Mathlib.Tactic.FieldSimp
import Mathlib.Tactic.Ring
import SparkTuner.Number.Fixed
import SparkTuner.Proofs.Size

/-!
# Decimals of four places

A fraction is rounded to the nearest number of ten-thousandths (`roundHalfEven_near`), and these are
written without the zeros at the end of their places (`isShort_fourPlaces`). Leaving them out does
not change what is read (`readFraction?_fourPlaces`).
-/

namespace SparkTuner.Number

open Text

/-! ## Rounding -/

section Rounding

variable {num den : ℕ}

/-- The part that is cut decides the direction, and a half may go either way. -/
theorem roundHalfEven_cases (num den : ℕ) :
    roundHalfEven num den = num / den ∧ 2 * (num % den) ≤ den ∨
      roundHalfEven num den = num / den + 1 ∧ den ≤ 2 * (num % den) := by
  unfold roundHalfEven
  dsimp only
  by_cases hdown : 2 * (num % den) < den
  · rw [if_pos hdown]
    exact Or.inl ⟨rfl, hdown.le⟩
  · rw [if_neg hdown]
    by_cases hup : den < 2 * (num % den)
    · rw [if_pos hup]
      exact Or.inr ⟨rfl, hup.le⟩
    · rw [if_neg hup]
      split
      · exact Or.inl ⟨rfl, not_lt.1 hup⟩
      · exact Or.inr ⟨rfl, not_lt.1 hdown⟩

theorem roundHalfEven_near (num : ℕ) (hden : 0 < den) :
    2 * num ≤ 2 * (roundHalfEven num den * den) + den ∧
      2 * (roundHalfEven num den * den) ≤ 2 * num + den := by
  have hdivided := Nat.div_add_mod' num den
  have hless := Nat.mod_lt num hden
  rcases roundHalfEven_cases num den with ⟨hround, hrest⟩ | ⟨hround, hrest⟩
  · rw [hround]
    omega
  · rw [hround, Nat.add_mul]
    omega

theorem roundHalfEven_mul_le (h : 2 * (num % den) < den) : roundHalfEven num den * den ≤ num := by
  have hround : roundHalfEven num den = num / den := if_pos h
  rw [hround]
  exact Nat.div_mul_le_self num den

theorem lt_roundHalfEven_mul (hden : 0 < den) (h : den < 2 * (num % den)) :
    num < roundHalfEven num den * den := by
  have hdivided := Nat.div_add_mod' num den
  have hless := Nat.mod_lt num hden
  rcases roundHalfEven_cases num den with ⟨-, hrest⟩ | ⟨hround, -⟩
  · omega
  · rw [hround, Nat.add_mul]
    omega

theorem roundHalfEven_pos (hden : 0 < den) (h : den < 2 * num) : 0 < roundHalfEven num den := by
  obtain ⟨hnear, -⟩ := roundHalfEven_near num hden
  by_contra hzero
  rw [Nat.eq_zero_of_not_pos hzero] at hnear
  omega

end Rounding

/-! ## Digits -/

theorem isDigit_digitChar {d : ℕ} (h : d < 10) : isDigit (Nat.digitChar d) = true := by
  revert d
  decide

theorem digitValue_digitChar {d : ℕ} (h : d < 10) : digitValue (Nat.digitChar d) = d := by
  revert d
  decide

theorem digitsValue_append (cs ds : List Char) :
    digitsValue (cs ++ ds) = digitsValue cs * 10 ^ ds.length + digitsValue ds := by
  induction ds using List.reverseRecOn with
  | nil => simp [digitsValue]
  | append_singleton ds d ih =>
    have hlast : ∀ es, digitsValue (es ++ [d]) = 10 * digitsValue es + digitValue d := by
      intro es
      rw [digitsValue, List.foldl_append]
      rfl
    rw [← List.append_assoc, hlast, hlast, ih, List.length_append, List.length_singleton, pow_succ]
    ring

theorem digitsValue_replicate_zero (k : ℕ) : digitsValue (List.replicate k '0') = 0 := by
  induction k with
  | zero => rfl
  | succ k ih =>
    rw [List.replicate_succ', digitsValue_append, ih]
    rfl

theorem isDigit_of_mem_lastDigits {count n : ℕ} {c : Char} (h : c ∈ lastDigits count n) :
    isDigit c = true := by
  induction count generalizing n with
  | zero => cases h
  | succ count ih =>
    rcases List.mem_append.1 h with h | h
    · exact ih h
    · rw [List.mem_singleton.1 h]
      exact isDigit_digitChar (Nat.mod_lt n (by decide))

theorem digitsValue_lastDigits (count n : ℕ) :
    digitsValue (lastDigits count n) = n % 10 ^ count := by
  induction count generalizing n with
  | zero => exact (Nat.mod_one n).symm
  | succ count ih =>
    have hlast : digitsValue [Nat.digitChar (n % 10)] = n % 10 := by
      rw [digitsValue, List.foldl_cons, digitValue_digitChar (Nat.mod_lt n (by decide))]
      exact Nat.zero_add _
    rw [lastDigits, digitsValue_append, ih, hlast, pow_succ', Nat.mod_mul]
    simp only [List.length_singleton, pow_one]
    ring

/-! ## Zeros at the end -/

theorem exists_dropZeros (digits : List Char) :
    ∃ k, digits = dropZeros digits ++ List.replicate k '0' := by
  have hzeros : ∀ c ∈ digits.reverse.takeWhile (· == '0'), c = '0' := by
    intro c hc
    have hzero := List.mem_takeWhile_imp (p := (· == '0')) hc
    exact eq_of_beq hzero
  have hends := congrArg List.reverse
    (List.takeWhile_append_dropWhile (p := (· == '0')) (l := digits.reverse))
  rw [List.reverse_reverse, List.reverse_append, List.eq_replicate_of_mem hzeros,
    List.reverse_replicate] at hends
  exact ⟨_, hends.symm⟩

theorem getLast_dropZeros {digits : List Char} (h : dropZeros digits ≠ []) :
    (dropZeros digits).getLast h ≠ '0' := by
  have hlast : ((dropZeros digits).getLast h == '0') = false :=
    getLast?_dropEndWhile (p := (· == '0')) (List.getLast?_eq_some_getLast h)
  exact ne_of_beq_false hlast

/-! ## Texts -/

/-- The text is the one of so many ten-thousandths with four places, but without the zeros at its
end, and without the point if no place is left. -/
inductive IsShort (units : ℕ) : List Char → Prop where
  | whole (hzeros : lastDigits 4 (units % 10000) = List.replicate 4 '0') :
    IsShort units (Nat.toDigits 10 (units / 10000))
  | places (kept : List Char) (k : ℕ) (hne : kept ≠ []) (hlast : kept.getLast hne ≠ '0')
    (hzeros : lastDigits 4 (units % 10000) = kept ++ List.replicate k '0') :
    IsShort units (Nat.toDigits 10 (units / 10000) ++ '.' :: kept)

theorem isShort_fourPlaces (units : ℕ) : IsShort units (fourPlaces units).toList := by
  obtain ⟨k, hk⟩ := exists_dropZeros (lastDigits 4 (units % 10000))
  have hlast := @getLast_dropZeros (lastDigits 4 (units % 10000))
  unfold fourPlaces
  dsimp only
  cases hkept : dropZeros (lastDigits 4 (units % 10000)) with
  | nil =>
    have hlength := length_lastDigits 4 (units % 10000)
    rw [hkept, List.nil_append] at hk
    rw [hk, List.length_replicate] at hlength
    rw [hlength] at hk
    rw [Nat.toList_repr]
    exact .whole hk
  | cons c kept =>
    rw [hkept] at hk
    have hne : c :: kept ≠ [] := List.cons_ne_nil c kept
    have hlast' : (c :: kept).getLast hne ≠ '0' := by
      simpa only [hkept] using hlast (by rw [hkept]; exact hne)
    have htext : (Nat.repr (units / 10000) ++ "." ++ String.ofList (c :: kept)).toList =
        Nat.toDigits 10 (units / 10000) ++ '.' :: c :: kept := by
      simp only [String.toList_append, Nat.toList_repr, String.toList_ofList]
      exact List.append_assoc _ _ _
    dsimp only
    rw [htext]
    exact .places (c :: kept) k hne hlast' hk

/-- The number that a decimal stands for. -/
def readFraction? (text : String) : Option ℚ :=
  (Size.readDecimal? text.toList).map fun p => Quantity.ofDecimal p.1 p.2

/-- Reading the text gives the ten-thousandths again, but for the zeros that were left out. -/
theorem IsShort.exists_readDecimal? {units : ℕ} {cs : List Char} (h : IsShort units cs) :
    ∃ digits places zeros, Size.readDecimal? cs = some (digits, places) ∧
      digits * 10 ^ zeros = units ∧ places + zeros = 4 := by
  have hunits := Nat.div_add_mod' units 10000
  have hrest : digitsValue (lastDigits 4 (units % 10000)) = units % 10000 := by
    rw [digitsValue_lastDigits]
    exact Nat.mod_mod units 10000
  cases h with
  | whole hzeros =>
    rw [hzeros, digitsValue_replicate_zero] at hrest
    rw [← hrest, Nat.add_zero] at hunits
    exact ⟨units / 10000, 0, 4, (Size.isDecimal_toDigits _).readDecimal?, hunits, rfl⟩
  | places kept k hne hlast hzeros =>
    have hlength := congrArg List.length hzeros
    rw [length_lastDigits, List.length_append, List.length_replicate] at hlength
    have hkept : ∀ c ∈ kept, isDigit c = true := by
      intro c hc
      have hmem : c ∈ lastDigits 4 (units % 10000) := hzeros ▸ List.mem_append_left _ hc
      exact isDigit_of_mem_lastDigits hmem
    have hwhole : ∀ c ∈ Nat.toDigits 10 (units / 10000), isDigit c = true :=
      fun _ => isDigit_of_mem_toDigits
    have hdigits : ∀ c ∈ Nat.toDigits 10 (units / 10000) ++ kept, isDigit c = true := by
      intro c hc
      exact (List.mem_append.1 hc).elim (hwhole c) (hkept c)
    have hnumber := List.append_ne_nil_of_right_ne_nil (Nat.toDigits 10 (units / 10000)) hne
    have hread := (Size.IsDecimal.point hnumber hdigits).readDecimal?
    rw [hzeros, digitsValue_append, digitsValue_replicate_zero, List.length_replicate] at hrest
    refine ⟨_, kept.length, k, hread, ?_, hlength.symm⟩
    calc digitsValue (Nat.toDigits 10 (units / 10000) ++ kept) * 10 ^ k
        = units / 10000 * 10 ^ (kept.length + k) + (digitsValue kept * 10 ^ k + 0) := by
          rw [digitsValue_append, digitsValue_toDigits, pow_add]
          ring
      _ = units := by
          rw [hrest, ← hlength]
          exact hunits

/-- Leaving the zeros out does not change the number. -/
theorem IsShort.readFraction? {units : ℕ} {text : String} (h : IsShort units text.toList) :
    readFraction? text = some ((units : ℚ) / 10000) := by
  obtain ⟨digits, places, zeros, hread, hunits, hplaces⟩ := h.exists_readDecimal?
  have hpower : (10 : ℚ) ^ places * 10 ^ zeros = 10000 := by
    rw [← pow_add, hplaces]
    norm_num
  have hscaled : (digits : ℚ) * 10 ^ zeros = units := by exact_mod_cast hunits
  have hvalue : (digits : ℚ) / 10 ^ places = units / 10000 := by
    rw [div_eq_div_iff (by positivity) (by norm_num), ← hscaled, ← hpower]
    ring
  rw [Number.readFraction?, hread, Option.map_some, Size.ofDecimal_eq, hvalue]

end SparkTuner.Number
