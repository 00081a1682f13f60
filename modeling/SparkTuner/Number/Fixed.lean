import SparkTuner.Number.Quantity
import SparkTuner.Text.Blank

/-!
# Numbers with a fixed number of decimal places

A fraction is written with four places, a half going to the even neighbour, and the zeros at the
end of its places are then left out (with the point, if no place is left).
-/

namespace SparkTuner.Number

/-- The whole number nearest to `num / den`; of two equally near ones the even one. -/
def roundHalfEven (num den : Nat) : Nat :=
  let whole := num / den
  let rest := num % den
  if 2 * rest < den then whole
  else if den < 2 * rest then whole + 1
  else if whole % 2 = 0 then whole else whole + 1

/-- The last `count` decimal digits of `n`, zeros included. -/
def lastDigits : (count n : Nat) → List Char
  | 0, _ => []
  | count + 1, n => lastDigits count (n / 10) ++ [Nat.digitChar (n % 10)]

/-- The digits without the zeros at their end. -/
def dropZeros (digits : List Char) : List Char := Text.dropEndWhile (· == '0') digits

/-- `units` ten-thousandths as a decimal without zeros at the end of its places. -/
def fourPlaces (units : Nat) : String :=
  let whole := Nat.repr (units / 10000)
  match dropZeros (lastDigits 4 (units % 10000)) with
  | [] => whole
  | places => whole ++ "." ++ String.ofList places

/-- The text of a fraction: four places at most, a half to even, the sign of zero kept. -/
def fractionText : Exact → String
  | .undefined => "NaN"
  | .infinite false => "inf"
  | .infinite true => "-inf"
  | .finite negative num den =>
    let text := fourPlaces (roundHalfEven (num * 10000) den)
    if negative then "-" ++ text else text

theorem length_lastDigits (count n : Nat) : (lastDigits count n).length = count := by
  induction count generalizing n with
  | zero => rfl
  | succ count ih => simp [lastDigits, ih]

end SparkTuner.Number
