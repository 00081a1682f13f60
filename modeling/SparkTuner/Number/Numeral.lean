import SparkTuner.Text.Digit

/-!
# Numerals

Reading whole numbers from text. A numeral may be longer than any machine word; the bound that a
setting has to respect is an argument of the reader.
-/

namespace SparkTuner.Number

open SparkTuner.Text

/-- Largest value of a 32-bit word. -/
def max32 : Nat := 0xFFFFFFFF

/-- Largest value of a 64-bit word. -/
def max64 : Nat := 0xFFFFFFFFFFFFFFFF

/-- Largest value of a signed 64-bit word. -/
def maxSigned64 : Nat := 0x7FFFFFFFFFFFFFFF

/-- Largest value of a 128-bit word. -/
def max128 : Nat := 0xFFFFFFFFFFFFFFFFFFFFFFFFFFFFFFFF

/-- Largest value of a signed 128-bit word. -/
def maxSigned128 : Nat := 0x7FFFFFFFFFFFFFFFFFFFFFFFFFFFFFFF

/-- The value of a list of ASCII digits, most significant first. -/
def digitsValue (cs : List Char) : Nat :=
  cs.foldl (fun n c => 10 * n + digitValue c) 0

/-- A nonempty list of ASCII digits as a number. -/
def readDigits? (cs : List Char) : Option Nat :=
  if cs ≠ [] ∧ cs.all isDigit then some (digitsValue cs) else none

/-- A nonempty list of ASCII digits as a number of at most `bound`, a plus sign allowed before
it. -/
def readUpTo? (bound : Nat) (cs : List Char) : Option Nat :=
  match cs with
  | '+' :: ds => (readDigits? ds).filter (· ≤ bound)
  | ds => (readDigits? ds).filter (· ≤ bound)

/-- A 32-bit count. -/
def readCount32? (s : String) : Option Nat := readUpTo? max32 s.toList

/-- A 64-bit count. -/
def readCount64? (s : String) : Option Nat := readUpTo? max64 s.toList

/-- Product that stops at the largest 32-bit word. -/
def cappedMul32 (a b : Nat) : Nat := min (a * b) max32

/-- Product that stops at the largest 64-bit word. -/
def cappedMul64 (a b : Nat) : Nat := min (a * b) max64

/-- The least number of groups of `size` that hold `total`. -/
def groupsOf (size total : Nat) : Nat := (total + size - 1) / size

/-- A 64-bit word read as a signed number: the upper half stands for the negative numbers. -/
def signed64 (n : Nat) : Int := if n ≤ maxSigned64 then n else (n : Int) - (max64 + 1 : Nat)

theorem le_of_readUpTo? {bound n : Nat} {cs : List Char} (h : readUpTo? bound cs = some n) :
    n ≤ bound := by
  unfold readUpTo? at h
  split at h <;> simpa using (Option.mem_filter_iff.1 h).2

theorem signed64_of_le {n : Nat} (h : n ≤ maxSigned64) : signed64 n = n := if_pos h

end SparkTuner.Number
