import SparkTuner.Number.Numeral

/-!
# Quantities

Sizes and shares are computed in an arithmetic that is left open: binary64 when the tuner runs, the
rational numbers where exact statements are made about it. `Quantity` lists what the tuner asks of
either. Conversions to whole numbers end in a 64-bit word: what does not fit is moved to the
nearest end of the word, and what is no number becomes zero.
-/

namespace SparkTuner.Number

/-- The exact value behind a quantity. -/
inductive Exact where
  /-- No number at all. -/
  | undefined
  /-- Beyond every number, on the side that `negative` names. -/
  | infinite (negative : Bool)
  /-- The fraction `num / den`, below zero when `negative`. Zero has a sign too. -/
  | finite (negative : Bool) (num den : Nat)
  deriving Repr, DecidableEq

/-- Whether the value is a number above zero. -/
def Exact.isPositive : Exact → Bool
  | finite negative num _ => !negative && num != 0
  | _ => false

/-- An arithmetic in which sizes and shares can be computed. -/
class Quantity (K : Type) extends Add K, Sub K, Mul K, Div K, LT K, LE K where
  decLt : DecidableRel (α := K) (· < ·)
  decLe : DecidableRel (α := K) (· ≤ ·)
  /-- A whole number, rounded if the arithmetic has to. -/
  ofNat : Nat → K
  /-- The decimal `digits / 10 ^ places`. -/
  ofDecimal : (digits places : Nat) → K
  /-- The whole part as a 64-bit word. -/
  floorWord : K → Nat
  /-- The least whole number not below, as a 64-bit word. -/
  ceilWord : K → Nat
  /-- The value without rounding. -/
  exact : K → Exact

namespace Quantity

variable {K : Type} [Quantity K]

instance (a b : K) : Decidable (a < b) := decLt a b

instance (a b : K) : Decidable (a ≤ b) := decLe a b

/-- One tenth. -/
def tenth : K := ofNat 1 / ofNat 10

end Quantity

/-- A whole number moved into the range of a 64-bit word. -/
def clampWord (z : Int) : Nat := min z.toNat max64

theorem clampWord_le (z : Int) : clampWord z ≤ max64 := Nat.min_le_right ..

instance : Quantity Rat where
  decLt := inferInstance
  decLe := inferInstance
  ofNat n := n
  ofDecimal digits places := mkRat digits (Nat.pow 10 places)
  floorWord q := clampWord q.floor
  ceilWord q := clampWord q.ceil
  exact q := .finite (q.num < 0) q.num.natAbs q.den

/-- The exact value of a binary64 number, from its sign, exponent and fraction bits. -/
def exactOfBits (bits : UInt64) : Exact :=
  let negative := bits.toNat > maxSigned64
  let exponent := bits.toNat / Nat.pow 2 52 % Nat.pow 2 11
  let fraction := bits.toNat % Nat.pow 2 52
  if exponent = 2047 then
    if fraction = 0 then .infinite negative else .undefined
  else if exponent = 0 then .finite negative fraction (Nat.pow 2 1074)
  else if 1075 ≤ exponent then
    .finite negative ((Nat.pow 2 52 + fraction) * Nat.pow 2 (exponent - 1075)) 1
  else .finite negative (Nat.pow 2 52 + fraction) (Nat.pow 2 (1075 - exponent))

/-- The binary64 number nearest to `digits * 10 ^ exponent`. Exponents far outside the range of the
format are settled before any power is computed. -/
def floatOfDecimal (digits : Nat) (exponent : Int) : Float :=
  if digits = 0 then 0
  else
    let magnitude : Int := exponent + (Nat.log2 digits / 3 + 1 : Nat)
    if exponent > 400 then Float.ofScientific 1 false 400
    else if magnitude < -400 then 0
    else Float.ofScientific digits (exponent < 0) exponent.natAbs

instance : Quantity Float where
  decLt := inferInstance
  decLe := inferInstance
  ofNat n := Float.ofNat n
  ofDecimal digits places := floatOfDecimal digits (-places)
  floorWord x := x.toUInt64.toNat
  ceilWord x := x.ceil.toUInt64.toNat
  exact x := exactOfBits x.toBits

end SparkTuner.Number
