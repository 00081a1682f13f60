import SparkTuner.Number.Quantity

/-!
# Shortest decimals

A binary64 number is written with the fewest significant digits that read back as it, and among
those with the ones nearest to it. The search compares exactly: the numbers that round to
`significand * 2 ^ exponent` fill an interval whose ends are half a step away (a quarter below a
power of two), and a decimal of `n` digits lies in it only if one of the two neighbours of the
number on the grid of `n` digits does.
-/

namespace SparkTuner.Number

/-- `digits * 10 ^ exponent`. -/
structure Decimal where
  digits : Nat
  exponent : Int
  deriving Repr, DecidableEq

/-- A positive binary64 number `significand * 2 ^ exponent`. -/
structure Binary where
  significand : Nat
  exponent : Int
  /-- Whether the number below is half as far away as the number above. -/
  nearerBelow : Bool
  deriving Repr, DecidableEq

/-- The magnitude held by the exponent and fraction bits; infinities and undefined values aside. -/
def Binary.ofBits (bits : UInt64) : Binary :=
  let exponent : Nat := bits.toNat / Nat.pow 2 52 % Nat.pow 2 11
  let fraction := bits.toNat % Nat.pow 2 52
  if exponent = 0 then ⟨fraction, -1074, false⟩
  else ⟨Nat.pow 2 52 + fraction, (exponent : Int) - 1075, fraction = 0 && exponent != 1⟩

/-- How `a * 10 ^ i` compares with `b * 2 ^ j`. -/
def compareScaled (a : Nat) (i : Int) (b : Nat) (j : Int) : Ordering :=
  compare (a * Nat.pow 10 i.toNat * Nat.pow 2 (-j).toNat)
    (b * Nat.pow 2 j.toNat * Nat.pow 10 (-i).toNat)

/-- Whether a decimal rounds to the binary number; the ends of the interval belong to the even
significands. -/
def Binary.holds (x : Binary) (d : Decimal) : Bool :=
  let even := x.significand % 2 = 0
  let low := 4 * x.significand - (if x.nearerBelow then 1 else 2)
  let high := 4 * x.significand + 2
  let aboveLow :=
    match compareScaled d.digits d.exponent low (x.exponent - 2) with
    | .gt => true
    | .eq => even
    | .lt => false
  let belowHigh :=
    match compareScaled d.digits d.exponent high (x.exponent - 2) with
    | .lt => true
    | .eq => even
    | .gt => false
  aboveLow && belowHigh

/-- The greatest multiple of `10 ^ exponent` that is not above the number. -/
def Binary.below (x : Binary) (exponent : Int) : Decimal :=
  let num := x.significand * Nat.pow 2 x.exponent.toNat * Nat.pow 10 (-exponent).toNat
  let den := Nat.pow 2 (-x.exponent).toNat * Nat.pow 10 exponent.toNat
  ⟨num / den, exponent⟩

/-- Of the two neighbours on one decimal grid the one that reads back, the nearer if both do. -/
def Binary.neighbour? (x : Binary) (exponent : Int) : Option Decimal :=
  let low := x.below exponent
  let high : Decimal := ⟨low.digits + 1, exponent⟩
  match x.holds low, x.holds high with
  | true, false => some low
  | false, true => some high
  | false, false => none
  | true, true =>
    match compareScaled (2 * low.digits + 1) exponent (2 * x.significand) x.exponent with
    | .lt => some high
    | .gt => some low
    | .eq => some (if low.digits % 2 = 0 then low else high)

/-- The first hit on grids that get finer by one digit. -/
def Binary.search (x : Binary) : (grids : Nat) → (exponent : Int) → Decimal
  | 0, exponent => x.below exponent
  | grids + 1, exponent =>
    match x.neighbour? exponent with
    | some d => d
    | none => x.search grids (exponent - 1)

/-- The shortest decimal of a positive number. The first grid is coarser than the number. -/
def Binary.shortest (x : Binary) : Decimal :=
  let top := (x.exponent + (Nat.log2 x.significand + 1 : Nat)) * 30103 / 100000 + 1
  x.search 25 top

/-- A decimal without zeros at the end of its digits. -/
def Decimal.reduced (d : Decimal) : Decimal :=
  go d.digits.log2 d
where
  /-- At most one step for each binary digit. -/
  go : Nat → Decimal → Decimal
    | 0, d => d
    | steps + 1, d =>
      if d.digits ≠ 0 ∧ d.digits % 10 = 0 then go steps ⟨d.digits / 10, d.exponent + 1⟩ else d

end SparkTuner.Number
