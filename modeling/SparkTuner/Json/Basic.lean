import SparkTuner.Number.Quantity

/-!
# JSON values

Values keep what the text says: the digits of numbers, and the fields of objects in their order with
repetitions. A string whose escapes name half of a surrogate pair stands for no text; it is
accepted where its value does not matter.
-/

namespace SparkTuner

open Number

/-- A number literal: `digits * 10 ^ exponent`. -/
structure JsonNumber where
  negative : Bool
  digits : Nat
  exponent : Int
  /-- Whether the literal has neither a point nor an exponent. -/
  isInteger : Bool
  deriving Repr, DecidableEq

/-- A JSON value. -/
inductive Json where
  | null
  | bool (b : Bool)
  | number (n : JsonNumber)
  /-- A string; none if it stands for no text. -/
  | string (s : Option String)
  | array (items : List Json)
  | object (fields : List (Option String × Json))
  deriving Repr

namespace JsonNumber

/-- The number as a count of at most `bound`. -/
def count? (bound : Nat) (n : JsonNumber) : Option Nat :=
  if n.isInteger ∧ !n.negative ∧ n.digits ≤ bound then some n.digits else none

/-- The number as a signed 64-bit integer. Zero with a minus sign is not one. -/
def int? (n : JsonNumber) : Option Int :=
  let z : Int := if n.negative then -n.digits else n.digits
  let limit := if n.negative then maxSigned64 + 1 else maxSigned64
  if n.isInteger ∧ !(n.negative && n.digits == 0) ∧ n.digits ≤ limit then some z else none

/-- The nearest binary64 number, unless it is beyond all of them. -/
def float? (n : JsonNumber) : Option Float :=
  let x := floatOfDecimal n.digits n.exponent
  if x.isInf then none else some (if n.negative then -x else x)

end JsonNumber

namespace Json

/-- A whole number. -/
def ofNat (n : Nat) : Json := number ⟨false, n, 0, true⟩

/-- A text. -/
def text (s : String) : Json := string (some s)

/-- An object with distinct fields that stand for text. -/
def record (fields : List (String × Json)) : Json := object (fields.map fun f => (some f.1, f.2))

end Json

end SparkTuner
