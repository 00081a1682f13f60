import SparkTuner.Number.Shortest

/-!
# Texts of binary64 numbers

A number is written with its shortest digits: with a point among them, and with a place after the
point at least, while it is neither very small nor very large, and with an exponent otherwise.
-/

namespace SparkTuner.Number

/-- How binary64 numbers are written. -/
structure FloatFormat where
  /-- A number with the value `0.d₁d₂… * 10 ^ n` is written without an exponent if `n` is above
  this, -/
  above : Int
  /-- and not above this. -/
  upTo : Int
  infinity : String
  undefined : String
  deriving Repr, DecidableEq

/-- The digits of a decimal. -/
def Decimal.digitChars (d : Decimal) : List Char := Nat.toDigits 10 d.digits

/-- The power of ten just above the decimal. -/
def Decimal.scale (d : Decimal) : Int := d.exponent + d.digitChars.length

/-- A decimal without an exponent. -/
def Decimal.positional (d : Decimal) : List Char :=
  let digits := d.digitChars
  if 0 ≤ d.exponent then digits ++ List.replicate d.exponent.toNat '0' ++ ['.', '0']
  else if 0 < d.scale then digits.take d.scale.toNat ++ '.' :: digits.drop d.scale.toNat
  else ['0', '.'] ++ List.replicate (-d.scale).toNat '0' ++ digits

/-- A decimal with an exponent. -/
def Decimal.scientific (d : Decimal) : List Char :=
  let digits := d.digitChars
  let places := if digits.length = 1 then [] else '.' :: digits.drop 1
  digits.take 1 ++ places ++ 'e' :: (toString (d.scale - 1)).toList

/-- A decimal, with an exponent where the format wants one. -/
def FloatFormat.decimal (f : FloatFormat) (d : Decimal) : List Char :=
  if f.above < d.scale ∧ d.scale ≤ f.upTo then d.positional else d.scientific

/-- The text of a binary64 number. -/
def FloatFormat.text (f : FloatFormat) (x : Float) : String :=
  let bits := x.toBits
  let sign := if bits.toNat > maxSigned64 then "-" else ""
  if x.isNaN then f.undefined
  else if x.isInf then sign ++ f.infinity
  else
    let magnitude := Binary.ofBits bits
    if magnitude.significand = 0 then sign ++ "0.0"
    else sign ++ String.ofList (f.decimal magnitude.shortest.reduced)

end SparkTuner.Number
