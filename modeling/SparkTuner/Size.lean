import SparkTuner.Number.Quantity
import SparkTuner.Text.Blank
import SparkTuner.Text.Cut
import SparkTuner.Text.Letters

/-!
# Sizes of memory and data

A size is a decimal number with an optional unit, such as `512m`, `4g`, `15109MiB` or a bare
number. What a bare number counts depends on the setting: memory settings count MiB, the ones about
bytes count bytes.
-/

namespace SparkTuner

open Number Text

/-- The units of a size, each 1024 times the one before. -/
inductive SizeUnit where
  | byte
  | kib
  | mib
  | gib
  | tib
  | pib
  deriving Repr, DecidableEq

namespace SizeUnit

/-- How many times 1024 is taken as a factor. -/
def power : SizeUnit → Nat
  | byte => 0
  | kib => 1
  | mib => 2
  | gib => 3
  | tib => 4
  | pib => 5

/-- The bytes of one unit. -/
def bytes (u : SizeUnit) : Nat := Nat.pow 1024 u.power

/-- The unit of a letter. -/
def ofLetter? : List Char → Option SizeUnit
  | ['b'] => some byte
  | ['k'] => some kib
  | ['m'] => some mib
  | ['g'] => some gib
  | ['t'] => some tib
  | ['p'] => some pib
  | _ => none

/-- The letters of a suffix without the `ib` or `b` that may follow the unit's own letter. -/
def stem (letters : List Char) : List Char :=
  match letters.reverse with
  | 'b' :: 'i' :: head => head.reverse
  | 'b' :: c :: head => (c :: head).reverse
  | _ => letters

/-- The unit a suffix names, in letters of either case. -/
def ofSuffix? (suffix : List Char) : Option SizeUnit :=
  ofLetter? (stem ((trim suffix).map Char.toLower))

end SizeUnit

namespace Size

/-- Digits and points, the characters a number is made of. -/
def isNumeric (c : Char) : Bool := isDigit c || c == '.'

/-- A number of ASCII digits with at most one point among them: its digits and how many of them
follow the point. -/
def readDecimal? (cs : List Char) : Option (Nat × Nat) :=
  match parts '.' cs with
  | [whole] => (readDigits? whole).map (·, 0)
  | [whole, places] => (readDigits? (whole ++ places)).map (·, places.length)
  | _ => none

/-- The bytes of a size whose bare numbers count `unit`. -/
def bytes? (K : Type) [Quantity K] (unit : SizeUnit) (text : String) : Option K :=
  let cs := trim text.toList
  let suffix := cs.dropWhile isNumeric
  match readDecimal? (cs.takeWhile isNumeric),
      if suffix = [] then some unit else SizeUnit.ofSuffix? suffix with
  | some (digits, places), some u =>
    some (Quantity.ofDecimal digits places * Quantity.ofNat u.bytes)
  | _, _ => none

/-- The whole MiB of a size whose bare numbers count `unit`. -/
def mib? (K : Type) [Quantity K] (unit : SizeUnit) (text : String) : Option Nat :=
  (bytes? K unit text).map fun bytes =>
    Quantity.floorWord (bytes / Quantity.ofNat SizeUnit.mib.bytes)

/-- The whole MiB of a memory setting, whose bare numbers count MiB. -/
def memory? (K : Type) [Quantity K] (text : String) : Option Nat := mib? K .mib text

/-- The text of a size in MiB. -/
def ofMib (mib : Nat) : String := Nat.repr mib ++ "m"

end Size

end SparkTuner
