import SparkTuner.Number.Numeral
import SparkTuner.Text.Cut

/-!
# Semantic versions

`major.minor.patch`, then optionally `-` and a pre-release, then optionally `+` and a build label.
Both labels are dotted lists of nonempty identifiers over ASCII letters, digits and the hyphen. The
three numbers, and the pre-release identifiers made of digits only, have no leading zero; the three
numbers fit 64 bits.
-/

namespace SparkTuner.Version

open Number Text

/-- A version number of three parts. -/
structure Triple where
  major : Nat
  minor : Nat
  patch : Nat
  deriving Repr, DecidableEq

/-- Whether a list of digits has a zero in front of others. -/
def hasLeadingZero (cs : List Char) : Bool :=
  match cs with
  | '0' :: _ :: _ => true
  | _ => false

/-- One of the three numbers. -/
def number? (cs : List Char) : Option Nat :=
  if hasLeadingZero cs then none else (readDigits? cs).filter (· ≤ max64)

/-- The characters of an identifier. -/
def isIdentifierChar (c : Char) : Bool := c.isAlphanum || c == '-'

/-- Whether a text is a dotted list of nonempty identifiers, each of which is `allowed`. -/
def isLabel (allowed : List Char → Bool) (cs : List Char) : Bool :=
  (parts '.' cs).all fun p => !p.isEmpty && p.all isIdentifierChar && allowed p

/-- Whether an identifier may stand in a pre-release. -/
def isPreReleaseIdentifier (cs : List Char) : Bool := !(cs.all isDigit && hasLeadingZero cs)

/-- Whether a text is what may follow the three numbers. -/
def isSuffix : List Char → Bool
  | [] => true
  | '-' :: cs =>
    isLabel isPreReleaseIdentifier (cs.takeWhile (· != '+')) &&
      match cs.dropWhile (· != '+') with
      | [] => true
      | _ :: label => isLabel (fun _ => true) label
  | '+' :: cs => isLabel (fun _ => true) cs
  | _ => false

/-- The digits a text starts with, and what follows them. -/
def leadingDigits (cs : List Char) : List Char × List Char :=
  (cs.takeWhile isDigit, cs.dropWhile isDigit)

/-- The three numbers of a semantic version. -/
def semantic? (cs : List Char) : Option Triple :=
  match leadingDigits cs with
  | (major, '.' :: rest) =>
    match leadingDigits rest with
    | (minor, '.' :: rest) =>
      let (patch, suffix) := leadingDigits rest
      match number? major, number? minor, number? patch, isSuffix suffix with
      | some major, some minor, some patch, true => some ⟨major, minor, patch⟩
      | _, _, _, _ => none
    | _ => none
  | _ => none

end SparkTuner.Version
