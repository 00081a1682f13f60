/-!
# Letter case

Names are compared without regard to case, and only the 26 ASCII letters have a case here: a
dotted or accented letter never stands for a plain one.
-/

namespace SparkTuner.Text

/-- The text with `A` to `Z` made small. -/
def lowered (s : String) : String := String.ofList (s.toList.map Char.toLower)

/-- The text with `a` to `z` made large. -/
def raised (s : String) : String := String.ofList (s.toList.map Char.toUpper)

/-- Equality without regard to the case of ASCII letters. -/
def sameLetters (s t : String) : Bool := lowered s == lowered t

end SparkTuner.Text
