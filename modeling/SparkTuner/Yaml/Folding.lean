import SparkTuner.Yaml.Character

/-!
# Folding

A scalar over several lines stands for one text. Blanks around its line breaks do not count, a
single line feed counts as one blank, and of several line feeds all but the first count as they are.
Blanks inside a line stay.
-/

namespace SparkTuner.Yaml

/-- What was passed since the last character that counts. -/
inductive Gap where
  | none
  /-- Blanks inside a line, backwards. -/
  | blanks (passed : List Char)
  /-- Line breaks: the first, unless it was escaped, and the ones after it, backwards. -/
  | breaks (first : Option Char) (more : List Char)
  deriving Repr, DecidableEq

namespace Gap

/-- Passes a blank. -/
def blank (c : Char) : Gap → Gap
  | none => blanks [c]
  | blanks passed => blanks (c :: passed)
  | breaks first more => breaks first more

/-- Passes a line break. -/
def lineBreak (c : Char) : Gap → Gap
  | breaks first more => breaks first (c :: more)
  | _ => breaks (some c) []

/-- Whether a line break was passed. -/
def hasBreak : Gap → Bool
  | breaks .. => true
  | _ => false

/-- What the gap counts as, backwards. -/
def folded : Gap → List Char
  | none => []
  | blanks passed => passed
  | breaks first more =>
    if first == some '\n' then (if more.isEmpty then [' '] else more) else more ++ first.toList

end Gap

/-- A piece of a quoted scalar. -/
inductive Piece where
  | char (c : Char)
  | blank (c : Char)
  | lineBreak (c : Char)
  /-- A line break that was escaped. -/
  | join
  deriving Repr, DecidableEq

/-- The text that pieces stand for, after a gap and behind the characters `done`, which are kept
backwards. -/
def foldPieces (gap : Gap) (done : List Char) : List Piece → List Char
  | [] => (gap.folded ++ done).reverse
  | .char c :: ps => foldPieces .none (c :: (gap.folded ++ done)) ps
  | .blank c :: ps => foldPieces (gap.blank c) done ps
  | .lineBreak c :: ps => foldPieces (gap.lineBreak c) done ps
  | .join :: ps => foldPieces (.breaks none []) (gap.folded ++ done) ps

end SparkTuner.Yaml
